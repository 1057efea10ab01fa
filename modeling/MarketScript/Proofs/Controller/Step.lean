import Mathlib.Logic.Basic
import MarketScript.Chain.Controller
import MarketScript.Proofs.Outcome

/-!
# Steps of a controller

The messages that a controller carries out or refuses with codes, and what each does to its state.
-/

namespace MarketScript

namespace Controller

/-- What a controller can do with a message that it does not revert. -/
inductive Step (c : Controller) (f : Frame) (isMarket : Address → Except ChainError Abi)
    (p : Params) : Outcome Controller → Prop
  | refused {error info : String} {o : Outcome Controller} (named : error ≠ "NO_ERROR")
      (refusal : c.refuse f error info = .ok o) : Step c f isMarket p o
  | closeFactor {factor : Int} (method : p.method = "_setCloseFactor")
      (admin : f.sender = c.admin) (hasFactor : p.number 0 = .ok factor)
      (atLeast : closeFactorMin ≤ factor) (atMost : factor ≤ closeFactorMax) :
      Step c f isMarket p
        (succeed { c with closeFactor := factor } f "NewCloseFactor"
          [("oldCloseFactorMantissa", .number c.closeFactor),
            ("newCloseFactorMantissa", .number factor)])
  | support {market : Address} {answer : Abi} (method : p.method = "_supportMarket")
      (admin : f.sender = c.admin) (hasMarket : p.address 0 = .ok market)
      (unlisted : c.isListed market = false) (asked : isMarket market = .ok answer)
      (confirmed : answer.asBool? = some true) :
      Step c f isMarket p
        (succeed { c with markets := c.markets.insert market 0 } f "MarketListed"
          [("pToken", .address market)])
  | collateralFactor {market : Address} {factor old : Int}
      (method : p.method = "_setCollateralFactor") (admin : f.sender = c.admin)
      (hasMarket : p.address 0 = .ok market) (hasFactor : p.number 1 = .ok factor)
      (atMost : factor ≤ collateralFactorMax) (listed : c.markets.get? market = some old) :
      Step c f isMarket p
        (succeed { c with markets := c.markets.insert market factor } f "NewCollateralFactor"
          [("pToken", .address market), ("oldCollateralFactorMantissa", .number old),
            ("newCollateralFactorMantissa", .number factor)])
  | pendingAdmin {pending : Address} (method : p.method = "_setPendingAdmin")
      (admin : f.sender = c.admin) (hasPending : p.address 0 = .ok pending) :
      Step c f isMarket p (c.setPendingAdmin f pending)
  | acceptAdmin (method : p.method = "_acceptAdmin") (pending : f.sender = c.pendingAdmin)
      (nonzero : f.sender.isZero = false) :
      Step c f isMarket p
        (succeed { c with admin := c.pendingAdmin, pendingAdmin := .zero } f "NewAdmin"
          [("newAdmin", .address c.pendingAdmin)])

variable {c : Controller} {f : Frame} {isMarket : Address → Except ChainError Abi} {p : Params}
  {o : Outcome Controller}

/-- What only the admin may ask for is refused or asked for by the admin. -/
theorem guarded_eq_ok {info : String} {act : Except ChainError (Outcome Controller)}
    (h : c.guarded f info act = .ok o) :
    c.refuse f "UNAUTHORIZED" info = .ok o ∨ f.sender = c.admin ∧ act = .ok o := by
  unfold guarded at h
  split at h
  · exact .inl h
  · rename_i admin
    exact .inr ⟨not_not.mp admin, h⟩

theorem step_of_execute (h : c.execute f isMarket p = .ok o) : c.Step f isMarket p o := by
  unfold execute at h
  split at h
  · rename_i method
    rcases guarded_eq_ok h with h | ⟨admin, h⟩
    · exact .refused (by decide) h
    obtain ⟨factor, hasFactor, h⟩ := except_bind_eq_ok.mp h
    unfold setCloseFactor at h
    split at h
    · exact .refused (by decide) h
    · rename_i bounds
      cases h
      exact .closeFactor method admin hasFactor (by omega) (by omega)
  · rename_i method
    rcases guarded_eq_ok h with h | ⟨admin, h⟩
    · exact .refused (by decide) h
    obtain ⟨market, hasMarket, h⟩ := except_bind_eq_ok.mp h
    unfold supportMarket at h
    split at h
    · exact .refused (by decide) h
    rename_i unlisted
    obtain ⟨answer, asked, h⟩ := except_bind_eq_ok.mp h
    split at h
    · cases h
    · rename_i confirmed
      cases h
      exact .support method admin hasMarket (by simpa using unlisted) asked (not_not.mp confirmed)
  · rename_i method
    rcases guarded_eq_ok h with h | ⟨admin, h⟩
    · exact .refused (by decide) h
    obtain ⟨market, hasMarket, h⟩ := except_bind_eq_ok.mp h
    obtain ⟨factor, hasFactor, h⟩ := except_bind_eq_ok.mp h
    unfold setCollateralFactor at h
    split at h
    · exact .refused (by decide) h
    rename_i bound
    split at h
    · exact .refused (by decide) h
    · rename_i old listed
      cases h
      exact .collateralFactor method admin hasMarket hasFactor (Int.not_lt.mp bound) listed
  · rename_i method
    rcases guarded_eq_ok h with h | ⟨admin, h⟩
    · exact .refused (by decide) h
    obtain ⟨pending, hasPending, h⟩ := except_bind_eq_ok.mp h
    cases h
    exact .pendingAdmin method admin hasPending
  · rename_i method
    unfold acceptAdmin at h
    split at h
    · exact .refused (by decide) h
    · rename_i pending
      obtain ⟨named, nonzero⟩ := not_or.mp pending
      cases h
      exact .acceptAdmin method (not_not.mp named) (by simpa using nonzero)
  · cases h

/-- A controller refuses with a name, or carries out. -/
theorem Step.refusal_or_completed (h : c.Step f isMarket p o) :
    (∃ error info, error ≠ "NO_ERROR" ∧ c.refuse f error info = .ok o) ∨
      Completed o.result o.logs := by
  cases h with
  | refused named refusal => exact .inl ⟨_, _, named, refusal⟩
  | closeFactor | support | collateralFactor | pendingAdmin | acceptAdmin =>
    right
    refine ⟨?_, .inl rfl⟩
    simp [succeed, setPendingAdmin, Outcome.done]

/-- A controller refuses and stays as it is, or carries out. -/
theorem Step.refused_or_completed (h : c.Step f isMarket p o) :
    o.state = c ∧ Refused o.result o.logs ∨ Completed o.result o.logs := by
  rcases h.refusal_or_completed with ⟨_, _, named, refusal⟩ | completed
  · exact .inl (Outcome.refused_spec refusal named)
  · exact .inr completed

theorem Step.kind (h : c.Step f isMarket p o) : o.state.kind = c.kind := by
  cases h with
  | refused named refusal => rw [(Outcome.refused_spec refusal named).1]
  | closeFactor | support | collateralFactor | pendingAdmin | acceptAdmin => rfl

end Controller

end MarketScript
