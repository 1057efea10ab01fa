import MarketScript.Proofs.Ledger.Supply

/-!
# The range of a controller's factors

Every message that sets a factor is tested against a largest one, and the close factor against a
least one too.  The sign of a collateral factor is not looked at.
-/

namespace MarketScript

namespace Controller

/-- No factor is too large, and the close factor, once set, is not too small. -/
structure Capped (c : Controller) : Prop where
  closeFactor : c.closeFactor = 0 ∨ 5 * 10 ^ 16 ≤ c.closeFactor ∧ c.closeFactor ≤ 9 * 10 ^ 17
  collateralFactor : ∀ market factor, c.markets.get? market = some factor → factor ≤ 9 * 10 ^ 17

/-- Every factor is in its range. -/
structure InRange (c : Controller) : Prop extends c.Capped where
  nonneg : ∀ market factor, c.markets.get? market = some factor → 0 ≤ factor

/-- A message that gives a listed market a negative factor, from the one who may do so. -/
def Undercuts (c : Controller) (sender : Address) (p : Params) : Prop :=
  p.method = "_setCollateralFactor" ∧ sender = c.admin ∧
    ∃ market factor, p.address 0 = .ok market ∧ p.number 1 = .ok factor ∧ factor < 0 ∧
      c.isListed market = true

theorem closeFactorMin_eq : closeFactorMin = 5 * 10 ^ 16 := by decide

theorem closeFactorMax_eq : closeFactorMax = 9 * 10 ^ 17 := by decide

theorem collateralFactorMax_eq : collateralFactorMax = 9 * 10 ^ 17 := by decide

/-- A controller as it is made: nothing is set or listed. -/
theorem InRange.of_unset {c : Controller} (factor : c.closeFactor = 0)
    (markets : c.markets = .empty) : c.InRange := by
  refine ⟨⟨.inl factor, ?_⟩, ?_⟩
  · intro market factor found
    simp [markets] at found
  · intro market factor found
    simp [markets] at found

variable {c : Controller} {f : Frame} {isMarket : Address → Except ChainError Abi} {p : Params}
  {o : Outcome Controller}

/-- A property of all listed factors after one of them has been set. -/
theorem forall_markets_insert {P : Int → Prop}
    (h : ∀ market factor, c.markets.get? market = some factor → P factor) (market : Address)
    (factor : Int) :
    (∀ other old, (c.markets.insert market factor).get? other = some old → P old) ↔ P factor := by
  constructor
  · intro all
    exact all market factor (Store.get?_insert_self ..)
  · intro new other old found
    rw [Store.get?_insert] at found
    split at found
    · cases found
      exact new
    · exact h other old found

theorem Step.capped (step : c.Step f isMarket p o) (h : c.Capped) : o.state.Capped := by
  cases step with
  | refused named refusal =>
    rw [(Outcome.refused_spec refusal named).1]
    exact h
  | closeFactor method admin hasFactor atLeast atMost =>
    rw [closeFactorMin_eq] at atLeast
    rw [closeFactorMax_eq] at atMost
    exact ⟨.inr ⟨atLeast, atMost⟩, h.collateralFactor⟩
  | support => exact ⟨h.closeFactor, (forall_markets_insert h.collateralFactor _ _).mpr (by decide)⟩
  | collateralFactor method admin hasMarket hasFactor atMost listed =>
    rw [collateralFactorMax_eq] at atMost
    exact ⟨h.closeFactor, (forall_markets_insert h.collateralFactor _ _).mpr atMost⟩
  | pendingAdmin | acceptAdmin => exact ⟨h.closeFactor, h.collateralFactor⟩

theorem undercuts_iff {sender market : Address} {factor old : Int}
    (method : p.method = "_setCollateralFactor") (admin : sender = c.admin)
    (hasMarket : p.address 0 = .ok market) (hasFactor : p.number 1 = .ok factor)
    (listed : c.markets.get? market = some old) : c.Undercuts sender p ↔ factor < 0 := by
  constructor
  · rintro ⟨-, -, _, _, -, hasFactor', negative, -⟩
    cases hasFactor.symm.trans hasFactor'
    exact negative
  · intro negative
    have isListed : c.isListed market = true := by simp [isListed, Store.contains, listed]
    exact ⟨method, admin, market, factor, hasMarket, hasFactor, negative, isListed⟩

theorem Step.inRange (step : c.Step f isMarket p o) (h : c.InRange)
    (fits : ¬ c.Undercuts f.sender p) : o.state.InRange := by
  refine ⟨step.capped h.toCapped, ?_⟩
  cases step with
  | refused named refusal =>
    rw [(Outcome.refused_spec refusal named).1]
    exact h.nonneg
  | support => exact (forall_markets_insert h.nonneg _ _).mpr le_rfl
  | collateralFactor method admin hasMarket hasFactor atMost listed =>
    rw [undercuts_iff method admin hasMarket hasFactor listed] at fits
    exact (forall_markets_insert h.nonneg _ _).mpr (Int.not_lt.mp fits)
  | closeFactor | pendingAdmin | acceptAdmin => exact h.nonneg

/-- Nothing stands in the way of a negative factor. -/
theorem execute_of_undercuts (undercuts : c.Undercuts f.sender p) :
    ∃ o, c.execute f isMarket p = .ok o ∧ ¬ o.state.InRange := by
  obtain ⟨method, admin, market, factor, hasMarket, hasFactor, negative, listed⟩ := undercuts
  obtain ⟨old, found⟩ := Option.isSome_iff_exists.mp listed
  have small : ¬ collateralFactorMax < factor := by
    rw [collateralFactorMax_eq]
    omega
  have carriedOut : c.execute f isMarket p =
      .ok (succeed { c with markets := c.markets.insert market factor } f "NewCollateralFactor"
        [("pToken", .address market), ("oldCollateralFactorMantissa", .number old),
          ("newCollateralFactorMantissa", .number factor)]) := by
    simp [execute, method, guarded, admin, hasMarket, hasFactor, setCollateralFactor, small, found]
  refine ⟨_, carriedOut, fun range => ?_⟩
  have := range.nonneg market factor (Store.get?_insert_self ..)
  omega

end Controller

namespace Contract

/-- No factor of a controller is too large. -/
def Capped : Contract → Prop
  | .controller c => c.Capped
  | _ => True

/-- Every factor of a controller is in its range. -/
def InRange : Contract → Prop
  | .controller c => c.InRange
  | _ => True

theorem InRange.capped {c : Contract} (h : c.InRange) : c.Capped := by
  cases c with
  | controller c =>
    have range : c.InRange := h
    exact range.toCapped
  | market | token | registry | rateModel => trivial

/-- A new contract has its factors in their ranges. -/
theorem inRange_of_create {kind : String} {deployer : Address} {p : Params} {c : Contract}
    (h : create kind deployer p = .ok c) : c.InRange := by
  cases c with
  | controller c =>
    obtain ⟨scenario, rfl⟩ := controller_of_create h
    exact Controller.InRange.of_unset rfl rfl
  | market | token | registry | rateModel => trivial

end Contract

namespace Ledger

/-- A message to a controller that undercuts. -/
def Undercuts (l : Ledger) (sender target : Address) (p : Params) : Prop :=
  ∃ c, l.get? target = some (.controller c) ∧ c.Undercuts sender p

variable {l after : Ledger} {sender target : Address} {p : Params} {result : Abi}
  {logs : List Log}

theorem Step.capped (step : l.Step sender target p after result logs)
    (h : l.All Contract.Capped) : after.All Contract.Capped := by
  cases step with
  | controller here step => exact (all_insert_iff h).mpr (step.capped (h _ _ here))
  | token => exact (all_insert_iff h).mpr trivial
  | mintRefused | redeemRefused | redeemTooMuch | redeemNoCash => exact h
  | mint serves | redeem serves =>
    exact (all_insert_insert_iff h serves.apart.symm).mpr ⟨trivial, trivial⟩

theorem Step.inRange (step : l.Step sender target p after result logs)
    (h : l.All Contract.InRange) (fits : ¬ l.Undercuts sender target p) :
    after.All Contract.InRange := by
  cases step with
  | @controller c o here step =>
    have range : c.InRange := h _ _ here
    exact (all_insert_iff h).mpr (step.inRange range fun undercuts => fits ⟨c, here, undercuts⟩)
  | token => exact (all_insert_iff h).mpr trivial
  | mintRefused | redeemRefused | redeemTooMuch | redeemNoCash => exact h
  | mint serves | redeem serves =>
    exact (all_insert_insert_iff h serves.apart.symm).mpr ⟨trivial, trivial⟩

/-- A message that undercuts is carried out and leaves a factor out of its range. -/
theorem send_of_undercuts (undercuts : l.Undercuts sender target p) :
    ∃ after result logs, l.send sender target p = .ok (after, result, logs) ∧
      ¬ after.All Contract.InRange := by
  obtain ⟨c, here, undercuts⟩ := undercuts
  obtain ⟨o, carriedOut, outside⟩ : ∃ o, c.execute ⟨target, sender⟩
      (fun a => view (l.erase target) a ⟨"isPToken", []⟩) p = .ok o ∧ ¬ o.state.InRange :=
    Controller.execute_of_undercuts undercuts
  have sent : l.send sender target p =
      .ok (l.insert target (.controller o.state), o.result, o.logs) := by
    simp [send, contractAt_eq_ok.mpr here, Contract.execute, carriedOut]
  refine ⟨_, _, _, sent, fun all => outside ?_⟩
  exact all target (.controller o.state) (Store.get?_insert_self ..)

end Ledger

end MarketScript
