import MarketScript.Proofs.Ledger.Step

/-!
# Listed markets

A controller asks a contract whether it is a market before it lists it, and only markets say so.
Whatever a message comes to, what is listed after it was listed before or is a market.
-/

namespace MarketScript

namespace Ledger

/-- Every market that a controller lists is one. -/
def Genuine (l : Ledger) : Prop :=
  ∀ controller market, l.Lists controller market → ∃ m, l.get? market = some (.market m)

theorem genuine_empty : Genuine .empty := by
  rintro controller market ⟨c, found, -⟩
  cases found

variable {l after : Ledger} {sender target : Address} {p : Params} {result : Abi} {logs : List Log}

/-- Nothing but a market answers whether it is one. -/
theorem market_of_view {address : Address} {answer : Abi}
    (asked : l.view address ⟨"isPToken", []⟩ = .ok answer) :
    ∃ m, l.get? address = some (.market m) := by
  obtain ⟨c, here, told⟩ := except_bind_eq_ok.mp asked
  cases c with
  | market m => exact ⟨m, contractAt_eq_ok.mp here⟩
  | controller c => simp [Contract.read, Controller.read] at told
  | token t => simp [Contract.read, Erc20.read] at told
  | registry r => simp [Contract.read, Registry.read] at told
  | rateModel r => simp [Contract.read, RateModel.read] at told

/-- A controller lists what it has listed before, or what says that it is a market. -/
theorem isListed_of_step {c : Controller} {f : Frame} {isMarket : Address → Except ChainError Abi}
    {o : Outcome Controller} (step : c.Step f isMarket p o) {market : Address}
    (listed : o.state.isListed market = true) :
    c.isListed market = true ∨ ∃ answer, isMarket market = .ok answer := by
  cases step with
  | refused named refusal =>
    rw [(Outcome.refused_spec refusal named).1] at listed
    exact .inl listed
  | closeFactor | pendingAdmin | acceptAdmin => exact .inl listed
  | @support other answer _ _ _ _ asked =>
    by_cases same : other = market
    · exact .inr ⟨answer, same ▸ asked⟩
    · left
      have kept : (c.markets.insert other 0).contains market = true := listed
      rwa [Store.contains, Store.get?_insert, if_neg same] at kept
  | @collateralFactor other factor old _ _ _ _ _ before =>
    left
    by_cases same : other = market
    · rw [Controller.isListed, Store.contains, ← same, before]
      rfl
    · have kept : (c.markets.insert other factor).contains market = true := listed
      rwa [Store.contains, Store.get?_insert, if_neg same] at kept

/-- What is listed after a message was listed before, or it is a market. -/
theorem Step.lists (step : l.Step sender target p after result logs) {controller market : Address}
    (lists : after.Lists controller market) :
    l.Lists controller market ∨ ∃ m, l.get? market = some (.market m) := by
  obtain ⟨k, there, listed⟩ := lists
  cases step with
  | token here step =>
    have before := get?_of_insert there (by simp [Contract.family])
    exact .inl ⟨k, before, listed⟩
  | mintRefused | redeemRefused | redeemTooMuch | redeemNoCash => exact .inl ⟨k, there, listed⟩
  | mint serves | redeem serves =>
    have between := get?_of_insert there (by simp [Contract.family])
    have before := get?_of_insert between (by simp [Contract.family])
    exact .inl ⟨k, before, listed⟩
  | @controller c o here step =>
    by_cases same : target = controller
    · subst same
      rw [Store.get?_insert_self] at there
      cases there
      rcases isListed_of_step step listed with before | ⟨answer, asked⟩
      · exact .inl ⟨c, here, before⟩
      · obtain ⟨m, found⟩ := market_of_view asked
        exact .inr ⟨m, (get?_erase_eq_some.mp found).2⟩
    · rw [Store.get?_insert, if_neg same] at there
      exact .inl ⟨k, there, listed⟩

end Ledger

end MarketScript
