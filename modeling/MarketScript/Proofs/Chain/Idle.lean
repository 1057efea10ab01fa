import MarketScript.Proofs.Chain.Run

/-!
# Chains that list no market

As long as no controller is told to list a market, none is listed.  Then no market serves anybody:
every mint is refused, and no market has a supply.
-/

namespace MarketScript

/-- Nothing is listed by the controller, and nobody holds anything of the market. -/
def Contract.Idle : Contract → Prop
  | .controller c => c.markets = .empty
  | .market m => m.totalSupply = 0 ∧ m.balances = .empty
  | _ => True

theorem Contract.idle_of_create {kind : String} {deployer : Address} {p : Params} {c : Contract}
    (made : Contract.create kind deployer p = .ok c) : c.Idle := by
  cases c with
  | controller c =>
    obtain ⟨scenario, rfl⟩ := Contract.controller_of_create made
    rfl
  | market m =>
    obtain ⟨supply, balances, -⟩ := Contract.fresh_of_create made
    exact ⟨supply, balances⟩
  | token | registry | rateModel => trivial

theorem Controller.isListed_of_empty {c : Controller} (idle : c.markets = .empty)
    (market : Address) : c.isListed market = false := by
  rw [isListed, idle]
  rfl

/-- Only the message that lists a market lists one. -/
theorem Controller.Step.idle {c : Controller} {f : Frame}
    {isMarket : Address → Except ChainError Abi} {p : Params} {o : Outcome Controller}
    (step : c.Step f isMarket p o) (other : p.method ≠ "_supportMarket")
    (idle : c.markets = .empty) : o.state.markets = .empty := by
  cases step with
  | refused named refusal =>
    rw [(Outcome.refused_spec refusal named).1]
    exact idle
  | support method => exact absurd method other
  | collateralFactor _ _ _ _ _ listed =>
    rw [idle] at listed
    cases listed
  | closeFactor | pendingAdmin | acceptAdmin => exact idle

namespace Ledger

variable {l after : Ledger} {sender target : Address} {p : Params} {result : Abi} {logs : List Log}

theorem not_lists_of_idle (idle : l.All Contract.Idle) (controller market : Address) :
    ¬ l.Lists controller market := by
  rintro ⟨c, here, listed⟩
  rw [Controller.isListed_of_empty (idle _ _ here)] at listed
  cases listed

theorem Step.idle (step : l.Step sender target p after result logs)
    (other : p.method ≠ "_supportMarket") (idle : l.All Contract.Idle) :
    after.All Contract.Idle := by
  cases step with
  | token => exact (all_insert_iff idle).mpr trivial
  | controller here step => exact (all_insert_iff idle).mpr (step.idle other (idle _ _ here))
  | mintRefused | redeemRefused | redeemTooMuch | redeemNoCash => exact idle
  | mint serves | redeem serves => exact absurd serves.listed (not_lists_of_idle idle _ _)

/-- Where nothing is listed, no contract carries out a mint. -/
theorem Step.mint_refused (step : l.Step sender target p after result logs)
    (mints : p.method = "mint") (idle : l.All Contract.Idle) : Refused result logs := by
  cases step with
  | token here step =>
    cases step with
    | transfer method | transferFrom method | approve method | allocateTo method =>
      simp [mints] at method
  | controller here step =>
    cases step with
    | refused named refusal => exact (Outcome.refused_spec refusal named).2
    | closeFactor method | support method | collateralFactor method | pendingAdmin method
    | acceptAdmin method => simp [mints] at method
  | mintRefused _ _ _ _ _ refusal => exact (Outcome.refused_spec refusal (by decide)).2
  | redeemRefused _ method | redeemTooMuch _ method | redeemNoCash _ method =>
    simp [mints] at method
  | mint serves | redeem serves => exact absurd serves.listed (not_lists_of_idle idle _ _)

end Ledger

/-- The request is to list a market. -/
def Request.Supports : Request → Prop
  | .deploy _ _ _ => False
  | .send _ _ method _ => method = "_supportMarket"

namespace Chain

variable {c : Chain}

/-- Whatever else a chain is asked for, it lists no market. -/
theorem idle_after {r : Request} (other : ¬ r.Supports) (idle : c.contracts.All Contract.Idle) :
    (c.after r).contracts.All Contract.Idle := by
  have change := change_after c r
  generalize (c.after r).contracts = l at change
  cases change with
  | none => exact idle
  | deployed creation => exact (Ledger.all_insert_iff idle).mpr (Contract.idle_of_create creation)
  | sent step => exact step.idle other idle

theorem mint_refused (idle : c.contracts.All Contract.Idle) (sender target : Address)
    (params : List Abi) : c.Refuses (.send sender target "mint" params) := by
  intro receipt answer
  rcases c.send_cases sender target "mint" params with ⟨e, failed, -⟩ | ⟨r, carriedOut, step⟩
  · rw [Chain.answer, failed] at answer
    cases answer
  · rw [Chain.answer, carriedOut] at answer
    cases answer
    obtain ⟨log, _, logs, failure, -⟩ := step.mint_refused rfl idle
    simp [Receipt.log?, logs, failure]

end Chain

end MarketScript
