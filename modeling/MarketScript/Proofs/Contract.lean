import MarketScript.Chain.Contract
import MarketScript.Family

/-!
# Kinds and roles of contracts

The kind of a contract tells what role it has in the protocol, and so what can be asked of it.
-/

namespace MarketScript

/-- No kind of contracts has two roles. -/
theorem Family.eq_of_mem_kinds {f g : Family} : ∀ kind ∈ f.kinds, kind ∈ g.kinds → f = g := by
  cases f <;> cases g <;> decide

namespace Contract

variable {c : Contract}

/-- The role that a contract has in the protocol. -/
def family : Contract → Family
  | controller _ => .controller
  | market _ => .market
  | token _ => .token
  | registry _ => .registry
  | rateModel _ => .rateModel

theorem kind_mem_family (c : Contract) : c.kind ∈ c.family.kinds := by
  cases c with
  | controller c =>
    show (if c.scenario then "ControllerScenario" else "Controller") ∈ Family.controller.kinds
    split <;> decide
  | market m =>
    show (if m.scenario then "PTokenScenario" else "PErc20") ∈ Family.market.kinds
    split <;> decide
  | token t =>
    show (if t.faucet then "FaucetToken" else "Erc20") ∈ Family.token.kinds
    split <;> decide
  | registry r => exact List.mem_singleton_self _
  | rateModel r => exact List.mem_singleton_self _

/-- The kind of a contract tells its role. -/
theorem kind_mem_kinds {family : Family} :
    c.kind ∈ family.kinds ↔ c.family = family := by
  constructor
  · intro role
    exact Family.eq_of_mem_kinds c.kind c.kind_mem_family role
  · rintro rfl
    exact c.kind_mem_family

theorem family_eq_of_kind {c' : Contract} (same : c.kind = c'.kind) : c.family = c'.family := by
  apply kind_mem_kinds.mp
  rw [same]
  exact c'.kind_mem_family

/-- Only markets have the kind of a market. -/
theorem market_of_kind {m : Market} (same : c.kind = (market m).kind) : ∃ m', c = .market m' := by
  have role : c.family = .market := family_eq_of_kind same
  cases c with
  | market m' => exact ⟨m', rfl⟩
  | _ => cases role

/-- Only controllers have the kind of a controller. -/
theorem controller_of_kind {k : Controller} (same : c.kind = (controller k).kind) :
    ∃ k', c = .controller k' := by
  have role : c.family = .controller := family_eq_of_kind same
  cases c with
  | controller k' => exact ⟨k', rfl⟩
  | _ => cases role

end Contract

end MarketScript
