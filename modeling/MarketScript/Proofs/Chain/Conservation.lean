import MarketScript.Proofs.Chain.Solvency

/-!
# Conservation along runs

Tokens are made and destroyed together with the supply, and every other message only moves them.  So
the supply of a token or a market never drifts from what its holders have, not even with negative
amounts.
-/

namespace MarketScript

namespace Chain

/-- After every run the supply of a token and of a market is the sum of all recorded balances. -/
theorem supply_eq_total (network : String) (rs : List Request) (address : Address) :
    (∀ t, (ofRun network rs).contracts.get? address = some (.token t) →
      t.totalSupply = t.balances.total) ∧
    ∀ m, (ofRun network rs).contracts.get? address = some (.market m) →
      m.totalSupply = m.balances.total := by
  have balanced := balanced_ofRun network rs
  constructor
  · intro t here
    have : t.Balanced := balanced address _ here
    exact this
  · intro m here
    have : m.Balanced := balanced address _ here
    exact this.supply

/-- The market tokens that `lending` makes are all in balances. -/
theorem lending_in_balances :
    ∃ m, (ofRun "development" lending).contracts.get? lendingMarket = some (.market m) ∧
      m.balances.total = 2333 := by
  obtain ⟨m, here, supply⟩ := lending_market
  refine ⟨m, here, ?_⟩
  rw [← (supply_eq_total "development" lending lendingMarket).2 m here]
  exact supply

end Chain

end MarketScript
