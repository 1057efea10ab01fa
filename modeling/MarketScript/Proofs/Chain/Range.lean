import MarketScript.Proofs.Chain.Run
import MarketScript.Proofs.Controller.Range

/-!
# Factors along runs

Whatever is asked of a chain, no factor of a controller becomes too large and no close factor too
small.  A collateral factor becomes negative exactly if an admin makes it so.
-/

namespace MarketScript

namespace Chain

/-- A request that is a message and undercuts. -/
def Undercuts (c : Chain) : Request → Prop
  | .deploy _ _ _ => False
  | .send sender target method args => c.contracts.Undercuts sender target ⟨method, args⟩

theorem capped_ofRun (network : String) (rs : List Request) :
    (ofRun network rs).contracts.All Contract.Capped := by
  refine ofRun_induction Ledger.all_empty ?_ network rs
  intro c r l change h
  cases change with
  | none => exact h
  | deployed creation =>
    exact (Ledger.all_insert_iff h).mpr (Contract.inRange_of_create creation).capped
  | sent step => exact step.capped h

theorem inRange_after_iff (c : Chain) (r : Request) (h : c.contracts.All Contract.InRange) :
    (c.after r).contracts.All Contract.InRange ↔ ¬ c.Undercuts r := by
  cases r with
  | deploy sender kind args =>
    exact iff_of_true (all_after_deploy h fun made creation => Contract.inRange_of_create creation)
      not_false
  | send sender target method args =>
    constructor
    · intro after undercuts
      obtain ⟨l, result, logs, sent, outside⟩ := Ledger.send_of_undercuts undercuts
      simp only [Chain.after, send, sent] at after
      exact outside after
    · intro fits
      have change := c.change_after (.send sender target method args)
      generalize (c.after (.send sender target method args)).contracts = l at change ⊢
      cases change with
      | none => exact h
      | sent step => exact step.inRange h fits

/-- After every run the close factor of a controller is not set or in its range, and no collateral
    factor is above its range.  All factors are in their ranges in all states of a run exactly if no
    request of the run gives a listed market a negative factor. -/
theorem factors_in_range_iff (network : String) (rs : List Request) :
    (∀ address c, (ofRun network rs).contracts.get? address = some (.controller c) →
      (c.closeFactor = 0 ∨ 5 * 10 ^ 16 ≤ c.closeFactor ∧ c.closeFactor ≤ 9 * 10 ^ 17) ∧
        ∀ market factor, c.markets.get? market = some factor → factor ≤ 9 * 10 ^ 17) ∧
    ((∀ past, past <+: rs → (ofRun network past).contracts.All Contract.InRange) ↔
      ∀ past r, past ++ [r] <+: rs → ¬ (ofRun network past).Undercuts r) := by
  constructor
  · intro address c here
    have capped : c.Capped := capped_ofRun network rs address _ here
    exact ⟨capped.closeFactor, capped.collateralFactor⟩
  · exact ofRun_prefixes_iff network Ledger.all_empty inRange_after_iff rs

section Discount

/-- An account that does everything in `discount`. -/
def risky : Address := ⟨1⟩

/-- The controller that `discount` makes. -/
def riskyController : Address := contractAddress risky 0

/-- A run that lists a market and gives it a negative collateral factor. -/
def discount : List Request :=
  let market := contractAddress risky 1
  [.deploy risky "Controller" [],
    .deploy risky "PErc20" [.address .zero, .address .zero, .address .zero, .address .zero,
      .number 1000000000000000000, .number 0, .string "Pie", .string "pZRX", .number 8],
    .send risky riskyController "_setCloseFactor" [.number 500000000000000000],
    .send risky riskyController "_supportMarket" [.address market],
    .send risky riskyController "_setCollateralFactor" [.address market, .number (-1)]]

/-- What the run leaves: half as the close factor, and less than nothing as a collateral factor. -/
theorem discount_controller :
    ∃ c, (ofRun "development" discount).contracts.get? riskyController = some (.controller c) ∧
      c.closeFactor = 500000000000000000 ∧ c.markets.get? (contractAddress risky 1) = some (-1) := by
  have left : (((ofRun "development" discount).contracts.get? riskyController).bind
      Contract.asController?).map (fun c =>
        (c.closeFactor, c.markets.get? (contractAddress risky 1))) =
      some (500000000000000000, some (-1)) := by
    decide +kernel
  obtain ⟨c, isController, left⟩ := Option.map_eq_some_iff.mp left
  obtain ⟨contract, found, isController⟩ := Option.bind_eq_some_iff.mp isController
  obtain rfl := Contract.asController?_eq_some.mp isController
  simp only [Prod.mk.injEq] at left
  exact ⟨c, found, left⟩

/-- The close factor of the run is in its range, and its collateral factor not above its own. -/
theorem discount_capped :
    ∃ c, (ofRun "development" discount).contracts.get? riskyController = some (.controller c) ∧
      c.closeFactor = 500000000000000000 ∧ 5 * 10 ^ 16 ≤ c.closeFactor ∧
      c.closeFactor ≤ 9 * 10 ^ 17 := by
  obtain ⟨c, here, closeFactor, -⟩ := discount_controller
  refine ⟨c, here, closeFactor, ?_⟩
  have range := ((factors_in_range_iff "development" discount).1 riskyController c here).1
  rcases range with unset | range
  · omega
  · exact range

/-- An admin can give a listed market a negative collateral factor. -/
theorem negative_collateral_factor :
    ¬ ∀ (network : String) (rs : List Request),
      (ofRun network rs).contracts.All Contract.InRange := by
  intro all
  obtain ⟨c, here, -, listed⟩ := discount_controller
  have range : c.InRange := all "development" discount riskyController _ here
  have nonneg := range.nonneg _ _ listed
  omega

end Discount

end Chain

end MarketScript
