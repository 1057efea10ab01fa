import MarketScript.Proofs.Chain.Run
import MarketScript.Proofs.Ledger.Holdings

/-!
# Negative holdings

Amounts are whole numbers of either sign, and no contract looks at the sign.  Along a run nothing
becomes negative exactly as long as no message overdraws; without negative amounts none does.
-/

namespace MarketScript

namespace Chain

/-- A request that is a message and overdraws. -/
def Overdraws (c : Chain) : Request → Prop
  | .deploy _ _ _ => False
  | .send sender target method args => c.contracts.Overdraws sender target ⟨method, args⟩

variable {c : Chain}

theorem nonNeg_after_iff (balanced : c.contracts.All Contract.Balanced)
    (h : c.contracts.All Contract.NonNeg) (r : Request) :
    (c.after r).contracts.All Contract.NonNeg ↔ ¬ c.Overdraws r := by
  cases r with
  | deploy sender kind args =>
    refine iff_of_true (all_after_deploy h fun made creation => ?_) not_false
    exact (Contract.fresh_of_create creation).nonNeg
  | send sender target method args =>
    simp only [after, send, Overdraws]
    cases sent : c.contracts.send sender target ⟨method, args⟩ with
    | error e =>
      refine iff_of_true h fun overdraws => ?_
      obtain ⟨_, _, _, carriedOut⟩ := Ledger.send_of_overdraws balanced h overdraws
      rw [sent] at carriedOut
      cases carriedOut
    | ok found => exact (Ledger.step_of_send sent).nonNeg_iff balanced h

theorem not_overdraws (balanced : c.contracts.All Contract.Balanced)
    (h : c.contracts.All Contract.NonNeg) {r : Request} (plain : r.Plain) : ¬ c.Overdraws r := by
  cases r with
  | deploy => exact not_false
  | send sender target method args => exact Ledger.not_overdraws balanced h plain

/-- Without negative amounts nothing becomes negative. -/
theorem nonNeg_ofRun (network : String) {rs : List Request} (plain : ∀ r ∈ rs, r.Plain) :
    (ofRun network rs).contracts.All Contract.NonNeg := by
  induction rs using List.reverseRecOn with
  | nil => exact Ledger.all_empty
  | append_singleton rs r ih =>
    obtain ⟨earlier, now⟩ := List.forall_mem_append.mp plain
    have h := ih earlier
    have balanced := balanced_ofRun network rs
    rw [ofRun_concat, nonNeg_after_iff balanced h]
    exact not_overdraws balanced h (now r List.mem_cons_self)

/-- Nothing is negative in any state of a run exactly if no request of the run overdraws in the
    state that it meets. -/
theorem nonNeg_ofRun_iff (network : String) (rs : List Request) :
    (∀ past, past <+: rs → (ofRun network past).contracts.All Contract.NonNeg) ↔
      ∀ past r, past ++ [r] <+: rs → ¬ (ofRun network past).Overdraws r := by
  constructor
  · intro all past r along
    have before := all past ((List.prefix_append past [r]).trans along)
    rw [← nonNeg_after_iff (balanced_ofRun network past) before, ← ofRun_concat]
    exact all _ along
  · intro none past along
    induction past using List.reverseRecOn with
    | nil => exact Ledger.all_empty
    | append_singleton past r ih =>
      have before := ih ((List.prefix_append past [r]).trans along)
      rw [ofRun_concat, nonNeg_after_iff (balanced_ofRun network past) before]
      exact none past r along

/-- A transfer of a negative amount from an account without tokens leaves another with less than
    nothing. -/
theorem transfer_negative_amount :
    ¬ ∀ (network : String) (rs : List Request),
      (ofRun network rs).contracts.All Contract.NonNeg := by
  intro all
  let deploy : Request := .deploy ⟨1⟩ "FaucetToken" [.string "Zero", .string "ZRX", .number 18]
  have deployed : (ofRun "development" [deploy]).contracts.get? (contractAddress ⟨1⟩ 0) = some
      (.token { faucet := true, name := "Zero", symbol := "ZRX", decimals := 18 }) :=
    Store.get?_insert_self .empty (contractAddress ⟨1⟩ 0) _
  have after := all "development"
    ([deploy] ++ [.send ⟨1⟩ (contractAddress ⟨1⟩ 0) "transfer" [.address ⟨2⟩, .number (-5)]])
  rw [ofRun_concat, nonNeg_after_iff (balanced_ofRun _ _) (all _ _)] at after
  apply after
  exact .inl ⟨_, deployed, ⟨2⟩, -5, rfl, rfl, by decide, by decide⟩

end Chain

end MarketScript
