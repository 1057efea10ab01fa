import MarketScript.Proofs.Chain.Run

/-!
# Atomicity of messages

A message to a chain is undone, refused with codes, or carried out.  Only one that is carried out
changes contracts, and nothing but the sender's count of transactions changes besides.
-/

namespace MarketScript

/-- What can become of a message. -/
inductive Fate where
  /-- It ends in an error. -/
  | undone
  /-- The contract refuses it with codes. -/
  | refused
  | completed
deriving DecidableEq

/-- Whether what a chain did with a message is of one kind. -/
def Fate.Fits (before : Chain) (sent : Except ChainError Receipt × Chain) : Fate → Prop
  | undone => (∃ e, sent.1 = .error e) ∧ sent.2.contracts = before.contracts
  | refused =>
    ∃ r, sent.1 = .ok r ∧ Refused r.returnValue r.logs ∧ sent.2.contracts = before.contracts
  | completed => ∃ r, sent.1 = .ok r ∧ Completed r.returnValue r.logs

namespace Fate

variable {fate : Fate} {before after : Chain}

theorem Fits.of_error {e : ChainError} (fits : fate.Fits before (.error e, after)) :
    fate = .undone := by
  cases fate with
  | undone => rfl
  | refused | completed => obtain ⟨_, answer, _⟩ := fits; cases answer

/-- A receipt that tells a failure completes nothing. -/
theorem Fits.of_receipt {r : Receipt} (fits : fate.Fits before (.ok r, after)) :
    fate = .completed ∧ Completed r.returnValue r.logs ∨
      fate = .refused ∧ ¬ Completed r.returnValue r.logs := by
  cases fate with
  | undone => obtain ⟨⟨_, answer⟩, _⟩ := fits; cases answer
  | refused =>
    obtain ⟨_, answer, refused, _⟩ := fits
    cases answer
    exact .inr ⟨rfl, refused.not_completed⟩
  | completed =>
    obtain ⟨_, answer, completed⟩ := fits
    cases answer
    exact .inl ⟨rfl, completed⟩

end Fate

namespace Chain

/-- Some kind always fits. -/
theorem fate_exists (c : Chain) (sender target : Address) (method : String) (args : List Abi) :
    ∃ fate : Fate, fate.Fits c (c.send sender target method args) := by
  rcases c.send_cases sender target method args with ⟨e, failed, same⟩ | ⟨r, answer, step⟩
  · exact ⟨.undone, ⟨e, failed⟩, same⟩
  · rcases step.refused_or_completed with ⟨same, refused⟩ | completed
    · exact ⟨.refused, r, answer, refused, same⟩
    · exact ⟨.completed, r, answer, completed⟩

/-- No two kinds fit. -/
theorem fate_unique {before : Chain} {sent : Except ChainError Receipt × Chain} {a b : Fate}
    (ha : a.Fits before sent) (hb : b.Fits before sent) : a = b := by
  obtain ⟨answer, after⟩ := sent
  cases answer with
  | error e => rw [ha.of_error, hb.of_error]
  | ok r =>
    rcases ha.of_receipt with ⟨rfl, done⟩ | ⟨rfl, failed⟩
    · rcases hb.of_receipt with ⟨rfl, -⟩ | ⟨rfl, failed⟩
      · rfl
      · exact absurd done failed
    · rcases hb.of_receipt with ⟨rfl, done⟩ | ⟨rfl, -⟩
      · exact absurd done failed
      · rfl

/-- Every message has one fate.  Whatever it is, the network stays and the sender alone has sent one
    transaction more. -/
theorem send_atomic (c : Chain) (sender target : Address) (method : String) (args : List Abi) :
    (∃! fate : Fate, fate.Fits c (c.send sender target method args)) ∧
      (c.send sender target method args).2.network = c.network ∧
      ∀ account, (c.send sender target method args).2.nonceOf account =
        c.nonceOf account + if account = sender then 1 else 0 := by
  refine ⟨?_, ?_, ?_⟩
  · obtain ⟨fate, fits⟩ := c.fate_exists sender target method args
    exact ⟨fate, fits, fun other otherFits => fate_unique otherFits fits⟩
  · unfold send
    simp only
    split <;> rfl
  · exact fun account => c.nonceOf_send sender target account method args

end Chain

end MarketScript
