import MarketScript.Proofs.Chain.Run
import MarketScript.Proofs.Ledger.Consent

/-!
# Consent along runs

Whatever has been asked of a chain before, a message without negative amounts takes from nobody who
has not agreed to it.
-/

namespace MarketScript

namespace Chain

/-- A token is still there after a message, and it has changed only by what it has heard. -/
theorem send_token_at (c : Chain) (sender target : Address) (method : String) (args : List Abi)
    {address : Address} {t : Erc20} (here : c.contracts.get? address = some (.token t)) :
    ∃ t', (c.send sender target method args).2.contracts.get? address = some (.token t') ∧
      (t' = t ∨ ∃ f heard o, c.contracts.Reaches sender target ⟨method, args⟩ address f heard ∧
        t.Step f heard o ∧ t' = o.state) := by
  rcases c.send_cases sender target method args with ⟨e, -, same⟩ | ⟨r, -, step⟩
  · exact ⟨t, by rw [same, here], .inl rfl⟩
  · exact step.token_at here

/-- After any run a message without negative amounts makes a balance of a token smaller only if its
    owner sends the tokens or pays them into a market over the token, if the sender spends them from
    an allowance that loses as much, or if the owner is a market that pays them out.  It changes an
    allowance only if the owner approves it, or makes it smaller by spending from the owner's
    tokens. -/
theorem tokens_move_by_consent (network : String) (rs : List Request) {sender target : Address}
    {method : String} {args : List Abi} (plain : (Request.send sender target method args).Plain)
    {address : Address} {t : Erc20}
    (here : (ofRun network rs).contracts.get? address = some (.token t)) :
    ∃ t', ((ofRun network rs).send sender target method args).2.contracts.get? address =
        some (.token t') ∧
      (∀ owner, t'.balanceOf owner < t.balanceOf owner →
        (ofRun network rs).contracts.Debit sender target ⟨method, args⟩ address owner t t') ∧
      ∀ owner spender, t'.allowance owner spender ≠ t.allowance owner spender →
        (ofRun network rs).contracts.Regrant sender target ⟨method, args⟩ address owner spender
          t t' := by
  obtain ⟨t', there, rfl | ⟨f, heard, o, reaches, step, rfl⟩⟩ :=
    (ofRun network rs).send_token_at sender target method args here
  · refine ⟨t', there, ?_, ?_⟩
    · intro owner less
      exact absurd less (lt_irrefl _)
    · intro owner spender changed
      exact absurd rfl changed
  · have amounts := reaches.plain (balanced_ofRun network rs) plain
    refine ⟨o.state, there, ?_, ?_⟩
    · intro owner less
      exact reaches.debit step amounts less
    · intro owner spender changed
      exact reaches.regrant step amounts changed

section Spending

/-- The token that `granting` makes. -/
def grantedToken : Address := contractAddress ⟨1⟩ 0

/-- A run that leaves an account with ten tokens and another with the right to spend seven of
    them. -/
def granting : List Request :=
  [.deploy ⟨1⟩ "FaucetToken" [.string "Zero", .string "ZRX", .number 18],
    .send ⟨1⟩ grantedToken "allocateTo" [.address ⟨1⟩, .number 10],
    .send ⟨1⟩ grantedToken "approve" [.address ⟨2⟩, .number 7]]

/-- The token of the run, with what its owner has and the other account may spend. -/
theorem granting_token :
    ∃ t, (ofRun "development" granting).contracts.get? grantedToken = some (.token t) ∧
      t.balanceOf ⟨1⟩ = 10 ∧ t.allowance ⟨1⟩ ⟨2⟩ = 7 := by
  have left : (((ofRun "development" granting).contracts.get? grantedToken).bind
      Contract.asToken?).map (fun t => (t.balanceOf ⟨1⟩, t.allowance ⟨1⟩ ⟨2⟩)) = some (10, 7) := by
    decide +kernel
  obtain ⟨t, isToken, left⟩ := Option.map_eq_some_iff.mp left
  obtain ⟨c, found, isToken⟩ := Option.bind_eq_some_iff.mp isToken
  obtain rfl := Contract.asToken?_eq_some.mp isToken
  simp only [Prod.mk.injEq] at left
  exact ⟨t, found, left⟩

/-- When the other account moves five of the tokens, the balance and the allowance lose five. -/
theorem granting_spends_allowance :
    ∃ t t', (ofRun "development" granting).contracts.get? grantedToken = some (.token t) ∧
      ((ofRun "development" granting).send ⟨2⟩ grantedToken "transferFrom"
        [.address ⟨1⟩, .address ⟨3⟩, .number 5]).2.contracts.get? grantedToken =
          some (.token t') ∧
      t.balanceOf ⟨1⟩ = 10 ∧ t'.balanceOf ⟨1⟩ = 5 ∧ t'.allowance ⟨1⟩ ⟨2⟩ = 2 ∧
      (ofRun "development" granting).contracts.Debit ⟨2⟩ grantedToken
        ⟨"transferFrom", [.address ⟨1⟩, .address ⟨3⟩, .number 5]⟩ grantedToken ⟨1⟩ t t' := by
  have left : (((((ofRun "development" granting).send ⟨2⟩ grantedToken "transferFrom"
      [.address ⟨1⟩, .address ⟨3⟩, .number 5]).2.contracts.get? grantedToken).bind
      Contract.asToken?).map fun t => (t.balanceOf ⟨1⟩, t.allowance ⟨1⟩ ⟨2⟩)) = some (5, 2) := by
    decide +kernel
  obtain ⟨t, here, balance, -⟩ := granting_token
  have plain : (Request.send ⟨2⟩ grantedToken "transferFrom"
      [.address ⟨1⟩, .address ⟨3⟩, .number 5]).Plain := by
    simp [Request.Plain]
  obtain ⟨t', there, debits, -⟩ := tokens_move_by_consent "development" granting plain here
  simp only [there, Option.bind_some, Contract.asToken?, Option.map_some, Option.some.injEq,
    Prod.mk.injEq] at left
  obtain ⟨balance', allowance'⟩ := left
  exact ⟨t, t', here, there, balance, balance', allowance', debits ⟨1⟩ (by omega)⟩

end Spending

end Chain

end MarketScript
