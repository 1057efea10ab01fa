import Mathlib.Data.List.Induction
import MarketScript.Chain
import MarketScript.Proofs.Ledger.Supply

/-!
# Runs of a chain

A run is any list of requests, from any accounts, carried out one after the other on a new chain.
What a request does to the contracts is one of three changes.
-/

namespace MarketScript

/-- Something that an account asks of a chain. -/
inductive Request where
  | deploy (sender : Address) (kind : String) (args : List Abi)
  | send (sender target : Address) (method : String) (args : List Abi)

/-- Who asks. -/
def Request.sender : Request → Address
  | .deploy sender _ _ => sender
  | .send sender _ _ _ => sender

/-- The account sends the request as a message. -/
def Request.SentBy (account : Address) : Request → Prop
  | .deploy _ _ _ => False
  | .send sender _ _ _ => sender = account

/-- No number that a message gives is negative. -/
def Request.Plain : Request → Prop
  | .deploy _ _ _ => True
  | .send _ _ _ args => ∀ n, .number n ∈ args → 0 ≤ n

namespace Chain

/-- The chain after a request, whatever came of it. -/
def after (c : Chain) : Request → Chain
  | .deploy sender kind args => (c.deploy sender kind args).2
  | .send sender target method args => (c.send sender target method args).2

/-- What the chain answers to a request. -/
def answer (c : Chain) : Request → Except ChainError Receipt
  | .deploy sender kind args => (c.deploy sender kind args).1
  | .send sender target method args => (c.send sender target method args).1

/-- The chain does not do what it is asked for: it answers with an error, or with a receipt that
    tells a failure. -/
def Refuses (c : Chain) (r : Request) : Prop :=
  ∀ receipt, c.answer r = .ok receipt → receipt.log? "Failure" ≠ none

/-- The chain after several requests. -/
def afterAll (c : Chain) (rs : List Request) : Chain := rs.foldl after c

theorem afterAll_append (c : Chain) (rs rs' : List Request) :
    c.afterAll (rs ++ rs') = (c.afterAll rs).afterAll rs' :=
  List.foldl_append

/-- The chain after the requests of a run. -/
def ofRun (network : String) (rs : List Request) : Chain := afterAll { network } rs

theorem ofRun_concat (network : String) (rs : List Request) (r : Request) :
    ofRun network (rs ++ [r]) = (ofRun network rs).after r := by
  simp [ofRun, afterAll]

/-- What a request can make of the contracts. -/
inductive Change (c : Chain) : Request → Ledger → Prop
  | none (r : Request) : Change c r c.contracts
  | deployed {sender : Address} {kind : String} {args : List Abi} {made : Contract}
      (creation : Contract.create kind sender ⟨"constructor", args⟩ = .ok made) :
      Change c (.deploy sender kind args)
        (c.contracts.insert (contractAddress sender (c.nonceOf sender)) made)
  | sent {sender target : Address} {method : String} {args : List Abi} {l : Ledger}
      {result : Abi} {logs : List Log}
      (step : c.contracts.Step sender target ⟨method, args⟩ l result logs) :
      Change c (.send sender target method args) l

/-- What a chain answers to a message follows from what its contracts do. -/
theorem send_cases (c : Chain) (sender target : Address) (method : String) (args : List Abi) :
    (∃ e, (c.send sender target method args).1 = .error e ∧
      (c.send sender target method args).2.contracts = c.contracts) ∨
    ∃ r, (c.send sender target method args).1 = .ok r ∧
      c.contracts.Step sender target ⟨method, args⟩ (c.send sender target method args).2.contracts
        r.returnValue r.logs := by
  unfold send
  cases sent : c.contracts.send sender target ⟨method, args⟩ with
  | error e => exact .inl ⟨e, rfl, rfl⟩
  | ok after => exact .inr ⟨_, rfl, Ledger.step_of_send sent⟩

/-- A message that ends in an error or tells a failure leaves only its number behind. -/
theorem send_failed {c : Chain} {sender target : Address} {method : String} {args : List Abi}
    (failed : ∀ r, (c.send sender target method args).1 = .ok r → r.log? "Failure" ≠ none) :
    (c.send sender target method args).2 = c.useNonce sender := by
  unfold send at failed ⊢
  cases sent : c.contracts.send sender target ⟨method, args⟩ with
  | error e => rfl
  | ok found =>
    obtain ⟨l, result, logs⟩ := found
    rcases (Ledger.step_of_send sent).refused_or_completed with ⟨same, -⟩ | completed
    · subst same
      rfl
    · simp only [sent] at failed
      refine absurd ?_ (failed _ rfl)
      simpa [Receipt.log?] using completed.1

/-- A request that is refused leaves the contracts as they are. -/
theorem Refuses.contracts {c : Chain} {r : Request} (h : c.Refuses r) :
    (c.after r).contracts = c.contracts := by
  cases r with
  | deploy sender kind args =>
    cases creation : Contract.create kind sender ⟨"constructor", args⟩ with
    | error e => simp only [after, deploy, creation]
    | ok made =>
      simp only [Refuses, answer, deploy, creation] at h
      exact absurd rfl (h _ rfl)
  | send sender target method args =>
    have spared : (c.send sender target method args).2 = c.useNonce sender := send_failed h
    show (c.send sender target method args).2.contracts = _
    rw [spared]
    rfl

theorem change_after (c : Chain) (r : Request) : c.Change r (c.after r).contracts := by
  cases r with
  | deploy sender kind args =>
    simp only [after, deploy]
    split
    · exact .none _
    · rename_i made creation
      exact .deployed creation
  | send sender target method args =>
    simp only [after, send]
    split
    · exact .none _
    · rename_i l result logs sent
      exact .sent (Ledger.step_of_send sent)

/-- What all contracts have, and a new one has as well, they have after a deployment. -/
theorem all_after_deploy {P : Contract → Prop} {c : Chain} {sender : Address} {kind : String}
    {args : List Abi} (h : c.contracts.All P)
    (fresh : ∀ made, Contract.create kind sender ⟨"constructor", args⟩ = .ok made → P made) :
    (c.after (.deploy sender kind args)).contracts.All P := by
  have change := c.change_after (.deploy sender kind args)
  generalize (c.after (.deploy sender kind args)).contracts = l at change ⊢
  cases change with
  | none => exact h
  | deployed creation => exact (Ledger.all_insert_iff h).mpr (fresh _ creation)

/-- A property of ledgers that a new chain has and every change keeps holds all along a run. -/
theorem ofRun_induction {P : Ledger → Prop} (start : P .empty)
    (step : ∀ c r l, Change c r l → P c.contracts → P l) (network : String) (rs : List Request) :
    P (ofRun network rs).contracts := by
  induction rs using List.reverseRecOn with
  | nil => exact start
  | append_singleton rs r ih =>
    rw [ofRun_concat]
    exact step _ r _ (change_after _ r) ih

/-- Where a property is lost to certain requests only, all states of a run have it exactly if the run
    has no such request. -/
theorem ofRun_prefixes_iff {P : Chain → Prop} {Breaks : Chain → Request → Prop} (network : String)
    (start : P { network }) (step : ∀ c r, P c → (P (c.after r) ↔ ¬ Breaks c r))
    (rs : List Request) :
    (∀ past, past <+: rs → P (ofRun network past)) ↔
      ∀ past r, past ++ [r] <+: rs → ¬ Breaks (ofRun network past) r := by
  constructor
  · intro all past r along
    have before := all past ((List.prefix_append past [r]).trans along)
    have after := all _ along
    rw [ofRun_concat] at after
    exact (step _ r before).mp after
  · intro none past along
    induction past using List.reverseRecOn with
    | nil => exact start
    | append_singleton past r ih =>
      have before := ih ((List.prefix_append past [r]).trans along)
      rw [ofRun_concat]
      exact (step _ r before).mpr (none past r along)

/-- Along every run all supplies are the sums of the balances. -/
theorem balanced_ofRun (network : String) (rs : List Request) :
    (ofRun network rs).contracts.All Contract.Balanced := by
  refine ofRun_induction Ledger.all_empty ?_ network rs
  intro c r l change h
  cases change with
  | none => exact h
  | deployed creation => exact (Ledger.all_insert_iff h).mpr (Contract.fresh_of_create creation).balanced
  | sent step => exact step.balanced h

section Nonces

variable (c : Chain)

theorem nonceOf_useNonce (sender account : Address) :
    (c.useNonce sender).nonceOf account = c.nonceOf account + if account = sender then 1 else 0 := by
  unfold useNonce nonceOf
  simp only [Store.get?_insert]
  by_cases same : sender = account
  · simp [same]
  · simp [same, Ne.symm same]

theorem nonceOf_useNonce_self (sender : Address) :
    (c.useNonce sender).nonceOf sender = c.nonceOf sender + 1 := by
  rw [nonceOf_useNonce, if_pos rfl]

theorem nonceOf_useNonce_cases (sender account : Address) :
    (c.useNonce sender).nonceOf account = c.nonceOf account ∨
      account = sender ∧ (c.useNonce sender).nonceOf account = c.nonceOf account + 1 := by
  rw [nonceOf_useNonce]
  split
  · rename_i same
    exact .inr ⟨same, rfl⟩
  · exact .inl rfl

theorem after_deploy {sender : Address} {kind : String} {args : List Abi} {made : Contract}
    (creation : Contract.create kind sender ⟨"constructor", args⟩ = .ok made) :
    c.after (.deploy sender kind args) =
      { c.useNonce sender with
        contracts := c.contracts.insert (contractAddress sender (c.nonceOf sender)) made } := by
  simp only [after, deploy, creation]

theorem deploy_of_create {sender : Address} {kind : String} {args : List Abi} {made : Contract}
    (creation : Contract.create kind sender ⟨"constructor", args⟩ = .ok made) :
    c.deploy sender kind args =
      (.ok { txHash := txHash sender (c.nonceOf sender), sender, target := none,
             contractAddress := some (contractAddress sender (c.nonceOf sender)),
             returnValue := .unit, logs := [] },
        c.after (.deploy sender kind args)) := by
  rw [after_deploy c creation]
  simp only [deploy, creation]

/-- A message uses up one number of its sender, whatever becomes of it. -/
theorem nonceOf_send (sender target account : Address) (method : String) (args : List Abi) :
    (c.send sender target method args).2.nonceOf account =
      c.nonceOf account + if account = sender then 1 else 0 := by
  rw [← nonceOf_useNonce]
  unfold send
  simp only
  split <;> rfl

theorem nonceOf_after (r : Request) (account : Address) :
    (c.after r).nonceOf account = c.nonceOf account ∨
      account = r.sender ∧ (c.after r).nonceOf account = c.nonceOf account + 1 := by
  cases r with
  | deploy sender kind args =>
    cases creation : Contract.create kind sender ⟨"constructor", args⟩ with
    | error e => exact .inl (by simp [after, deploy, creation])
    | ok made =>
      rw [after_deploy c creation]
      exact nonceOf_useNonce_cases c sender account
  | send sender target method args =>
    rw [after, nonceOf_send, ← nonceOf_useNonce]
    exact nonceOf_useNonce_cases c sender account

theorem nonceOf_le_after (r : Request) (account : Address) :
    c.nonceOf account ≤ (c.after r).nonceOf account := by
  rcases nonceOf_after c r account with same | ⟨-, more⟩
  · exact same.ge
  · omega

end Nonces

/-- An account has used up no more numbers than it has asked for something. -/
theorem nonceOf_ofRun_le (network : String) (rs : List Request) (account : Address) :
    (ofRun network rs).nonceOf account ≤ (rs.map Request.sender).count account := by
  induction rs using List.reverseRecOn with
  | nil => exact Nat.zero_le _
  | append_singleton rs r ih =>
    rw [ofRun_concat, List.map_append, List.count_append]
    rcases nonceOf_after (ofRun network rs) r account with same | ⟨rfl, more⟩
    · omega
    · rw [more, List.map_singleton, List.count_singleton_self]
      omega

end Chain

end MarketScript
