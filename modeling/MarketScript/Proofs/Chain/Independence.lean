import Mathlib.Data.List.Basic
import MarketScript.Proofs.Chain.Solvency
import MarketScript.Proofs.Ledger.Frame

/-!
# Independent messages

Two messages of different accounts that come across different contracts can be sent in any order:
either order leaves the same chain, and each of the two is answered as if it were alone.
-/

namespace MarketScript

namespace Ledger

/-- The ledger with several contracts put there one after the other. -/
def write (l : Ledger) (ws : List (Address × Contract)) : Ledger :=
  ws.foldl (fun l w => l.insert w.1 w.2) l

/-- What a message tells, if it is not undone. -/
def reply (l : Ledger) (sender target : Address) (p : Params) :
    Except ChainError (Abi × List Log) :=
  Prod.snd <$> l.send sender target p

/-- What a message leaves of a ledger, whatever came of it. -/
def settle (l : Ledger) (sender target : Address) (p : Params) : Ledger :=
  match l.send sender target p with
  | .ok (after, _) => after
  | .error _ => l

variable {l : Ledger} {ws ws' : List (Address × Contract)} {sender target : Address} {p : Params}

theorem write_insert {a : Address} (d : Contract) (apart : ∀ w ∈ ws, a ≠ w.1) :
    write (l.insert a d) ws = (l.write ws).insert a d := by
  induction ws generalizing l with
  | nil => rfl
  | cons w ws ih =>
    obtain ⟨first, rest⟩ := List.forall_mem_cons.mp apart
    have swap := Store.insert_comm l first d w.2
    calc write (l.insert a d) (w :: ws)
      _ = write ((l.insert w.1 w.2).insert a d) ws := congrArg (write · ws) swap
      _ = (write (l.insert w.1 w.2) ws).insert a d := ih rest

/-- Writing to different places can be done in any order. -/
theorem write_comm (apart : ∀ w' ∈ ws', ∀ w ∈ ws, w'.1 ≠ w.1) :
    (l.write ws').write ws = (l.write ws).write ws' := by
  induction ws' generalizing l with
  | nil => rfl
  | cons w' ws' ih =>
    obtain ⟨first, rest⟩ := List.forall_mem_cons.mp apart
    calc (write (l.insert w'.1 w'.2) ws').write ws
      _ = (write (l.insert w'.1 w'.2) ws).write ws' := ih rest
      _ = write ((l.write ws).insert w'.1 w'.2) ws' := by rw [write_insert w'.2 first]

/-- A message writes to contracts only that it comes across. -/
theorem Step.writes {after : Ledger} {result : Abi} {logs : List Log}
    (step : l.Step sender target p after result logs) :
    ∃ ws, after = l.write ws ∧ ∀ w ∈ ws, w.1 ∈ l.footprint target p := by
  cases step with
  | @token t o | @controller c o =>
    refine ⟨[(target, _)], rfl, ?_⟩
    intro w only
    rw [List.mem_singleton.mp only]
    exact List.mem_cons_self
  | mintRefused | redeemRefused | redeemTooMuch | redeemNoCash =>
    refine ⟨[], rfl, ?_⟩
    intro w none
    cases none
  | @mint m _ _ _ serves | @redeem m _ _ _ serves =>
    refine ⟨[(m.underlying, _), (target, _)], rfl, ?_⟩
    simp [footprint, serves.here, Contract.neighbours]

/-- Whatever comes of a message, it has written only to contracts that it comes across. -/
theorem exists_writes (l : Ledger) (sender target : Address) (p : Params) :
    ∃ ws, l.settle sender target p = l.write ws ∧ ∀ w ∈ ws, w.1 ∈ l.footprint target p := by
  unfold settle
  cases sent : l.send sender target p with
  | error e =>
    refine ⟨[], rfl, ?_⟩
    intro w none
    cases none
  | ok found => exact (step_of_send sent).writes

/-- A message does the same after any writes to what it does not come across. -/
theorem send_write (sender : Address) (apart : ∀ w ∈ ws, w.1 ∉ l.footprint target p) :
    (l.write ws).send sender target p =
      Prod.map (write · ws) id <$> l.send sender target p := by
  induction ws generalizing l with
  | nil => exact (id_map _).symm
  | cons w ws ih =>
    obtain ⟨first, rest⟩ := List.forall_mem_cons.mp apart
    rw [← footprint_insert l w.2 first] at rest
    calc (write (l.insert w.1 w.2) ws).send sender target p
      _ = Prod.map (write · ws) id <$> send (l.insert w.1 w.2) sender target p := ih rest
      _ = Prod.map (write · (w :: ws)) id <$> l.send sender target p := by
        rw [send_insert l w.2 sender first, Functor.map_map]
        rfl

theorem reply_write (sender : Address) (apart : ∀ w ∈ ws, w.1 ∉ l.footprint target p) :
    (l.write ws).reply sender target p = l.reply sender target p := by
  rw [reply, reply, send_write sender apart, Functor.map_map]
  rfl

theorem settle_write (sender : Address) (apart : ∀ w ∈ ws, w.1 ∉ l.footprint target p) :
    (l.write ws).settle sender target p = (l.settle sender target p).write ws := by
  rw [settle, settle, send_write sender apart]
  cases l.send sender target p with
  | error e => rfl
  | ok found => rfl

section Apart

variable {target' : Address} {p' : Params}

/-- What a message is told does not depend on one that comes across other contracts. -/
theorem reply_settle (sender sender' : Address)
    (apart : (l.footprint target p).Disjoint (l.footprint target' p')) :
    (l.settle sender target p).reply sender' target' p' = l.reply sender' target' p' := by
  obtain ⟨ws, settled, inside⟩ := l.exists_writes sender target p
  rw [settled]
  apply reply_write
  intro w member there
  exact apart (inside w member) there

/-- Two messages that come across different contracts leave the same ledger in either order. -/
theorem settle_comm (sender sender' : Address)
    (apart : (l.footprint target p).Disjoint (l.footprint target' p')) :
    (l.settle sender target p).settle sender' target' p' =
      (l.settle sender' target' p').settle sender target p := by
  obtain ⟨ws, settled, inside⟩ := l.exists_writes sender target p
  obtain ⟨ws', settled', inside'⟩ := l.exists_writes sender' target' p'
  have outside : ∀ w ∈ ws, w.1 ∉ l.footprint target' p' := by
    intro w member there
    exact apart (inside w member) there
  have outside' : ∀ w ∈ ws', w.1 ∉ l.footprint target p := by
    intro w member there
    exact apart there (inside' w member)
  have places : ∀ w' ∈ ws', ∀ w ∈ ws, w'.1 ≠ w.1 := by
    intro w' member' w member same
    exact outside w member (same ▸ inside' w' member')
  rw [settled, settle_write sender' outside, settled', settle_write sender outside', settled]
  exact write_comm places

end Apart

end Ledger

namespace Chain

section Send

variable (c : Chain) (sender target : Address) (method : String) (args : List Abi)

/-- What a chain answers to a message follows from its contracts and the account's number. -/
theorem fst_send :
    (c.send sender target method args).1 =
      (fun reply => { txHash := txHash sender (c.nonceOf sender), sender, target := some target,
                      contractAddress := none, returnValue := reply.1, logs := reply.2 }) <$>
        c.contracts.reply sender target ⟨method, args⟩ := by
  rw [send, Ledger.reply]
  cases c.contracts.send sender target ⟨method, args⟩ with
  | error e => rfl
  | ok found => rfl

/-- What a message leaves of a chain. -/
theorem snd_send :
    (c.send sender target method args).2 =
      { c.useNonce sender with contracts := c.contracts.settle sender target ⟨method, args⟩ } := by
  rw [send, Ledger.settle]
  cases c.contracts.send sender target ⟨method, args⟩ with
  | error e => rfl
  | ok found => rfl

end Send

variable {sender sender' target target' : Address} {method method' : String} {args args' : List Abi}

/-- A message is answered as if another one, of another account and to other contracts, had not been
    sent. -/
theorem answer_after_send (c : Chain) (senders : sender ≠ sender')
    (apart : (c.contracts.footprint target ⟨method, args⟩).Disjoint
      (c.contracts.footprint target' ⟨method', args'⟩)) :
    ((c.send sender target method args).2.send sender' target' method' args').1 =
      (c.send sender' target' method' args').1 := by
  have number := nonceOf_send c sender target sender' method args
  rw [if_neg senders.symm, Nat.add_zero] at number
  have contracts : (c.send sender target method args).2.contracts =
      c.contracts.settle sender target ⟨method, args⟩ := by rw [snd_send]
  rw [fst_send, fst_send, number, contracts, Ledger.reply_settle sender sender' apart]

/-- Different accounts use up their numbers in any order. -/
theorem useNonce_comm (c : Chain) (senders : sender ≠ sender') :
    (c.useNonce sender).useNonce sender' = (c.useNonce sender').useNonce sender := by
  have number := nonceOf_useNonce c sender sender'
  have number' := nonceOf_useNonce c sender' sender
  rw [if_neg senders.symm, Nat.add_zero] at number
  rw [if_neg senders, Nat.add_zero] at number'
  have numbers := Store.insert_comm c.nonces senders (c.nonceOf sender + 1) (c.nonceOf sender' + 1)
  rw [useNonce, number, useNonce.eq_def (c.useNonce sender'), number']
  exact congrArg (fun nonces => { c with nonces }) numbers

/-- Messages of different accounts that come across different contracts commute: sent in either
    order they leave the same chain, and each gets the same receipt or error. -/
theorem sends_commute (c : Chain) (senders : sender ≠ sender')
    (apart : (c.contracts.footprint target ⟨method, args⟩).Disjoint
      (c.contracts.footprint target' ⟨method', args'⟩)) :
    ((c.send sender target method args).2.send sender' target' method' args').2 =
      ((c.send sender' target' method' args').2.send sender target method args).2 ∧
    ((c.send sender target method args).2.send sender' target' method' args').1 =
      (c.send sender' target' method' args').1 ∧
    ((c.send sender' target' method' args').2.send sender target method args).1 =
      (c.send sender target method args).1 := by
  refine ⟨?_, answer_after_send c senders apart,
    answer_after_send c senders.symm (List.disjoint_symm apart)⟩
  have numbers := useNonce_comm c senders
  have contracts := Ledger.settle_comm sender sender' apart
  calc ((c.send sender target method args).2.send sender' target' method' args').2
    _ = { (c.useNonce sender).useNonce sender' with
          contracts := (c.contracts.settle sender target ⟨method, args⟩).settle sender' target'
            ⟨method', args'⟩ } := by
        rw [snd_send, snd_send]
        rfl
    _ = { (c.useNonce sender').useNonce sender with
          contracts := (c.contracts.settle sender' target' ⟨method', args'⟩).settle sender target
            ⟨method, args⟩ } := by
        rw [numbers, contracts]
    _ = ((c.send sender' target' method' args').2.send sender target method args).2 := by
        rw [snd_send, snd_send]
        rfl

section Beside

/-- An account that has a token of its own beside the market of `lending`. -/
def bystander : Address := ⟨2⟩

/-- The token of the other account. -/
def bystanderToken : Address := contractAddress bystander 0

/-- The chain after `lending` and the deployment of another token. -/
def lendingBeside : Chain :=
  (ofRun "development" lending).after
    (.deploy bystander "FaucetToken" [.string "Basic", .string "BAT", .number 18])

/-- The lender gives back market tokens. -/
def redemption (c : Chain) : Except ChainError Receipt × Chain :=
  c.send lender lendingMarket "redeem" [.number 100]

/-- The other account gets new tokens. -/
def allocation (c : Chain) : Except ChainError Receipt × Chain :=
  c.send bystander bystanderToken "allocateTo" [.address bystander, .number 5]

/-- The two messages do not meet, and both are carried out. -/
theorem lendingBeside_apart :
    (∀ a ∈ lendingBeside.contracts.footprint lendingMarket ⟨"redeem", [.number 100]⟩,
      a ∉ lendingBeside.contracts.footprint bystanderToken
        ⟨"allocateTo", [.address bystander, .number 5]⟩) ∧
    ((redemption lendingBeside).1.toOption.bind (·.log? "Redeem")).isSome = true ∧
    ((allocation lendingBeside).1.toOption.bind (·.log? "Transfer")).isSome = true := by
  decide +kernel

/-- The two messages can be sent in either order. -/
theorem lendingBeside_commutes :
    lender ≠ bystander ∧
    (lendingBeside.contracts.footprint lendingMarket ⟨"redeem", [.number 100]⟩).Disjoint
      (lendingBeside.contracts.footprint bystanderToken
        ⟨"allocateTo", [.address bystander, .number 5]⟩) ∧
    ((redemption lendingBeside).1.toOption.bind (·.log? "Redeem")).isSome = true ∧
    ((allocation lendingBeside).1.toOption.bind (·.log? "Transfer")).isSome = true ∧
    (allocation (redemption lendingBeside).2).2 = (redemption (allocation lendingBeside).2).2 ∧
    (allocation (redemption lendingBeside).2).1 = (allocation lendingBeside).1 ∧
    (redemption (allocation lendingBeside).2).1 = (redemption lendingBeside).1 := by
  have accounts : lender ≠ bystander := by decide
  obtain ⟨apart, redeems, allocates⟩ := lendingBeside_apart
  exact ⟨accounts, apart, redeems, allocates, sends_commute lendingBeside accounts apart⟩

end Beside

end Chain

end MarketScript
