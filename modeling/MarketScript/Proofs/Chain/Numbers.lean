import Mathlib.Data.List.Nodup
import MarketScript.Proofs.Chain.Run

/-!
# Transaction numbers

A history is any list of requests and questions, from any accounts and in any order.  Every message
and every deployment that succeeds uses up a number of its account.  Counting is all that the chain
does about it; that no number is used twice is a fact about histories.
-/

namespace MarketScript

/-- Something that can be put to a chain. -/
inductive Interaction where
  | request (r : Request)
  | call (target : Address) (method : String) (args : List Abi)

/-- The request that an interaction is, if it is one. -/
def Interaction.request? : Interaction → Option Request
  | .request r => some r
  | .call _ _ _ => none

namespace Chain

/-- The chain after an interaction; a question leaves it as it is. -/
def meet (c : Chain) : Interaction → Chain
  | .request r => c.after r
  | .call _ _ _ => c

/-- The chain after several interactions. -/
def meetAll (c : Chain) (is : List Interaction) : Chain := is.foldl meet c

/-- A new chain after a history. -/
def ofHistory (network : String) (is : List Interaction) : Chain := meetAll { network } is

/-- The number that an interaction uses up, with its account: a message always uses one up, a
    deployment if a contract is made. -/
def drawn (c : Chain) : Interaction → List (Address × Nat)
  | .request (.send sender _ _ _) => [(sender, c.nonceOf sender)]
  | .request (.deploy sender kind args) =>
    match (c.deploy sender kind args).1 with
    | .ok _ => [(sender, c.nonceOf sender)]
    | .error _ => []
  | .call _ _ _ => []

/-- The numbers that are used up one after the other. -/
def numbers (c : Chain) : List Interaction → List (Address × Nat)
  | [] => []
  | i :: is => c.drawn i ++ numbers (c.meet i) is

section Histories

variable (network : String)

theorem meetAll_eq_afterAll (c : Chain) (is : List Interaction) :
    c.meetAll is = c.afterAll (is.filterMap Interaction.request?) := by
  induction is generalizing c with
  | nil => rfl
  | cons i is ih =>
    cases i with
    | request r => exact ih (c.after r)
    | call target method args => exact ih c

/-- Questions make no difference to a history. -/
theorem ofHistory_eq_ofRun (is : List Interaction) :
    ofHistory network is = ofRun network (is.filterMap Interaction.request?) :=
  meetAll_eq_afterAll _ is

theorem ofHistory_append (past rest : List Interaction) :
    ofHistory network (past ++ rest) = (ofHistory network past).meetAll rest :=
  List.foldl_append

theorem ofHistory_concat (past : List Interaction) (i : Interaction) :
    ofHistory network (past ++ [i]) = (ofHistory network past).meet i :=
  ofHistory_append network past [i]

end Histories

variable (c : Chain)

theorem nonceOf_le_meet (i : Interaction) (account : Address) :
    c.nonceOf account ≤ (c.meet i).nonceOf account := by
  cases i with
  | request r => exact nonceOf_le_after c r account
  | call target method args => exact Nat.le_refl _

theorem nonceOf_le_meetAll (is : List Interaction) (account : Address) :
    c.nonceOf account ≤ (c.meetAll is).nonceOf account := by
  induction is generalizing c with
  | nil => exact Nat.le_refl _
  | cons i is ih => exact (nonceOf_le_meet c i account).trans (ih (c.meet i))

/-- The number of a transaction is the next one of its account, which moves on by one. -/
theorem mem_singleton_iff_nonceOf {next : Chain} {sender : Address}
    (moves : ∀ account, next.nonceOf account =
      c.nonceOf account + if account = sender then 1 else 0) (account : Address) (nonce : Nat) :
    (account, nonce) ∈ [(sender, c.nonceOf sender)] ↔
      c.nonceOf account ≤ nonce ∧ nonce < next.nonceOf account := by
  rw [moves, List.mem_singleton, Prod.mk.injEq]
  by_cases same : account = sender
  · subst same
    simp only [true_and, if_true]
    omega
  · simp only [same, false_and, if_false, false_iff]
    omega

/-- An interaction uses up exactly the numbers that its account's count passes. -/
theorem mem_drawn_iff (i : Interaction) (account : Address) (nonce : Nat) :
    (account, nonce) ∈ c.drawn i ↔
      c.nonceOf account ≤ nonce ∧ nonce < (c.meet i).nonceOf account := by
  cases i with
  | call target method args =>
    constructor
    · intro member
      cases member
    · rintro ⟨least, less⟩
      exact absurd less (Nat.not_lt.mpr least)
  | request r =>
    cases r with
    | send sender target method args =>
      exact mem_singleton_iff_nonceOf c (nonceOf_send c sender target · method args) account nonce
    | deploy sender kind args =>
      cases creation : Contract.create kind sender ⟨"constructor", args⟩ with
      | error e =>
        simp only [drawn, meet, after, deploy, creation, List.not_mem_nil, false_iff]
        omega
      | ok made =>
        simp only [drawn, meet, deploy_of_create c creation, after_deploy c creation]
        exact mem_singleton_iff_nonceOf c (nonceOf_useNonce c sender) account nonce

theorem nodup_drawn (i : Interaction) : (c.drawn i).Nodup := by
  unfold drawn
  split
  · exact List.nodup_singleton _
  · split
    · exact List.nodup_singleton _
    · exact List.nodup_nil
  · exact List.nodup_nil

/-- A history uses up exactly the numbers that the counts pass. -/
theorem mem_numbers_iff (is : List Interaction) (account : Address) (nonce : Nat) :
    (account, nonce) ∈ c.numbers is ↔
      c.nonceOf account ≤ nonce ∧ nonce < (c.meetAll is).nonceOf account := by
  induction is generalizing c with
  | nil =>
    simp only [numbers, meetAll, List.foldl_nil, List.not_mem_nil, false_iff]
    omega
  | cons i is ih =>
    have first := nonceOf_le_meet c i account
    have rest := nonceOf_le_meetAll (c.meet i) is account
    rw [numbers, List.mem_append, mem_drawn_iff, ih]
    show _ ↔ c.nonceOf account ≤ nonce ∧ nonce < ((c.meet i).meetAll is).nonceOf account
    omega

/-- No number is used up twice. -/
theorem nodup_numbers (is : List Interaction) : (c.numbers is).Nodup := by
  induction is generalizing c with
  | nil => exact List.nodup_nil
  | cons i is ih =>
    apply List.Nodup.append (nodup_drawn c i) (ih (c.meet i))
    -- what is used up now has been passed by the count when the rest begins
    rintro ⟨account, nonce⟩ now later
    have passed := ((mem_drawn_iff c i account nonce).mp now).2
    have least := ((mem_numbers_iff (c.meet i) is account nonce).mp later).1
    exact absurd passed (Nat.not_lt.mpr least)

/-- A receipt carries the hash of the number that its request has used up. -/
theorem drawn_of_answer {r : Request} {receipt : Receipt} (answered : c.answer r = .ok receipt) :
    ∃ nonce, c.drawn (.request r) = [(r.sender, nonce)] ∧ receipt.txHash = txHash r.sender nonce := by
  cases r with
  | send sender target method args =>
    refine ⟨c.nonceOf sender, rfl, ?_⟩
    simp only [answer, send] at answered
    split at answered
    · cases answered
    · cases answered
      rfl
  | deploy sender kind args =>
    have made : (c.deploy sender kind args).1 = .ok receipt := answered
    refine ⟨c.nonceOf sender, by simp only [drawn, made, Request.sender], ?_⟩
    simp only [deploy] at made
    split at made
    · cases made
    · cases made
      rfl

end Chain

end MarketScript
