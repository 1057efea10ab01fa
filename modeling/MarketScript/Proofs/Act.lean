import MarketScript.Command
import MarketScript.Proofs.Chain.Run
import MarketScript.Proofs.Eval

/-!
# Acts and the chain

What acts can do to the chain of their stage.  A quiet act leaves it alone, a sure act does not
fail, and an atomic act that fails has used up one transaction number at most.  A total act comes to
an answer or an error on every stage.
-/

namespace MarketScript

/-- A chain is another one, or the same after one account has used up a number. -/
def Chain.Spared (before after : Chain) : Prop :=
  after = before ∨ ∃ account, after = before.useNonce account

namespace Chain

variable {before after : Chain}

theorem Spared.contracts (h : before.Spared after) : after.contracts = before.contracts := by
  rcases h with rfl | ⟨account, rfl⟩ <;> rfl

theorem Spared.call (h : before.Spared after) (target : Address) (method : String)
    (args : List Abi) : after.call target method args = before.call target method args := by
  rw [Chain.call, Chain.call, h.contracts]

theorem Spared.nonceOf (h : before.Spared after) :
    ∃ account, ∀ other, after.nonceOf other = before.nonceOf other ∨
      other = account ∧ after.nonceOf other = before.nonceOf other + 1 := by
  rcases h with rfl | ⟨account, rfl⟩
  · exact ⟨.zero, fun _ => .inl rfl⟩
  · exact ⟨account, nonceOf_useNonce_cases before account⟩

end Chain

namespace Act

variable {α β : Type}

/-- On one stage an act comes to an answer or an error, and leaves another stage. -/
def Ends (x : Act α) (before : Stage) (result : Except ScenarioError α) (after : Stage) : Prop :=
  x.run.run before = some (result, after)

/-- The act leaves the chain alone. -/
def Quiet (x : Act α) : Prop :=
  ∀ before result after, x.Ends before result after → after.chain = before.chain

/-- The act does not fail. -/
def Sure (x : Act α) : Prop :=
  ∀ before error after, ¬ x.Ends before (.error error) after

/-- Where the act fails, it has used up one number at most. -/
def Atomic (x : Act α) : Prop :=
  ∀ before error after, x.Ends before (.error error) after → before.chain.Spared after.chain

/-- The act comes to something. -/
def Total (x : Act α) : Prop :=
  ∀ before, ∃ result after, x.Ends before result after

section Ends

variable {before after : Stage} {x : Act α}

/-- An act ends in one way only. -/
theorem ends_of_run {result result' : Except ScenarioError α} {after' : Stage}
    (run : x.run.run before = some (result', after')) :
    x.Ends before result after ↔ result = result' ∧ after = after' := by
  unfold Ends
  rw [run]
  constructor
  · intro same
    cases same
    exact ⟨rfl, rfl⟩
  · rintro ⟨rfl, rfl⟩
    rfl

theorem ends_pure {a : α} {result : Except ScenarioError α} :
    (pure a : Act α).Ends before result after ↔ result = .ok a ∧ after = before :=
  ends_of_run rfl

theorem ends_throw {e : ScenarioError} {result : Except ScenarioError α} :
    (throw e : Act α).Ends before result after ↔ result = .error e ∧ after = before :=
  ends_of_run rfl

theorem ends_bind {f : α → Act β} {result : Except ScenarioError β} :
    (x >>= f).Ends before result after ↔
      (∃ e, x.Ends before (.error e) after ∧ result = .error e) ∨
      ∃ a middle, x.Ends before (.ok a) middle ∧ (f a).Ends middle result after := by
  unfold Ends ExceptT.run StateT.run
  simp only [bind, ExceptT.bind, ExceptT.mk, StateT.bind, ExceptT.bindCont]
  cases x before with
  | none => simp
  | some ended =>
    obtain ⟨answer, middle⟩ := ended
    cases answer with
    | error e =>
      show some (Except.error e, middle) = some (result, after) ↔ _
      simp
      tauto
    | ok a => simp

theorem ends_ofExcept {y : Except ScenarioError α} {result : Except ScenarioError α} :
    (ofExcept y).Ends before result after ↔ result = y ∧ after = before :=
  ends_of_run rfl

theorem ends_get {result : Except ScenarioError Stage} :
    (get : Act Stage).Ends before result after ↔ result = .ok before ∧ after = before :=
  ends_of_run rfl

theorem ends_announce {text : String} {result : Except ScenarioError Unit} :
    (announce text).Ends before result after ↔
      result = .ok () ∧ after = { before with transcript := before.transcript ++ [.note text] } :=
  ends_of_run rfl

theorem ends_onChain {f : Chain → β × Chain} {result : Except ScenarioError β} :
    (onChain f).Ends before result after ↔
      result = .ok (f before.chain).1 ∧ after = { before with chain := (f before.chain).2 } :=
  ends_of_run rfl

theorem ends_ofEval {y : Eval α} {result : Except ScenarioError α} :
    (ofEval y).Ends before result after ↔ y.Ends result ∧ after = before := by
  show y.run.map (·, before) = some (result, after) ↔ y.run = some result ∧ after = before
  rw [Option.map_eq_some_iff]
  constructor
  · rintro ⟨_, ended, same⟩
    cases same
    exact ⟨ended, rfl⟩
  · rintro ⟨ended, rfl⟩
    exact ⟨_, ended, rfl⟩

/-- An act that asks for something first fails with it or goes on with the answer. -/
theorem ends_ask {y : Except ScenarioError α} {g : α → Act β} {result : Except ScenarioError β} :
    (do g (← ofExcept y)).Ends before result after ↔
      (∃ e, y = .error e ∧ result = .error e ∧ after = before) ∨
      ∃ a, y = .ok a ∧ (g a).Ends before result after := by
  cases y with
  | error e =>
    show (throw e : Act β).Ends before result after ↔ _
    rw [ends_throw]
    simp
  | ok a =>
    show (g a).Ends before result after ↔ _
    simp

theorem ask_ok {a : α} {g : α → Act β} : (do g (← ofExcept (.ok a))) = g a := rfl

/-- What is made of an answer is made of it alone. -/
theorem ends_bind_pure {f : α → β} {result : Except ScenarioError β} :
    (do return f (← x)).Ends before result after ↔
      ∃ r, x.Ends before r after ∧ result = r.map f := by
  constructor
  · intro ends
    rcases ends_bind.mp ends with ⟨e, failed, rfl⟩ | ⟨a, middle, done, rest⟩
    · exact ⟨.error e, failed, rfl⟩
    · obtain ⟨rfl, rfl⟩ := ends_pure.mp rest
      exact ⟨.ok a, done, rfl⟩
  · rintro ⟨r, ended, rfl⟩
    cases r with
    | error e => exact ends_bind.mpr (.inl ⟨e, ended, rfl⟩)
    | ok a => exact ends_bind.mpr (.inr ⟨a, after, ended, ends_pure.mpr ⟨rfl, rfl⟩⟩)

end Ends

section Rules

variable {x : Act α} {f : α → Act β}

theorem quiet_pure (a : α) : Quiet (pure a : Act α) := by
  intro before result after ends
  rw [(ends_pure.mp ends).2]

theorem quiet_throw (e : ScenarioError) : Quiet (throw e : Act α) := by
  intro before result after ends
  rw [(ends_throw.mp ends).2]

theorem quiet_ofExcept (y : Except ScenarioError α) : Quiet (ofExcept y) := by
  intro before result after ends
  rw [(ends_ofExcept.mp ends).2]

theorem quiet_ofEval (y : Eval α) : Quiet (ofEval y) := by
  intro before result after ends
  rw [(ends_ofEval.mp ends).2]

theorem quiet_get : Quiet (get : Act Stage) := by
  intro before result after ends
  rw [(ends_get.mp ends).2]

theorem quiet_announce (text : String) : Quiet (announce text) := by
  intro before result after ends
  rw [(ends_announce.mp ends).2]

theorem Quiet.bind (hx : Quiet x) (hf : ∀ a, Quiet (f a)) : Quiet (x >>= f) := by
  intro before result after ends
  rcases ends_bind.mp ends with ⟨e, failed, -⟩ | ⟨a, middle, first, rest⟩
  · exact hx _ _ _ failed
  · exact (hf a _ _ _ rest).trans (hx _ _ _ first)

theorem sure_pure (a : α) : Sure (pure a : Act α) := by
  intro before e after ends
  cases (ends_pure.mp ends).1

theorem sure_get : Sure (get : Act Stage) := by
  intro before e after ends
  cases (ends_get.mp ends).1

theorem sure_announce (text : String) : Sure (announce text) := by
  intro before e after ends
  cases (ends_announce.mp ends).1

theorem Sure.bind (hx : Sure x) (hf : ∀ a, Sure (f a)) : Sure (x >>= f) := by
  intro before e after ends
  rcases ends_bind.mp ends with ⟨_, failed, -⟩ | ⟨a, middle, -, rest⟩
  · exact hx _ _ _ failed
  · exact hf a _ _ _ rest

theorem Quiet.atomic (hx : Quiet x) : Atomic x := by
  intro before e after ends
  exact .inl (hx _ _ _ ends)

/-- What happens before the chain is touched may fail. -/
theorem Quiet.bind_atomic (hx : Quiet x) (hf : ∀ a, Atomic (f a)) : Atomic (x >>= f) := by
  intro before e after ends
  rcases ends_bind.mp ends with ⟨_, failed, -⟩ | ⟨a, middle, first, rest⟩
  · exact .inl (hx _ _ _ failed)
  · rw [← hx _ _ _ first]
    exact hf a _ _ _ rest

/-- What happens after the chain was touched may not fail. -/
theorem Atomic.bind_sure (hx : Atomic x) (hf : ∀ a, Sure (f a)) : Atomic (x >>= f) := by
  intro before e after ends
  rcases ends_bind.mp ends with ⟨_, failed, -⟩ | ⟨a, middle, -, rest⟩
  · exact hx _ _ _ failed
  · exact absurd rest (hf a _ _ _)

theorem Total.bind (hx : Total x) (hf : ∀ a, Total (f a)) : Total (x >>= f) := by
  intro before
  obtain ⟨result, middle, first⟩ := hx before
  cases result with
  | error e => exact ⟨.error e, middle, ends_bind.mpr (.inl ⟨e, first, rfl⟩)⟩
  | ok a =>
    obtain ⟨result, after, rest⟩ := hf a middle
    exact ⟨result, after, ends_bind.mpr (.inr ⟨a, middle, first, rest⟩)⟩

theorem total_throw (e : ScenarioError) : Total (throw e : Act α) := by
  intro before
  exact ⟨.error e, before, ends_throw.mpr ⟨rfl, rfl⟩⟩

theorem total_pure (a : α) : Total (pure a : Act α) := by
  intro before
  exact ⟨.ok a, before, ends_pure.mpr ⟨rfl, rfl⟩⟩

theorem total_get : Total (get : Act Stage) := by
  intro before
  exact ⟨.ok before, before, ends_get.mpr ⟨rfl, rfl⟩⟩

theorem total_announce (text : String) : Total (announce text) := by
  intro before
  exact ⟨_, _, ends_announce.mpr ⟨rfl, rfl⟩⟩

theorem total_onChain (f : Chain → β × Chain) : Total (onChain f) := by
  intro before
  exact ⟨_, _, ends_onChain.mpr ⟨rfl, rfl⟩⟩

theorem total_ofExcept (y : Except ScenarioError α) : Total (ofExcept y) := by
  intro before
  exact ⟨y, before, ends_ofExcept.mpr ⟨rfl, rfl⟩⟩

/-- An act that reads an expression first goes on only with what the reading comes to. -/
theorem total_read {y : Eval α} {g : α → Act β} (total : y.Total)
    (rest : ∀ a, y.Ends (.ok a) → Total (g a)) : Total (do g (← ofEval y)) := by
  intro before
  obtain ⟨result, ended⟩ := total
  have read : (ofEval y).Ends before result before := ends_ofEval.mpr ⟨ended, rfl⟩
  cases result with
  | error e => exact ⟨.error e, before, ends_bind.mpr (.inl ⟨e, read, rfl⟩)⟩
  | ok a =>
    obtain ⟨result, after, ends⟩ := rest a ended before
    exact ⟨result, after, ends_bind.mpr (.inr ⟨a, before, read, ends⟩)⟩

theorem total_ask {y : Except ScenarioError α} {g : α → Act β}
    (rest : ∀ a, y = .ok a → Total (g a)) : Total (do g (← ofExcept y)) := by
  have asked : Total (do g (← ofEval (Eval.ofExcept y))) :=
    total_read (Eval.total_ofExcept y) fun a ended => rest a (Eval.ends_ofExcept.mp ended).symm
  exact asked

theorem atomic_ask {y : Except ScenarioError α} {g : α → Act β} (hg : ∀ a, Atomic (g a)) :
    Atomic (do g (← ofExcept y)) :=
  (quiet_ofExcept y).bind_atomic hg

end Rules

end Act

end MarketScript
