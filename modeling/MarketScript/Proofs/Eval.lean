import Mathlib.Data.Option.Basic
import MarketScript.Stage

/-!
# Readings and what they come to

A reading comes to an answer or to an error, or it needs more steps within each other than it was
given and comes to nothing.
-/

namespace MarketScript

namespace Eval

variable {α β : Type}

/-- The reading comes to an answer or an error. -/
def Ends (x : Eval α) (result : Except ScenarioError α) : Prop := x.run = some result

/-- The reading comes to something. -/
def Total (x : Eval α) : Prop := ∃ result, x.Ends result

/-- Both readings come to something, to the same, and if to an error, then to a certain one. -/
def Agree (P : ScenarioError → Prop) (x y : Eval α) : Prop :=
  ∃ result, x.Ends result ∧ y.Ends result ∧ ∀ e, result = .error e → P e

section Ends

variable {x : Eval α}

/-- A reading comes to one thing only. -/
theorem Ends.unique {result result' : Except ScenarioError α} (h : x.Ends result)
    (h' : x.Ends result') : result = result' := by
  have same : some result = some result' := h.symm.trans h'
  exact Option.some.inj same

theorem ends_of_run {result result' : Except ScenarioError α} (run : x.run = some result') :
    x.Ends result ↔ result = result' := by
  constructor
  · intro ends
    exact ends.unique run
  · rintro rfl
    exact run

@[simp] theorem ends_pure {a : α} {result : Except ScenarioError α} :
    (pure a : Eval α).Ends result ↔ result = .ok a :=
  ends_of_run rfl

@[simp] theorem ends_throw {e : ScenarioError} {result : Except ScenarioError α} :
    (throw e : Eval α).Ends result ↔ result = .error e :=
  ends_of_run rfl

@[simp] theorem ends_ofExcept {y result : Except ScenarioError α} :
    (ofExcept y).Ends result ↔ result = y :=
  ends_of_run rfl

theorem ends_bind {f : α → Eval β} {result : Except ScenarioError β} :
    (x >>= f).Ends result ↔
      (∃ e, x.Ends (.error e) ∧ result = .error e) ∨ ∃ a, x.Ends (.ok a) ∧ (f a).Ends result := by
  unfold Ends ExceptT.run
  simp only [bind, ExceptT.bind, ExceptT.mk, Option.bind]
  cases x with
  | none => simp
  | some answer =>
    cases answer with
    | error e =>
      show some (Except.error e) = some result ↔ _
      simp [eq_comm]
    | ok a =>
      show f a = some result ↔ _
      simp

/-- A reading that asks for something first and succeeds has got an answer. -/
theorem of_ask {y : Except ScenarioError α} {g : α → Eval β} {b : β}
    (ends : (do g (← ofExcept y)).Ends (.ok b)) : ∃ a, y = .ok a ∧ (g a).Ends (.ok b) := by
  rcases ends_bind.mp ends with ⟨_, -, impossible⟩ | ⟨a, asked, rest⟩
  · cases impossible
  · exact ⟨a, (ends_ofExcept.mp asked).symm, rest⟩

theorem ends_attempt {result : Except ScenarioError (Except ScenarioError α)} :
    x.attempt.Ends result ↔ ∃ answer, x.Ends answer ∧ result = .ok answer := by
  unfold Ends attempt ExceptT.run ExceptT.mk
  rw [Option.map_eq_some_iff]
  simp only [eq_comm]

/-- After an attempt there is always an answer to go on with. -/
theorem ends_attempt_bind {f : Except ScenarioError α → Eval β} {result : Except ScenarioError β} :
    (x.attempt >>= f).Ends result ↔ ∃ answer, x.Ends answer ∧ (f answer).Ends result := by
  simp only [ends_bind, ends_attempt]
  constructor
  · rintro (⟨_, ⟨_, _, impossible⟩, _⟩ | ⟨answer, ⟨_, ended, same⟩, rest⟩)
    · cases impossible
    · cases same
      exact ⟨answer, ended, rest⟩
  · rintro ⟨answer, ended, rest⟩
    exact .inr ⟨answer, ⟨answer, ended, rfl⟩, rest⟩

/-- What is made of an answer is made of it alone. -/
theorem ends_bind_pure {f : α → β} {result : Except ScenarioError β} :
    (x >>= fun a => pure (f a)).Ends result ↔ ∃ r, x.Ends r ∧ result = r.map f := by
  simp only [ends_bind, ends_pure]
  constructor
  · rintro (⟨error, ended, same⟩ | ⟨a, ended, same⟩)
    · exact ⟨.error error, ended, same⟩
    · exact ⟨.ok a, ended, same⟩
  · rintro ⟨r, ended, same⟩
    cases r with
    | error error => exact .inl ⟨error, ended, same⟩
    | ok a => exact .inr ⟨a, ended, same⟩

end Ends

section Agree

variable {P : ScenarioError → Prop} {x y : Eval α} {f g : α → Eval β}

theorem agree_pure (a : α) : Agree P (pure a : Eval α) (pure a) :=
  ⟨.ok a, ends_pure.mpr rfl, ends_pure.mpr rfl, by simp⟩

theorem agree_throw {e : ScenarioError} (h : P e) : Agree P (throw e : Eval α) (throw e) :=
  ⟨.error e, ends_throw.mpr rfl, ends_throw.mpr rfl, by simpa using h⟩

theorem agree_ofExcept {r : Except ScenarioError α} (h : ∀ e, r = .error e → P e) :
    Agree P (ofExcept r) (ofExcept r) :=
  ⟨r, ends_ofExcept.mpr rfl, ends_ofExcept.mpr rfl, h⟩

/-- Two readings that first get the same answer agree if their rests do. -/
theorem agree_bind_of_ok {a : α} (hx : x.Ends (.ok a)) (hy : y.Ends (.ok a))
    (rest : (f a).Agree P (g a)) : (x >>= f).Agree P (y >>= g) := by
  obtain ⟨result, ended, ended', errors⟩ := rest
  exact ⟨result, ends_bind.mpr (.inr ⟨a, hx, ended⟩), ends_bind.mpr (.inr ⟨a, hy, ended'⟩), errors⟩

theorem Agree.bind (hx : x.Agree P y) (hf : ∀ a, x.Ends (.ok a) → (f a).Agree P (g a)) :
    (x >>= f).Agree P (y >>= g) := by
  obtain ⟨result, ended, ended', errors⟩ := hx
  cases result with
  | error e =>
    exact ⟨.error e, ends_bind.mpr (.inl ⟨e, ended, rfl⟩), ends_bind.mpr (.inl ⟨e, ended', rfl⟩),
      by simpa using errors⟩
  | ok a => exact agree_bind_of_ok ended ended' (hf a ended)

theorem Agree.attempt_bind {f g : Except ScenarioError α → Eval β} (hx : x.Agree P y)
    (hf : ∀ r, x.Ends r → (∀ e, r = .error e → P e) → (f r).Agree P (g r)) :
    (x.attempt >>= f).Agree P (y.attempt >>= g) := by
  obtain ⟨r, ended, ended', errors⟩ := hx
  obtain ⟨result, rest, rest', errors'⟩ := hf r ended errors
  exact ⟨result, ends_attempt_bind.mpr ⟨r, ended, rest⟩, ends_attempt_bind.mpr ⟨r, ended', rest'⟩,
    errors'⟩

theorem Agree.eq (h : x.Agree P y) : x = y := by
  obtain ⟨result, ended, ended', -⟩ := h
  exact ended.trans ended'.symm

theorem Agree.total (h : x.Agree P y) : x.Total := by
  obtain ⟨result, ended, -⟩ := h
  exact ⟨result, ended⟩

theorem Agree.error {e : ScenarioError} (h : x.Agree P y) (failed : x.Ends (.error e)) : P e := by
  obtain ⟨result, ended, -, errors⟩ := h
  exact errors e (ended.unique failed)

/-- A reading that comes to something agrees with itself. -/
theorem Total.agree (h : x.Total) : x.Agree (fun _ => True) x := by
  obtain ⟨result, ended⟩ := h
  exact ⟨result, ended, ended, fun _ _ => trivial⟩

theorem total_ofExcept (r : Except ScenarioError α) : Total (ofExcept r) :=
  ⟨_, ends_ofExcept.mpr rfl⟩

end Agree

end Eval

end MarketScript
