import Mathlib.Tactic.MkIffOfInductiveProp
import MarketScript.Proofs.Lexer.Progress

/-!
# Words and what ends them

A word goes on up to a blank, a parenthesis or a quote.  Such a character completes the word before
it is read itself, so that reading it is the same as closing first.
-/

namespace MarketScript

namespace Lexer

/-- In the middle of a quoted text. -/
def Mode.quoting : Mode → Bool
  | .quoted .. | .escape .. => true
  | _ => false

/-- Text that can stand in a script as a bare word. -/
@[mk_iff lexable_iff]
structure Lexable (w : String) : Prop where
  filled : w ≠ ""
  chars : ∀ c ∈ w.toList, isBlank c = false ∧ c ≠ '(' ∧ c ≠ ')' ∧ c ≠ '"'
  /-- It would be a comment otherwise. -/
  uncommented : ¬ ['-', '-'] <+: w.toList

theorem isWordChar_iff {c : Char} :
    isWordChar c = true ↔ isBlank c = false ∧ c ≠ '(' ∧ c ≠ ')' ∧ c ≠ '"' := by
  simp [isWordChar, and_assoc]

instance (w : String) : Decidable (Lexable w) :=
  decidable_of_iff (w ≠ "" ∧ w.toList.all isWordChar ∧ ¬ ['-', '-'] <+: w.toList) (by
    rw [lexable_iff, List.all_eq_true]
    simp only [isWordChar_iff])

namespace State

variable {s : State} {start : Position} {chars cs : List Char} {c : Char}

/-- A character that cannot continue a word completes it. -/
theorem step_delimiter (unquoted : s.mode.quoting = false) (uncommented : s.mode ≠ .comment)
    (delimits : isWordChar c = false) : s.step c = s.close.step c := by
  have hyphen : c ≠ '-' := by
    rintro rfl
    revert delimits
    decide
  cases mode : s.mode with
  | idle => simp [close, mode]
  | hyphen => simp [step, close, mode, continueWord, delimits, hyphen, endWord, emit]
  | comment => exact absurd mode uncommented
  | word => simp [step, close, mode, continueWord, delimits, endWord, emit]
  | quoted | escape => simp [mode, Mode.quoting] at unquoted

/-- A newline ends whatever is not a quoted text. -/
theorem step_newline (unquoted : s.mode.quoting = false) : s.step '\n' = s.close.step '\n' := by
  by_cases mode : s.mode = .comment
  · simp [step, close, mode]
  · exact step_delimiter unquoted mode (by decide)

theorem read_word_chars (mode : s.mode = .word start chars)
    (h : ∀ c ∈ cs, isWordChar c = true) :
    s.read cs = { s with mode := .word start (cs.reverse ++ chars),
                         position := s.position.walk cs } := by
  induction cs generalizing s chars with
  | nil =>
    rw [List.reverse_nil, List.nil_append, ← mode]
    rfl
  | cons c cs ih =>
    obtain ⟨hc, h⟩ := List.forall_mem_cons.mp h
    have next : s.step c =
        { s with mode := .word start (c :: chars), position := s.position.step c } := by
      simp [step, mode, continueWord, hc]
    rw [read_cons, next, ih rfl h]
    simp

theorem begin_word (s : State) (start : Position) (hc : isWordChar c = true) (hyphen : c ≠ '-') :
    s.begin start c = { s with mode := .word start [c] } := by
  unfold begin
  dsimp only
  split
  · exact absurd hc (by decide)
  · exact absurd hc (by decide)
  · exact absurd hc (by decide)
  · exact absurd hc (by decide)
  · exact absurd rfl hyphen
  · rw [(isWordChar_iff.mp hc).1]
    rfl

/-- A character that begins a word. -/
theorem step_word (idle : s.mode = .idle) (hc : isWordChar c = true) (hyphen : c ≠ '-') :
    s.step c = { s with mode := .word s.position [c], position := s.position.step c } := by
  rw [step_idle idle, begin_word _ _ hc hyphen]

theorem step_hyphen (idle : s.mode = .idle) :
    s.step '-' = { s with mode := .hyphen s.position, position := s.position.step '-' } := by
  rw [step_idle idle]
  rfl

theorem step_after_hyphen (mode : s.mode = .hyphen start) (hc : isWordChar c = true)
    (hyphen : c ≠ '-') :
    s.step c = { s with mode := .word start [c, '-'], position := s.position.step c } := by
  simp [step, mode, hyphen, continueWord, hc]

/-- What the automaton is in the middle of after a word. -/
theorem read_word (idle : s.mode = .idle) {w : String} (lexable : Lexable w) :
    ∃ mode, s.read w.toList = { s with mode, position := s.position.walk w.toList } ∧
      (mode = .word s.position w.toList.reverse ∨
        mode = .hyphen s.position ∧ w.toList = ['-']) := by
  have filled : w.toList ≠ [] := by simpa using lexable.filled
  have all : ∀ c ∈ w.toList, isWordChar c = true :=
    fun c hc => isWordChar_iff.mpr (lexable.chars c hc)
  have uncommented := lexable.uncommented
  generalize w.toList = cs at filled all uncommented ⊢
  match cs with
  | [] => exact absurd rfl filled
  | c :: cs =>
    obtain ⟨hc, others⟩ := List.forall_mem_cons.mp all
    by_cases hyphen : c = '-'
    · subst hyphen
      match cs with
      | [] => exact ⟨.hyphen s.position, step_hyphen idle, .inr ⟨rfl, rfl⟩⟩
      | d :: cs =>
        obtain ⟨hd, others⟩ := List.forall_mem_cons.mp others
        have other : d ≠ '-' := by
          rintro rfl
          exact uncommented ⟨cs, rfl⟩
        refine ⟨.word s.position ('-' :: d :: cs).reverse, ?_, .inl rfl⟩
        rw [read_cons, step_hyphen idle, read_cons, step_after_hyphen rfl hd other,
          read_word_chars rfl others]
        simp
    · refine ⟨.word s.position (c :: cs).reverse, ?_, .inl rfl⟩
      rw [read_cons, step_word idle hc hyphen, read_word_chars rfl others]
      simp

end State

end Lexer

end MarketScript
