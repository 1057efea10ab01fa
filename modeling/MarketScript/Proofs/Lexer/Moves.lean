import Mathlib.Data.List.Induction
import MarketScript.Proofs.Lexer.Literal
import MarketScript.Proofs.Lexer.Word

/-!
# Moves of the automaton

What one character can do, said once.  It goes on with what the automaton is in the middle of, or it
ends a quoted text, or it is read as if what came before had been closed and then begins something.
-/

namespace MarketScript

namespace Lexer

/-- What the automaton is in the middle of, and what it is in the middle of after a character that
    tells nothing. -/
inductive Mode.Goes : Mode → Char → Mode → Prop
  | comments {start : Position} : Goes (.hyphen start) '-' .comment
  | comment {c : Char} (other : c ≠ '\n') : Goes .comment c .comment
  | hyphen {start : Position} {c : Char} (goesOn : isWordChar c = true) (other : c ≠ '-') :
      Goes (.hyphen start) c (.word start [c, '-'])
  | word {start : Position} {chars : List Char} {c : Char} (goesOn : isWordChar c = true) :
      Goes (.word start chars) c (.word start (c :: chars))
  | ordinary {start : Position} {chars : List Char} {c : Char} (itself : Ordinary c) :
      Goes (.quoted start chars) c (.quoted start (c :: chars))
  | backslash {start : Position} {chars : List Char} :
      Goes (.quoted start chars) '\\' (.escape start chars)
  | escape {start : Position} {chars : List Char} {c d : Char} (known : unescape? c = some d) :
      Goes (.escape start chars) c (.quoted start (d :: chars))

/-- What a character begins that is no blank and no token by itself. -/
inductive Mode.Opens (start : Position) : Char → Mode → Prop
  | quoted : Opens start '"' (.quoted start [])
  | hyphen : Opens start '-' (.hyphen start)
  | word {c : Char} (begins : isWordChar c = true) (other : c ≠ '-') :
      Opens start c (.word start [c])

/-- Where the token begins that the automaton is in the middle of. -/
def Mode.start? : Mode → Option Position
  | .idle | .comment => none
  | .hyphen start | .word start _ | .quoted start _ | .escape start _ => some start

namespace State

/-- What a character does between tokens. -/
inductive Begins (s : State) (c : Char) : State → Prop
  /-- It is skipped. -/
  | skips (blank : isBlank c = true) : Begins s c { s with position := s.position.step c }
  /-- It is a token by itself. -/
  | tells {kind : TokenKind} {depth : Nat}
      (single : kind = .newline ∧ c = '\n' ∧ depth = s.depth ∧ s.depth = 0 ∨
        kind = .leftParen ∧ c = '(' ∧ depth = s.depth + 1 ∨
        kind = .rightParen ∧ c = ')' ∧ depth = s.depth - 1) :
      Begins s c
        { s with position := s.position.step c, depth,
                 tokens := ⟨kind, String.singleton c, ⟨s.position, s.position.step c⟩⟩ :: s.tokens }
  | opens {mode : Mode} (opens : mode.Opens s.position c) :
      Begins s c { s with mode, position := s.position.step c }

/-- What a character does. -/
inductive Moves (s : State) (c : Char) : State → Prop
  /-- It goes on with what the automaton is in the middle of. -/
  | goes {mode : Mode} (goes : s.mode.Goes c mode) :
      Moves s c { s with mode, position := s.position.step c }
  /-- It makes no escape and stands for itself. -/
  | misread {start : Position} {chars : List Char} (mode : s.mode = .escape start chars)
      (unknown : unescape? c = none) :
      Moves s c
        { s with
          mode := .quoted start (c :: chars), position := s.position.step c
          diagnostics := { message := s!"unknown escape sequence '\\{c}'",
                           span := ⟨start, s.position.step c⟩ } :: s.diagnostics }
  /-- It ends a quoted text. -/
  | quotes {start : Position} {chars : List Char} (mode : s.mode = .quoted start chars)
      (quote : c = '"') :
      Moves s c ({ s with position := s.position.step c }.endQuoted start chars)
  /-- It breaks a quoted text off. -/
  | breaks {start : Position} {chars : List Char} (mode : s.mode = .quoted start chars)
      (newline : c = '\n') :
      Moves s c ({ s with position := s.position.step c }.breakQuoted start chars)
  /-- What came before it is closed, and it begins something. -/
  | begins {t : State} (unquoted : s.mode.quoting = false) (same : s.step c = s.close.step c)
      (begins : s.close.Begins c t) : Moves s c t

variable {s : State} {c : Char}

theorem begins_endLine (level : s.depth = 0) :
    s.Begins '\n' ({ s with position := s.position.step '\n' }.endLine
      ⟨s.position, s.position.step '\n'⟩) := by
  unfold endLine
  split
  · exact .skips (by decide)
  · split
    · exact .skips (by decide)
    · exact .tells (.inl ⟨rfl, rfl, rfl, level⟩)

theorem begins_step (idle : s.mode = .idle) (c : Char) : s.Begins c (s.step c) := by
  rw [step_idle idle]
  unfold begin
  dsimp only
  split
  · split
    · rename_i level
      exact begins_endLine level
    · exact .skips (by decide)
  · exact .tells (.inr (.inl ⟨rfl, rfl, rfl⟩))
  · exact .tells (.inr (.inr ⟨rfl, rfl, rfl⟩))
  · exact .opens .quoted
  · exact .opens .hyphen
  · rename_i _ noOpen noClose noQuote noHyphen
    split
    · rename_i blank
      exact .skips blank
    · rename_i blank
      exact .opens (.word (isWordChar_iff.mpr
        ⟨eq_false_of_ne_true blank, noOpen, noClose, noQuote⟩) noHyphen)

theorem moves_of_step_close (unquoted : s.mode.quoting = false)
    (same : s.step c = s.close.step c) : s.Moves c (s.step c) := by
  have begins := begins_step (close_idle s) c
  rw [← same] at begins
  exact .begins unquoted same begins

/-- Whatever is read, it makes one of the moves. -/
theorem moves_step (s : State) (c : Char) : s.Moves c (s.step c) := by
  cases mode : s.mode with
  | idle =>
    refine moves_of_step_close (by rw [mode]; rfl) ?_
    rw [close, mode]
  | hyphen start =>
    have unquoted : s.mode.quoting = false := by rw [mode]; rfl
    by_cases hyphen : c = '-'
    · subst hyphen
      have same : s.step '-' = { s with mode := .comment, position := s.position.step '-' } := by
        simp [step, mode]
      rw [same]
      exact .goes (mode ▸ .comments)
    · by_cases goesOn : isWordChar c = true
      · rw [step_after_hyphen mode goesOn hyphen]
        exact .goes (mode ▸ .hyphen goesOn hyphen)
      · exact moves_of_step_close unquoted
          (step_delimiter unquoted (by simp [mode]) (eq_false_of_ne_true goesOn))
  | comment =>
    have unquoted : s.mode.quoting = false := by rw [mode]; rfl
    by_cases newline : c = '\n'
    · subst newline
      exact moves_of_step_close unquoted (step_newline unquoted)
    · have same : s.step c = { s with mode := .comment, position := s.position.step c } := by
        simp [step, mode, newline]
      rw [same]
      exact .goes (mode ▸ .comment newline)
  | word start chars =>
    have unquoted : s.mode.quoting = false := by rw [mode]; rfl
    by_cases goesOn : isWordChar c = true
    · have same : s.step c =
          { s with mode := .word start (c :: chars), position := s.position.step c } := by
        simp [step, mode, continueWord, goesOn]
      rw [same]
      exact .goes (mode ▸ .word goesOn)
    · exact moves_of_step_close unquoted
        (step_delimiter unquoted (by simp [mode]) (eq_false_of_ne_true goesOn))
  | quoted start chars =>
    by_cases quote : c = '"'
    · subst quote
      rw [step_quoted_quote mode]
      exact .quotes mode rfl
    · by_cases newline : c = '\n'
      · subst newline
        rw [step_quoted_newline mode]
        exact .breaks mode rfl
      · by_cases backslash : c = '\\'
        · subst backslash
          rw [step_quoted_backslash mode]
          exact .goes (mode ▸ .backslash)
        · have itself : Ordinary c := ⟨quote, backslash, newline⟩
          rw [step_quoted mode itself]
          exact .goes (mode ▸ .ordinary itself)
  | escape start chars =>
    cases known : unescape? c with
    | some d =>
      rw [step_escape mode known]
      exact .goes (mode ▸ .escape known)
    | none =>
      have same : s.step c =
          { s with
            mode := .quoted start (c :: chars), position := s.position.step c
            diagnostics := { message := s!"unknown escape sequence '\\{c}'",
                             span := ⟨start, s.position.step c⟩ } :: s.diagnostics } := by
        unfold unescape? at known
        split at known
        · cases known
        · cases known
        · cases known
        · cases known
        · simp [step, mode, report]
      rw [same]
      exact .misread mode known

/-- At the end of a text comes the token that the automaton is in the middle of. -/
theorem tokens_close (s : State) :
    s.mode.start? = none ∧ s.close.tokens = s.tokens ∨
      ∃ t start, s.mode.start? = some start ∧ t.span = ⟨start, s.position⟩ ∧
        (t.kind = .str ↔ s.mode.quoting = true) ∧ s.close.tokens = t :: s.tokens := by
  unfold close
  cases mode : s.mode with
  | idle => exact .inl ⟨rfl, rfl⟩
  | comment => exact .inl ⟨rfl, rfl⟩
  | hyphen start => exact .inr ⟨_, start, rfl, rfl, by simp [Mode.quoting], rfl⟩
  | word start chars => exact .inr ⟨_, start, rfl, rfl, by simp [Mode.quoting], rfl⟩
  | quoted start chars => exact .inr ⟨_, start, rfl, rfl, by simp [Mode.quoting], rfl⟩
  | escape start chars => exact .inr ⟨_, start, rfl, rfl, by simp [Mode.quoting], rfl⟩

/-- Only a quoted text is wrong if it has no end. -/
theorem diagnostics_close (s : State) :
    s.mode.quoting = false ∧ s.close.diagnostics = s.diagnostics ∨
      ∃ start, s.mode.quoting = true ∧ s.mode.start? = some start ∧
        s.close.diagnostics =
          { message := "unterminated string literal", span := ⟨start, s.position⟩ } ::
            s.diagnostics := by
  unfold close
  cases mode : s.mode with
  | idle => exact .inl ⟨rfl, rfl⟩
  | comment => exact .inl ⟨rfl, rfl⟩
  | hyphen start => exact .inl ⟨rfl, rfl⟩
  | word start chars => exact .inl ⟨rfl, rfl⟩
  | quoted start chars => exact .inr ⟨start, rfl, rfl, rfl⟩
  | escape start chars => exact .inr ⟨start, rfl, rfl, rfl⟩

/-- What can be reported: a quoted text that has no end, or an escape that there is none of. -/
def Reportable (d : Diagnostic) : Prop :=
  d.message = "unterminated string literal" ∨
    ∃ c : Char, d.message = s!"unknown escape sequence '\\{c}'"

theorem reportable_close (h : ∀ d ∈ s.diagnostics, Reportable d) :
    ∀ d ∈ s.close.diagnostics, Reportable d := by
  rcases s.diagnostics_close with ⟨-, same⟩ | ⟨start, -, -, more⟩
  · rwa [same]
  · rw [more]
    exact List.forall_mem_cons.mpr ⟨.inl rfl, h⟩

theorem reportable_step (h : ∀ d ∈ s.diagnostics, Reportable d) (c : Char) :
    ∀ d ∈ (s.step c).diagnostics, Reportable d := by
  have moves := s.moves_step c
  generalize s.step c = next at moves
  cases moves with
  | goes => exact h
  | misread => exact List.forall_mem_cons.mpr ⟨.inr ⟨c, rfl⟩, h⟩
  | quotes => exact h
  | breaks => exact List.forall_mem_cons.mpr ⟨.inl rfl, h⟩
  | begins _ _ begins =>
    have closed := reportable_close h
    cases begins with
    | skips => exact closed
    | tells => exact closed
    | opens => exact closed

theorem reportable_read (cs : List Char) : ∀ d ∈ (read {} cs).diagnostics, Reportable d := by
  induction cs using List.reverseRecOn with
  | nil => simp
  | append_singleton cs c ih =>
    rw [read_append, read_cons, read_nil]
    exact reportable_step ih c

end State

end Lexer

end MarketScript
