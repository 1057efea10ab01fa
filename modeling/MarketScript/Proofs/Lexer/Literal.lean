import MarketScript.Proofs.Lexer.Progress

/-!
# Quoted texts

The inside of a quoted text is a literal: characters that stand for themselves, and escapes.  After
the opening quote the automaton reads a literal up to the closing quote, or it reports something.
-/

namespace MarketScript

namespace Lexer

/-- A character that stands for itself in a quoted text. -/
def Ordinary (c : Char) : Prop := c ≠ '"' ∧ c ≠ '\\' ∧ c ≠ '\n'

/-- What a backslash and a character stand for. -/
def unescape? : Char → Option Char
  | 'n' => some '\n'
  | 't' => some '\t'
  | '"' => some '"'
  | '\\' => some '\\'
  | _ => none

/-- The inside of a quoted text as it is written, and its content. -/
inductive Literal : List Char → List Char → Prop
  | nil : Literal [] []
  | ordinary {c : Char} {body content : List Char} (itself : Ordinary c)
      (rest : Literal body content) : Literal (c :: body) (c :: content)
  | escape {c d : Char} {body content : List Char} (known : unescape? c = some d)
      (rest : Literal body content) : Literal ('\\' :: c :: body) (d :: content)

theorem literal_of_ordinary {cs : List Char} (h : ∀ c ∈ cs, Ordinary c) : Literal cs cs := by
  induction cs with
  | nil => exact .nil
  | cons c cs ih =>
    obtain ⟨itself, h⟩ := List.forall_mem_cons.mp h
    exact .ordinary itself (ih h)

theorem eq_backslash_of_unescape? {c : Char} (h : unescape? c = some '\\') : c = '\\' := by
  unfold unescape? at h
  split at h <;> simp_all

/-- Only where nothing is escaped does a literal up to a quote begin as its own content up to a
    quote does.  Every backslash that is escaped puts the two one further apart, which the run of
    backslashes in front counts. -/
theorem Literal.ordinary_of_shift {body content rest rest' : List Char} (h : Literal body content)
    {k : Nat} (same : List.replicate k '\\' ++ (body ++ '"' :: rest') = content ++ '"' :: rest) :
    k = 0 ∧ ∀ c ∈ content, Ordinary c := by
  induction h generalizing k with
  | nil =>
    cases k with
    | zero => simp
    | succ k => simp [List.replicate_succ] at same
  | @ordinary c body content itself _ ih =>
    cases k with
    | zero =>
      obtain ⟨-, others⟩ := ih (k := 0) (List.cons.inj same).2
      exact ⟨rfl, List.forall_mem_cons.mpr ⟨itself, others⟩⟩
    | succ k =>
      have head : '\\' = c := (List.cons.inj same).1
      exact absurd head.symm itself.2.1
  | @escape c d body content known _ ih =>
    have turn (cs : List Char) :
        List.replicate k '\\' ++ '\\' :: cs = '\\' :: (List.replicate k '\\' ++ cs) := by
      rw [← List.cons_append, ← List.replicate_succ, List.replicate_succ', List.append_assoc]
      rfl
    rw [List.cons_append, turn] at same
    obtain ⟨head, tail⟩ := List.cons.inj same
    rw [← head] at known
    rw [eq_backslash_of_unescape? known, List.cons_append, turn] at tail
    exact absurd (ih (k := k + 1) tail).1 (Nat.succ_ne_zero k)

namespace State

variable {s : State} {start : Position} {chars body content : List Char} {c d : Char}

theorem step_quoted (mode : s.mode = .quoted start chars) (itself : Ordinary c) :
    s.step c = { s with mode := .quoted start (c :: chars), position := s.position.step c } := by
  simp [step, mode, itself.1, itself.2.1, itself.2.2]

/-- Between tokens a quote opens a quoted text. -/
theorem step_quote (idle : s.mode = .idle) :
    s.step '"' = { s with mode := .quoted s.position [], position := s.position.step '"' } := by
  rw [step_idle idle]
  rfl

theorem step_quoted_quote (mode : s.mode = .quoted start chars) :
    s.step '"' = { s with position := s.position.step '"' }.endQuoted start chars := by
  simp [step, mode]

theorem step_quoted_newline (mode : s.mode = .quoted start chars) :
    s.step '\n' = { s with position := s.position.step '\n' }.breakQuoted start chars := by
  simp [step, mode]

theorem step_quoted_backslash (mode : s.mode = .quoted start chars) :
    s.step '\\' = { s with mode := .escape start chars, position := s.position.step '\\' } := by
  simp [step, mode]

theorem step_escape (mode : s.mode = .escape start chars) (known : unescape? c = some d) :
    s.step c = { s with mode := .quoted start (d :: chars), position := s.position.step c } := by
  unfold unescape? at known
  split at known <;> cases known <;> simp [step, mode]

theorem step_escape_unknown (mode : s.mode = .escape start chars) (unknown : unescape? c = none) :
    ∃ message span, s.step c =
      { ({ s with position := s.position.step c }.report message span) with
        mode := .quoted start (c :: chars) } := by
  unfold unescape? at unknown
  split at unknown
  · cases unknown
  · cases unknown
  · cases unknown
  · cases unknown
  · rename_i hn ht hq hb
    exact ⟨s!"unknown escape sequence '\\{c}'", ⟨start, s.position.step c⟩, by
      simp [step, mode, report]⟩

/-- A literal is read as its content. -/
theorem read_literal (h : Literal body content) (mode : s.mode = .quoted start chars) :
    s.read body = { s with mode := .quoted start (content.reverse ++ chars),
                           position := s.position.walk body } := by
  induction h generalizing s chars with
  | nil =>
    rw [List.reverse_nil, List.nil_append, ← mode]
    rfl
  | @ordinary c body content itself _ ih =>
    rw [read_cons, step_quoted mode itself, ih rfl]
    simp
  | @escape c d body content known _ ih =>
    rw [read_cons, step_quoted_backslash mode, read_cons, step_escape rfl known, ih rfl]
    simp

/-- The closing quote makes the token. -/
theorem read_literal_quote (h : Literal body content) (mode : s.mode = .quoted start []) :
    s.read (body ++ ['"']) =
      { s with mode := .idle, position := s.position.walk (body ++ ['"']),
               tokens := ⟨.str, String.ofList content, ⟨start, s.position.walk (body ++ ['"'])⟩⟩ ::
                 s.tokens } := by
  rw [read_append, read_literal h mode, read_cons, step_quoted_quote rfl]
  simp [endQuoted, emit]

/-- What has been reported stays reported. -/
theorem diagnostics_ne_nil_of_grows {s' : State} (h : s.Grows s') (reported : s.diagnostics ≠ []) :
    s'.diagnostics ≠ [] := by
  intro none
  have := h.diagnostics
  rw [none, List.suffix_nil] at this
  exact reported this

theorem diagnostics_read_ne_nil (reported : s.diagnostics ≠ []) (cs : List Char) :
    (s.read cs).close.diagnostics ≠ [] :=
  diagnostics_ne_nil_of_grows ((s.grows_read cs).trans (grows_close _)) reported

/-- A literal and its closing quote begin the text. -/
def Closed (cs : List Char) : Prop :=
  ∃ body content rest, cs = body ++ '"' :: rest ∧ Literal body content

/-- Whoever reads the text inside a quoted text has something to report. -/
def Reported (cs : List Char) : Prop :=
  ∀ (s : State) start chars, s.mode = .quoted start chars → (s.read cs).close.diagnostics ≠ []

variable {cs : List Char}

theorem Closed.ordinary (itself : Ordinary c) : Closed cs → Closed (c :: cs) := by
  rintro ⟨body, content, rest, rfl, h⟩
  exact ⟨c :: body, c :: content, rest, rfl, .ordinary itself h⟩

theorem Closed.escape (known : unescape? c = some d) : Closed cs → Closed ('\\' :: c :: cs) := by
  rintro ⟨body, content, rest, rfl, h⟩
  exact ⟨'\\' :: c :: body, d :: content, rest, rfl, .escape known h⟩

theorem Reported.ordinary (itself : Ordinary c) (h : Reported cs) : Reported (c :: cs) := by
  intro s start chars mode
  rw [read_cons, step_quoted mode itself]
  exact h _ _ _ rfl

theorem Reported.escape (known : unescape? c = some d) (h : Reported cs) :
    Reported ('\\' :: c :: cs) := by
  intro s start chars mode
  rw [read_cons, step_quoted_backslash mode, read_cons, step_escape rfl known]
  exact h _ _ _ rfl

theorem reported_unknown (unknown : unescape? c = none) : Reported ('\\' :: c :: cs) := by
  intro s start chars mode
  rw [read_cons, step_quoted_backslash mode, read_cons]
  obtain ⟨message, span, same⟩ := step_escape_unknown (s := { s with
    mode := .escape start chars, position := s.position.step '\\' }) rfl unknown
  rw [same]
  exact diagnostics_read_ne_nil (List.cons_ne_nil _ _) cs

theorem reported_newline : Reported ('\n' :: cs) := by
  intro s start chars mode
  rw [read_cons, step_quoted_newline mode]
  exact diagnostics_read_ne_nil (List.cons_ne_nil _ _) cs

theorem reported_nil : Reported [] := by
  intro s start chars mode
  simp [close, mode, breakQuoted, report, endQuoted, emit]

theorem reported_backslash : Reported ['\\'] := by
  intro s start chars mode
  simp [step_quoted_backslash mode, close, breakQuoted, report, endQuoted, emit]

/-- After an opening quote comes a literal with its closing quote, or something to report. -/
theorem closed_or_reported (cs : List Char) : Closed cs ∨ Reported cs := by
  match cs with
  | [] => exact .inr reported_nil
  | c :: cs =>
    by_cases quote : c = '"'
    · exact .inl ⟨[], [], cs, by rw [quote, List.nil_append], .nil⟩
    · by_cases newline : c = '\n'
      · exact .inr (newline ▸ reported_newline)
      · by_cases backslash : c = '\\'
        · -- a backslash takes the next character with it, so the list may shrink by two
          subst backslash
          match cs with
          | [] => exact .inr reported_backslash
          | c :: cs =>
            cases known : unescape? c with
            | some d => exact (closed_or_reported cs).imp (.escape known) (.escape known)
            | none => exact .inr (reported_unknown known)
        · have itself : Ordinary c := ⟨quote, backslash, newline⟩
          exact (closed_or_reported cs).imp (.ordinary itself) (.ordinary itself)
termination_by cs.length

end State

end Lexer

end MarketScript
