import MarketScript.Proofs.Lexer.Progress
import MarketScript.Proofs.Statement.Balance

/-!
# Ends of lines

A newline is told only where a line has something on it and no parenthesis is open.
-/

namespace MarketScript

namespace Lexer

/-- How many parentheses some tokens leave open; one that closes nothing does not count. -/
def nesting (ts : List Token) : Nat :=
  ts.foldl (fun depth t =>
    match t.kind with
    | .leftParen => depth + 1
    | .rightParen => depth - 1
    | _ => depth) 0

/-- Every newline ends a line that has something on it, outside parentheses. -/
def Lined (ts : List Token) : Prop :=
  ∀ before t, before ++ [t] <+: ts → t.kind = .newline →
    (∃ last ∈ before.getLast?, last.kind ≠ .newline) ∧ nesting before = 0

section Tokens

variable {ts : List Token} {t : Token}

theorem nesting_concat_open (h : t.kind = .leftParen) : nesting (ts ++ [t]) = nesting ts + 1 := by
  simp [nesting, h]

theorem nesting_concat_close (h : t.kind = .rightParen) : nesting (ts ++ [t]) = nesting ts - 1 := by
  simp [nesting, h]

theorem nesting_concat_other (hl : t.kind ≠ .leftParen) (hr : t.kind ≠ .rightParen) :
    nesting (ts ++ [t]) = nesting ts := by
  rw [nesting, List.foldl_append, List.foldl_cons, List.foldl_nil]
  cases kind : t.kind with
  | leftParen => exact absurd kind hl
  | rightParen => exact absurd kind hr
  | word | str | newline | eof => rfl

/-- Where nothing is closed that was not opened, what is open is what was opened and not closed. -/
theorem depth_of_supported (h : Line.Supported ts) : Line.depth ts = nesting ts := by
  induction ts using List.reverseRecOn with
  | nil => rfl
  | append_singleton ts t ih =>
    have earlier := ih h.of_append
    have level : 0 ≤ Line.depth (ts ++ [t]) := h _ (List.prefix_refl _)
    rw [Line.depth_append] at level ⊢
    by_cases hl : t.kind = .leftParen
    · rw [Line.depth_open hl, nesting_concat_open hl]
      omega
    · by_cases hr : t.kind = .rightParen
      · rw [Line.depth_close hr] at level ⊢
        rw [nesting_concat_close hr]
        omega
      · rw [Line.depth_other hl hr, nesting_concat_other hl hr]
        omega

theorem lined_nil : Lined [] := by
  intro before t along
  simp [List.prefix_nil] at along

theorem Lined.concat (h : Lined ts)
    (new : t.kind = .newline → (∃ last ∈ ts.getLast?, last.kind ≠ .newline) ∧ nesting ts = 0) :
    Lined (ts ++ [t]) := by
  intro before u along newline
  rcases List.prefix_concat_iff.mp along with same | along
  · obtain ⟨rfl, rfl⟩ := List.append_singleton_inj.mp same
    exact new newline
  · exact h before u along newline

end Tokens

namespace State

/-- The automaton knows how many parentheses are open, and has told newlines where they belong. -/
structure Level (s : State) : Prop where
  depth : s.depth = nesting s.tokens.reverse
  lined : Lined s.tokens.reverse

variable {s s' : State}

theorem Level.of_eq (h : s.Level) (tokens : s'.tokens = s.tokens) (depth : s'.depth = s.depth) :
    s'.Level := by
  constructor
  · rw [depth, tokens, h.depth]
  · rw [tokens]
    exact h.lined

/-- One more token that is no newline, with the parentheses counted. -/
theorem Level.tell (h : s.Level) {t : Token} (tokens : s'.tokens = t :: s.tokens)
    (depth : s'.depth = nesting (s.tokens.reverse ++ [t])) (kind : t.kind ≠ .newline) :
    s'.Level := by
  constructor
  · rw [depth, tokens, List.reverse_cons]
  · rw [tokens, List.reverse_cons]
    exact h.lined.concat fun newline => absurd newline kind

/-- One more token that is a word or a quoted text. -/
theorem Level.tell_text (h : s.Level) {t : Token} (tokens : s'.tokens = t :: s.tokens)
    (depth : s'.depth = s.depth) (kind : t.kind = .word ∨ t.kind = .str) : s'.Level := by
  have same : nesting (s.tokens.reverse ++ [t]) = nesting s.tokens.reverse := by
    apply nesting_concat_other
    · rcases kind with kind | kind <;> simp [kind]
    · rcases kind with kind | kind <;> simp [kind]
  refine h.tell tokens ?_ ?_
  · rw [depth, same, h.depth]
  · rcases kind with kind | kind <;> simp [kind]

theorem Level.endLine (h : s.Level) (closed : s.depth = 0) (span : Span) :
    (s.endLine span).Level := by
  unfold State.endLine
  split
  · exact h
  · rename_i last before told
    split
    · exact h
    · rename_i busy
      have ended : s.tokens.reverse.getLast? = some last := by simp [told]
      constructor
      · have same : nesting (s.tokens.reverse ++ [⟨.newline, "\n", span⟩]) =
            nesting s.tokens.reverse := nesting_concat_other nofun nofun
        show s.depth = nesting (_ :: s.tokens).reverse
        rw [List.reverse_cons, same, h.depth]
      · show Lined (_ :: s.tokens).reverse
        rw [List.reverse_cons]
        exact h.lined.concat fun _ => ⟨⟨last, ended, busy⟩, h.depth.symm.trans closed⟩

theorem Level.endWord (h : s.Level) (start : Position) (chars : List Char) :
    (s.endWord start chars).Level :=
  h.tell_text rfl rfl (.inl rfl)

theorem Level.endQuoted (h : s.Level) (start : Position) (chars : List Char) :
    (s.endQuoted start chars).Level :=
  h.tell_text rfl rfl (.inr rfl)

theorem Level.begin (h : s.Level) (start : Position) (c : Char) : (s.begin start c).Level := by
  unfold State.begin
  dsimp only
  split
  · split
    · rename_i closed
      exact h.endLine closed _
    · exact h
  · refine h.tell rfl ?_ nofun
    rw [nesting_concat_open rfl, ← h.depth]
  · refine h.tell rfl ?_ nofun
    rw [nesting_concat_close rfl, ← h.depth]
  · exact h.of_eq rfl rfl
  · exact h.of_eq rfl rfl
  · split
    · exact h
    · exact h.of_eq rfl rfl

theorem Level.continueWord (h : s.Level) (start here : Position) (chars : List Char) (c : Char) :
    (s.continueWord start here chars c).Level := by
  unfold State.continueWord
  split
  · exact h.of_eq rfl rfl
  · refine Level.begin ?_ here c
    exact (h.endWord start chars).of_eq rfl rfl

theorem Level.step (h : s.Level) (c : Char) : (s.step c).Level := by
  have moved : State.Level { s with position := s.position.step c } := h.of_eq rfl rfl
  unfold State.step
  dsimp only
  split
  · exact moved.begin ..
  · split
    · exact h.of_eq rfl rfl
    · exact h.continueWord ..
  · split
    · refine Level.begin ?_ _ _
      exact h.of_eq rfl rfl
    · exact moved
  · exact h.continueWord ..
  · split
    · exact moved.endQuoted ..
    · refine Level.endQuoted ?_ ..
      exact h.of_eq rfl rfl
    · exact h.of_eq rfl rfl
    · exact h.of_eq rfl rfl
  · split
    all_goals exact h.of_eq rfl rfl

theorem Level.close (h : s.Level) : s.close.Level := by
  unfold State.close
  split
  · exact h
  · exact h.of_eq rfl rfl
  · exact h.endWord ..
  · exact h.endWord ..
  · refine Level.endQuoted ?_ ..
    exact h.of_eq rfl rfl
  · refine Level.endQuoted ?_ ..
    exact h.of_eq rfl rfl

theorem level_read (cs : List Char) : (read {} cs).Level := by
  induction cs using List.reverseRecOn with
  | nil => exact ⟨rfl, lined_nil⟩
  | append_singleton cs c ih =>
    rw [read_append, read_cons, read_nil]
    exact ih.step c

end State

end Lexer

end MarketScript
