import MarketScript.Lexer

/-!
# Progress of the automaton

Tokens and diagnostics are only added, and the position is always that of the text read so far.  The
end of the text is not among the tokens before the text has ended.
-/

namespace MarketScript

namespace Lexer.State

/-- What one state has told, another has told too. -/
structure Grows (s s' : State) : Prop where
  tokens : s.tokens <:+ s'.tokens
  unended : (∀ t ∈ s.tokens, t.kind ≠ .eof) → ∀ t ∈ s'.tokens, t.kind ≠ .eof
  diagnostics : s.diagnostics <:+ s'.diagnostics

variable {s s' s'' : State}

theorem Grows.refl (s : State) : s.Grows s := ⟨List.suffix_refl _, id, List.suffix_refl _⟩

theorem Grows.trans (h : s.Grows s') (h' : s'.Grows s'') : s.Grows s'' :=
  ⟨h.tokens.trans h'.tokens, h'.unended ∘ h.unended, h.diagnostics.trans h'.diagnostics⟩

/-- A state that differs in what it is in the middle of, but has told the same. -/
theorem grows_of_eq (tokens : s'.tokens = s.tokens) (diagnostics : s'.diagnostics = s.diagnostics) :
    s.Grows s' :=
  ⟨tokens ▸ List.suffix_refl _, tokens ▸ id, diagnostics ▸ List.suffix_refl _⟩

section Parts

variable (s : State) (start : Position) (chars : List Char) (c : Char) (span : Span)

theorem grows_emit (kind : TokenKind) (inside : kind ≠ .eof) (lexeme : String) :
    s.Grows (s.emit kind lexeme span) :=
  ⟨List.suffix_cons _ _, fun unended => List.forall_mem_cons.mpr ⟨inside, unended⟩,
    List.suffix_refl _⟩

theorem grows_report (message : String) : s.Grows (s.report message span) :=
  ⟨List.suffix_refl _, id, List.suffix_cons _ _⟩

theorem grows_endLine : s.Grows (s.endLine span) := by
  unfold endLine
  split
  · exact .refl s
  · split
    · exact .refl s
    · exact s.grows_emit _ .newline nofun _

theorem grows_endWord : s.Grows (s.endWord start chars) :=
  (s.grows_emit _ .word nofun _).trans (grows_of_eq rfl rfl)

theorem grows_endQuoted : s.Grows (s.endQuoted start chars) :=
  (s.grows_emit _ .str nofun _).trans (grows_of_eq rfl rfl)

theorem grows_breakQuoted : s.Grows (s.breakQuoted start chars) :=
  (s.grows_report ..).trans (grows_endQuoted ..)

theorem grows_begin : s.Grows (s.begin start c) := by
  unfold begin
  dsimp only
  split
  · split
    · exact s.grows_endLine _
    · exact .refl s
  · exact (s.grows_emit _ .leftParen nofun _).trans (grows_of_eq rfl rfl)
  · exact (s.grows_emit _ .rightParen nofun _).trans (grows_of_eq rfl rfl)
  · exact grows_of_eq rfl rfl
  · exact grows_of_eq rfl rfl
  · split
    · exact .refl s
    · exact grows_of_eq rfl rfl

end Parts

theorem Grows.begin (h : s.Grows s') (start : Position) (c : Char) : s.Grows (s'.begin start c) :=
  h.trans (grows_begin ..)

theorem grows_continueWord (s : State) (start here : Position) (chars : List Char) (c : Char) :
    s.Grows (s.continueWord start here chars c) := by
  unfold continueWord
  split
  · exact grows_of_eq rfl rfl
  · refine Grows.begin ?_ here c
    exact (s.grows_endWord start chars).trans (grows_of_eq rfl rfl)

theorem grows_step (s : State) (c : Char) : s.Grows (s.step c) := by
  have moved : s.Grows { s with position := s.position.step c } := grows_of_eq rfl rfl
  unfold step
  dsimp only
  split
  · exact moved.begin ..
  · split
    · exact grows_of_eq rfl rfl
    · exact grows_continueWord ..
  · split
    · refine Grows.begin ?_ _ _
      exact grows_of_eq rfl rfl
    · exact moved
  · exact grows_continueWord ..
  · split
    · exact moved.trans (grows_endQuoted ..)
    · exact moved.trans (grows_breakQuoted ..)
    · exact grows_of_eq rfl rfl
    · exact grows_of_eq rfl rfl
  · split
    · exact grows_of_eq rfl rfl
    · exact grows_of_eq rfl rfl
    · exact grows_of_eq rfl rfl
    · exact grows_of_eq rfl rfl
    · exact (moved.trans (grows_report ..)).trans (grows_of_eq rfl rfl)

theorem grows_read (s : State) (cs : List Char) : s.Grows (s.read cs) := by
  induction cs generalizing s with
  | nil => exact .refl s
  | cons c cs ih => exact (s.grows_step c).trans (ih (s.step c))

theorem grows_close (s : State) : s.Grows s.close := by
  unfold close
  split
  · exact .refl s
  · exact grows_of_eq rfl rfl
  · exact s.grows_endWord ..
  · exact s.grows_endWord ..
  · exact s.grows_breakQuoted ..
  · exact s.grows_breakQuoted ..

section Position

@[simp] theorem position_begin (s : State) (start : Position) (c : Char) :
    (s.begin start c).position = s.position := by
  unfold begin endLine
  dsimp only
  repeat' split
  all_goals rfl

theorem position_continueWord (s : State) (start here : Position) (chars : List Char) (c : Char) :
    (s.continueWord start here chars c).position = here.step c := by
  unfold continueWord
  split
  · rfl
  · rw [position_begin]

theorem position_step (s : State) (c : Char) : (s.step c).position = s.position.step c := by
  unfold step
  dsimp only
  split
  · rw [position_begin]
  · split
    · rfl
    · rw [position_continueWord]
  · split
    · rw [position_begin]
    · rfl
  · rw [position_continueWord]
  · split <;> rfl
  · split <;> rfl

@[simp] theorem position_read (s : State) (cs : List Char) :
    (s.read cs).position = s.position.walk cs := by
  induction cs generalizing s with
  | nil => rfl
  | cons c cs ih => rw [read_cons, ih, position_step, Position.walk_cons]

@[simp] theorem position_close (s : State) : s.close.position = s.position := by
  unfold close
  split <;> rfl

end Position

theorem diagnostics_begin (s : State) (start : Position) (c : Char) :
    (s.begin start c).diagnostics = s.diagnostics := by
  unfold begin endLine
  dsimp only
  repeat' split
  all_goals rfl

theorem diagnostics_continueWord (s : State) (start here : Position) (chars : List Char)
    (c : Char) : (s.continueWord start here chars c).diagnostics = s.diagnostics := by
  unfold continueWord
  split
  · rfl
  · rw [diagnostics_begin]
    rfl

/-- Between tokens a character begins something. -/
theorem step_idle {s : State} (idle : s.mode = .idle) (c : Char) :
    s.step c = { s with position := s.position.step c }.begin s.position c := by
  unfold step
  rw [idle]

theorem close_idle (s : State) : s.close.mode = .idle := by
  unfold close
  split
  · assumption
  all_goals rfl

theorem depth_close (s : State) : s.close.depth = s.depth := by
  unfold close
  split <;> rfl

end Lexer.State

end MarketScript
