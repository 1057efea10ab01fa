import MarketScript.Proofs.Lexer.Progress

/-!
# Text that is told again

What is read of a text is the same wherever it stands, but for the places, if what came before it
was complete and a newline would not be a token.
-/

namespace MarketScript

/-- A token without its place. -/
def Token.unplaced (t : Token) : Token := { t with span := .synthetic }

theorem Token.kind_of_unplaced {t u : Token} (same : t.unplaced = u.unplaced) : t.kind = u.kind := by
  cases t
  cases u
  exact (Token.mk.inj same).1

namespace Lexer

/-- In the middle of the same, though not at the same place. -/
inductive Mode.Alike : Mode → Mode → Prop
  | idle : Alike .idle .idle
  | hyphen {start start' : Position} : Alike (.hyphen start) (.hyphen start')
  | comment : Alike .comment .comment
  | word {start start' : Position} {chars : List Char} :
      Alike (.word start chars) (.word start' chars)
  | quoted {start start' : Position} {chars : List Char} :
      Alike (.quoted start chars) (.quoted start' chars)
  | escape {start start' : Position} {chars : List Char} :
      Alike (.escape start chars) (.escape start' chars)

namespace State

/-- After some tokens one state has told what another one has. -/
structure Retells (earlier : List Token) (s s' : State) : Prop where
  depth : s.depth = s'.depth
  mode : s.mode.Alike s'.mode
  tokens : s.tokens.map Token.unplaced = s'.tokens.map Token.unplaced ++ earlier.map Token.unplaced
  messages : s.diagnostics.map (·.message) = s'.diagnostics.map (·.message)

namespace Retells

variable {earlier : List Token} {s s' : State} {start start' here here' : Position}
  {chars : List Char} {span span' : Span}

/-- Only the places differ, and what the states are in the middle of. -/
theorem with_mode (h : Retells earlier s s') {mode mode' : Mode} (alike : mode.Alike mode')
    (position position' : Position) :
    Retells earlier { s with mode, position } { s' with mode := mode', position := position' } :=
  ⟨h.depth, alike, h.tokens, h.messages⟩

theorem emit (h : Retells earlier s s') (kind : TokenKind) (lexeme : String) :
    Retells earlier (s.emit kind lexeme span) (s'.emit kind lexeme span') :=
  ⟨h.depth, h.mode, congrArg (_ :: ·) h.tokens, h.messages⟩

theorem report (h : Retells earlier s s') (message : String) :
    Retells earlier (s.report message span) (s'.report message span') :=
  ⟨h.depth, h.mode, h.tokens, congrArg (message :: ·) h.messages⟩

theorem with_depth (h : Retells earlier s s') {depth depth' : Nat} (same : depth = depth') :
    Retells earlier { s with depth } { s' with depth := depth' } :=
  ⟨same, h.mode, h.tokens, h.messages⟩

theorem endLine (h : Retells earlier s s') (ended : ∀ t ∈ earlier.head?, t.kind = .newline) :
    Retells earlier (s.endLine span) (s'.endLine span') := by
  have tokens := h.tokens
  cases told' : s'.tokens with
  | nil =>
    -- nothing of the text itself has been told, so the last token is the newline before it
    have same' : s'.endLine span' = s' := by simp [State.endLine, told']
    have same : s.endLine span = s := by
      cases told : s.tokens with
      | nil => simp [State.endLine, told]
      | cons t ts =>
        rw [told, told', List.map_nil, List.nil_append, List.map_cons] at tokens
        obtain ⟨n, _, rfl, same, -⟩ := List.map_eq_cons_iff.mp tokens.symm
        have newline : t.kind = .newline := (Token.kind_of_unplaced same).symm.trans (ended n rfl)
        simp [State.endLine, told, newline]
    rw [same, same']
    exact h
  | cons t' ts' =>
    rw [told', List.map_cons, List.cons_append] at tokens
    obtain ⟨t, ts, told, same, -⟩ := List.map_eq_cons_iff.mp tokens
    have kind : t.kind = t'.kind := Token.kind_of_unplaced same
    simp only [State.endLine, told, told', kind]
    split
    · exact h
    · exact h.emit _ _

theorem endWord (h : Retells earlier s s') :
    Retells earlier (s.endWord start chars) (s'.endWord start' chars) :=
  (h.emit _ _).with_mode .idle _ _

theorem endQuoted (h : Retells earlier s s') :
    Retells earlier (s.endQuoted start chars) (s'.endQuoted start' chars) :=
  (h.emit _ _).with_mode .idle _ _

theorem breakQuoted (h : Retells earlier s s') :
    Retells earlier (s.breakQuoted start chars) (s'.breakQuoted start' chars) :=
  (h.report _).endQuoted

theorem begin (h : Retells earlier s s') (ended : ∀ t ∈ earlier.head?, t.kind = .newline)
    (c : Char) : Retells earlier (s.begin start c) (s'.begin start' c) := by
  unfold State.begin
  dsimp only
  split
  · rw [h.depth]
    split
    · exact h.endLine ended
    · exact h
  · exact (h.emit _ _).with_depth (congrArg (· + 1) h.depth)
  · exact (h.emit _ _).with_depth (congrArg (· - 1) h.depth)
  · exact h.with_mode .quoted _ _
  · exact h.with_mode .hyphen _ _
  · split
    · exact h
    · exact h.with_mode .word _ _

theorem continueWord (h : Retells earlier s s') (ended : ∀ t ∈ earlier.head?, t.kind = .newline)
    (c : Char) :
    Retells earlier (s.continueWord start here chars c) (s'.continueWord start' here' chars c) := by
  unfold State.continueWord
  split
  · exact h.with_mode .word _ _
  · refine Retells.begin ?_ ended c
    exact h.endWord.with_mode .idle _ _

/-- The same character does the same. -/
theorem step (h : Retells earlier s s') (ended : ∀ t ∈ earlier.head?, t.kind = .newline)
    (c : Char) : Retells earlier (s.step c) (s'.step c) := by
  unfold State.step
  dsimp only
  have alike := h.mode
  generalize s.mode = mode, s'.mode = mode' at alike
  cases alike with
  | idle => exact (h.with_mode .idle _ _).begin ended c
  | hyphen =>
    dsimp only
    split
    · exact h.with_mode .comment _ _
    · exact h.continueWord ended c
  | comment =>
    dsimp only
    split
    · exact (h.with_mode .idle _ _).begin ended c
    · exact h.with_mode .comment _ _
  | word => exact h.continueWord ended c
  | quoted =>
    dsimp only
    split
    · exact (h.with_mode .quoted _ _).endQuoted
    · exact (h.with_mode .quoted _ _).breakQuoted
    · exact h.with_mode .escape _ _
    · exact h.with_mode .quoted _ _
  | escape =>
    dsimp only
    split
    · exact h.with_mode .quoted _ _
    · exact h.with_mode .quoted _ _
    · exact h.with_mode .quoted _ _
    · exact h.with_mode .quoted _ _
    · exact (h.report _).with_mode .quoted _ _

theorem read (h : Retells earlier s s') (ended : ∀ t ∈ earlier.head?, t.kind = .newline)
    (cs : List Char) : Retells earlier (s.read cs) (s'.read cs) := by
  induction cs generalizing s s' with
  | nil => exact h
  | cons c cs ih => exact ih (h.step ended c)

theorem close (h : Retells earlier s s') : Retells earlier s.close s'.close := by
  unfold State.close
  have alike := h.mode
  generalize s.mode = mode, s'.mode = mode' at alike
  cases alike with
  | idle => exact h
  | hyphen => exact h.endWord
  | comment => exact h.with_mode .idle _ _
  | word => exact h.endWord
  | quoted => exact h.breakQuoted
  | escape => exact h.breakQuoted

end Retells

end State

end Lexer

end MarketScript
