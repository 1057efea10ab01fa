import MarketScript.Proofs.Lexer.Literal
import MarketScript.Proofs.Lexer.Word
import MarketScript.Proofs.Source.Shift

/-!
# Text below other lines

Whole lines above a text have no other effect on what is read of it than to move it down.  A newline
that comes outside parentheses and outside quoted texts makes whole lines of all that was read.
-/

namespace MarketScript

namespace Lexer

/-- What has been read when some whole lines have been. -/
structure Above where
  lines : Nat
  bytes : Nat
  tokens : List Token
  diagnostics : List Diagnostic
  unended : ∀ t ∈ tokens, t.kind ≠ .eof
  /-- Another newline would not be a token. -/
  ended : ∀ t ∈ tokens.head?, t.kind = .newline

def Mode.shift (lines bytes : Nat) : Mode → Mode
  | .idle => .idle
  | .hyphen start => .hyphen (start.shift lines bytes)
  | .comment => .comment
  | .word start chars => .word (start.shift lines bytes) chars
  | .quoted start chars => .quoted (start.shift lines bytes) chars
  | .escape start chars => .escape (start.shift lines bytes) chars

namespace State

/-- The automaton in a text that stands below some lines. -/
def below (above : Above) (s : State) : State where
  position := s.position.shift above.lines above.bytes
  depth := s.depth
  mode := s.mode.shift above.lines above.bytes
  tokens := s.tokens.map (·.shift above.lines above.bytes) ++ above.tokens
  diagnostics := s.diagnostics.map (·.shift above.lines above.bytes) ++ above.diagnostics

section Below

variable (above : Above) (s : State) (start here : Position) (chars : List Char) (c : Char)

theorem mode_below : (s.below above).mode = s.mode.shift above.lines above.bytes := rfl

theorem position_below : (s.below above).position = s.position.shift above.lines above.bytes := rfl

theorem emit_below (kind : TokenKind) (lexeme : String) (span : Span) :
    (s.below above).emit kind lexeme (span.shift above.lines above.bytes) =
      (s.emit kind lexeme span).below above :=
  rfl

theorem endLine_below (span : Span) :
    (s.below above).endLine (span.shift above.lines above.bytes) =
      (s.endLine span).below above := by
  cases told : s.tokens with
  | nil =>
    -- nothing of the text itself has been read, so the last token is the newline above it
    have below_tokens : (s.below above).tokens = above.tokens := by simp [below, told]
    have last := above.ended
    have same : s.endLine span = s := by simp [endLine, told]
    rw [same]
    unfold endLine
    rw [below_tokens]
    split
    · rfl
    · rename_i t _ here
      rw [if_pos (last t (by rw [here]; rfl))]
  | cons t ts =>
    have below_tokens : (s.below above).tokens = t.shift above.lines above.bytes ::
        (ts.map (·.shift above.lines above.bytes) ++ above.tokens) := by simp [below, told]
    simp only [endLine, told, below_tokens]
    rw [apply_ite (below above), emit_below]
    rfl

theorem begin_below :
    (s.below above).begin (start.shift above.lines above.bytes) c =
      (s.begin start c).below above := by
  unfold begin
  dsimp only
  split
  · rw [apply_ite (below above), ← endLine_below]
    rfl
  · rfl
  · rfl
  · rfl
  · rfl
  · rw [apply_ite (below above)]
    rfl

theorem continueWord_below :
    (s.below above).continueWord (start.shift above.lines above.bytes)
        (here.shift above.lines above.bytes) chars c =
      (s.continueWord start here chars c).below above := by
  unfold continueWord
  rw [apply_ite (below above), Position.step_shift, ← begin_below]
  rfl

theorem step_below : (s.below above).step c = (s.step c).below above := by
  unfold step
  dsimp only
  rw [mode_below, position_below, Position.step_shift]
  cases s.mode with
  | idle => exact begin_below above { s with position := s.position.step c, mode := .idle } _ c
  | hyphen start =>
    dsimp only [Mode.shift]
    rw [apply_ite (below above), continueWord_below]
    rfl
  | comment =>
    dsimp only [Mode.shift]
    rw [apply_ite (below above), ← begin_below]
    rfl
  | word start chars => exact continueWord_below ..
  | quoted start chars =>
    dsimp only [Mode.shift]
    split <;> rfl
  | escape start chars =>
    dsimp only [Mode.shift]
    split <;> rfl

theorem read_below (cs : List Char) : (s.below above).read cs = (s.read cs).below above := by
  induction cs generalizing s with
  | nil => rfl
  | cons c cs ih => rw [read_cons, step_below, ih, read_cons]

theorem close_below : (s.below above).close = s.close.below above := by
  unfold close
  rw [mode_below]
  cases s.mode <;> rfl

end Below

section Newline

variable {s : State} {cs : List Char}

theorem unended_read (cs : List Char) : ∀ t ∈ (read {} cs).close.tokens, t.kind ≠ .eof :=
  ((grows_read {} cs).trans (grows_close _)).unended (by simp)

/-- At the end of a line comes a newline, if none has come yet. -/
theorem endLine_eq (s : State) (span : Span) :
    ∃ tokens, s.endLine span = { s with tokens } ∧ (∀ t ∈ tokens.head?, t.kind = .newline) ∧
      (tokens = s.tokens ∨ ∃ t, t.kind = .newline ∧ tokens = t :: s.tokens) := by
  unfold endLine
  split
  · rename_i told
    exact ⟨s.tokens, rfl, by simp [told], .inl rfl⟩
  · rename_i told
    split
    · rename_i newline
      exact ⟨s.tokens, rfl, by simp [told, newline], .inl rfl⟩
    · exact ⟨⟨.newline, "\n", span⟩ :: s.tokens, rfl, by simp, .inr ⟨_, rfl, rfl⟩⟩

theorem step_newline_closed (idle : s.mode = .idle) (level : s.depth = 0) :
    s.step '\n' =
      { s with position := s.position.step '\n' }.endLine ⟨s.position, s.position.step '\n'⟩ := by
  rw [step_idle idle]
  exact if_pos level

/-- Outside parentheses and quoted texts a newline makes whole lines of what was read. -/
theorem read_newline (level : (read {} cs).depth = 0)
    (unquoted : (read {} cs).mode.quoting = false) :
    ∃ above : Above, read {} (cs ++ ['\n']) = below above {} ∧
      above.lines = cs.count '\n' + 1 ∧ above.bytes = (String.ofList cs).utf8ByteSize + 1 ∧
      (above.tokens = (read {} cs).close.tokens ∨
        ∃ t, t.kind = .newline ∧ above.tokens = t :: (read {} cs).close.tokens) := by
  have level' : (read {} cs).close.depth = 0 := (depth_close _).trans level
  obtain ⟨tokens, ends, ended, same⟩ := endLine_eq
    { (read {} cs).close with position := (read {} cs).close.position.step '\n' }
    ⟨(read {} cs).close.position, (read {} cs).close.position.step '\n'⟩
  have unended : ∀ t ∈ tokens, t.kind ≠ .eof := by
    rcases same with same | ⟨t, newline, same⟩
    · rw [same]
      exact unended_read cs
    · rw [same]
      exact List.forall_mem_cons.mpr ⟨by simp [newline], unended_read cs⟩
  refine ⟨⟨_, _, tokens, (read {} cs).close.diagnostics, unended, ended⟩, ?_, rfl, rfl, same⟩
  have position : (read {} cs).close.position.step '\n' =
      Position.start.shift (cs.count '\n' + 1) ((String.ofList cs).utf8ByteSize + 1) := by
    rw [position_close, position_read, ← Position.walk_newline, Position.walk_append]
    rfl
  rw [read_append, read_cons, read_nil, step_newline unquoted,
    step_newline_closed (close_idle _) level', ends, position, level', close_idle]
  rfl

end Newline

section Quoting

variable {s : State}

theorem close_quoting (quoting : s.mode.quoting = true) :
    ∃ t, t.kind = .str ∧ s.close.tokens = t :: s.tokens := by
  cases mode : s.mode with
  | quoted | escape =>
    rw [close, mode]
    exact ⟨_, rfl, rfl⟩
  | idle | hyphen | comment | word => simp [mode, Mode.quoting] at quoting

/-- In a quoted text that is still open a newline is no token, but ends the quoted text or stands in
    it after a backslash. -/
theorem read_newline_quoting (quoting : s.mode.quoting = true) :
    ∃ us, us ≠ [] ∧ (∀ t ∈ us, t.kind = .word ∨ t.kind = .str) ∧
      (s.read ['\n', 'x']).close.tokens = us ++ s.tokens := by
  cases mode : s.mode with
  | quoted start chars =>
    rw [read_cons, step_quoted_newline mode, read_cons, read_nil,
      step_word rfl (by decide) (by decide)]
    exact ⟨[_, _], by simp, by simp, rfl⟩
  | escape start chars =>
    obtain ⟨message, span, next⟩ := step_escape_unknown mode (c := '\n') rfl
    rw [read_cons, next, read_cons, read_nil, step_quoted rfl (by simp [Ordinary])]
    exact ⟨[_], by simp, by simp, rfl⟩
  | idle | hyphen | comment | word => simp [mode, Mode.quoting] at quoting

end Quoting

end State

/-- The tokens of a text below some lines come after theirs. -/
theorem tokenize_below {above : Above} {first second : String}
    (whole : State.read {} first.toList = State.below above {}) :
    (tokenize (first ++ second)).1 =
      above.tokens.reverse ++ (tokenize second).1.map (·.shift above.lines above.bytes) := by
  have read : (State.read {} (first ++ second).toList).close =
      (State.read {} second.toList).close.below above := by
    rw [String.toList_append, State.read_append, whole, State.read_below, State.close_below]
  rw [tokenize, tokenize, read]
  simp [State.below, Token.shift, Span.shift]

end Lexer

end MarketScript
