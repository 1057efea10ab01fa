import MarketScript.Proofs.Lexer.Literal
import MarketScript.Proofs.Lexer.Word
import MarketScript.Proofs.Statement.Writing

/-!
# Reading written symbols

Symbols that can stand in a script are read back as they were written.
-/

namespace MarketScript

namespace Lexer

open MarketScript.Symbol (gap writeAfter)

/-- A symbol that stands for itself when it is written. -/
def Readable : Symbol → Prop
  | .word text => Lexable text
  | .quoted text => ∀ c ∈ text.toList, Ordinary c
  | .opening | .closing => True

namespace State

/-- What the tokens say, if the text ends here. -/
def told (s : State) : List (Option Symbol) := s.close.tokens.reverse.map Token.symbol?

/-- The automaton may be in a word, but in nothing else; after an opening parenthesis it is in
    nothing at all. -/
structure Rests (s : State) (a : Symbol) : Prop where
  unquoted : s.mode.quoting = false
  uncommented : s.mode ≠ .comment
  opening : a = .opening → s.mode = .idle

variable {s : State} {a b : Symbol} {syms : List Symbol}

/-- Between tokens the end of the text adds nothing. -/
theorem told_of_idle (idle : s.mode = .idle) : s.told = s.tokens.reverse.map Token.symbol? := by
  simp [told, close, idle]

theorem Rests.diagnostics_close (h : s.Rests a) : s.close.diagnostics = s.diagnostics := by
  cases mode : s.mode with
  | idle | comment | hyphen | word => simp [close, mode, endWord, emit]
  | quoted | escape => simpa [mode, Mode.quoting] using h.unquoted

theorem rests_of_idle (idle : s.mode = .idle) (a : Symbol) : s.Rests a :=
  ⟨by simp [idle, Mode.quoting], by simp [idle], fun _ => idle⟩

theorem step_open (idle : s.mode = .idle) :
    s.step '(' =
      { s with position := s.position.step '(', depth := s.depth + 1,
               tokens := ⟨.leftParen, "(", ⟨s.position, s.position.step '('⟩⟩ :: s.tokens } := by
  rw [step_idle idle]
  rfl

theorem step_close (idle : s.mode = .idle) :
    s.step ')' =
      { s with position := s.position.step ')', depth := s.depth - 1,
               tokens := ⟨.rightParen, ")", ⟨s.position, s.position.step ')'⟩⟩ :: s.tokens } := by
  rw [step_idle idle]
  rfl

/-- Between tokens a literal in quotes makes one token. -/
theorem read_literal_token (idle : s.mode = .idle) {body content : List Char}
    (literal : Literal body content) :
    (s.read ('"' :: (body ++ ['"']))).mode = .idle ∧
      (s.read ('"' :: (body ++ ['"']))).told = s.told ++ [some (.quoted (String.ofList content))] ∧
      (s.read ('"' :: (body ++ ['"']))).diagnostics = s.diagnostics := by
  rw [read_cons, step_quote idle, read_literal_quote literal rfl]
  refine ⟨rfl, ?_, rfl⟩
  simp [told, close, idle, Token.symbol?]

/-- Between tokens a readable symbol makes one token. -/
theorem read_chars (idle : s.mode = .idle) (readable : Readable b) :
    (s.read b.chars).Rests b ∧ (s.read b.chars).told = s.told ++ [some b] ∧
      (s.read b.chars).close.diagnostics = s.diagnostics := by
  cases b with
  | word text =>
    obtain ⟨mode, read, cases⟩ := read_word idle readable
    rw [Symbol.chars, read]
    rcases cases with rfl | ⟨rfl, hyphen⟩
    · refine ⟨⟨rfl, by simp, nofun⟩, ?_, rfl⟩
      simp [told, close, idle, endWord, emit, Token.symbol?]
    · have same : text = "-" := by rw [← String.toList_inj, hyphen]; rfl
      refine ⟨⟨rfl, by simp, nofun⟩, ?_, rfl⟩
      simp [told, close, idle, endWord, emit, Token.symbol?, same]
  | quoted text =>
    obtain ⟨mode, told, same⟩ := read_literal_token idle (literal_of_ordinary readable)
    rw [String.ofList_toList] at told
    exact ⟨rests_of_idle mode _, told, (rests_of_idle mode .closing).diagnostics_close.trans same⟩
  | opening =>
    rw [Symbol.chars, read_cons, read_nil, step_open idle]
    refine ⟨rests_of_idle ?_ _, ?_, ?_⟩ <;> simp [told, close, idle, Token.symbol?]
  | closing =>
    rw [Symbol.chars, read_cons, read_nil, step_close idle]
    refine ⟨rests_of_idle ?_ _, ?_, ?_⟩ <;> simp [told, close, idle, Token.symbol?]

/-- A blank completes what stands before it. -/
theorem step_blank (h : s.Rests a) :
    s.step ' ' = { s.close with position := s.close.position.step ' ' } := by
  rw [step_delimiter h.unquoted h.uncommented (by decide), step_idle (close_idle s)]
  rfl

/-- After what it may be in, the automaton reads on as if it were between tokens. -/
theorem read_gap_chars (h : s.Rests a) (b : Symbol) :
    ∃ t : State, t.mode = .idle ∧ t.told = s.told ∧ t.diagnostics = s.diagnostics ∧
      s.read (gap a b ++ b.chars) = t.read b.chars := by
  by_cases ha : a = .opening
  · have idle := h.opening ha
    exact ⟨s, idle, rfl, rfl, by rw [ha, Symbol.gap_opening, List.nil_append]⟩
  · by_cases hb : b = .closing
    · refine ⟨s.close, close_idle s, told_of_idle (close_idle s), h.diagnostics_close, ?_⟩
      rw [hb, Symbol.gap_closing, List.nil_append]
      exact step_delimiter h.unquoted h.uncommented (by decide)
    · refine ⟨{ s.close with position := s.close.position.step ' ' }, close_idle s,
        told_of_idle (close_idle s), h.diagnostics_close, ?_⟩
      rw [Symbol.gap_of_ne ha hb, List.singleton_append, read_cons, step_blank h]

/-- Readable symbols are read as they are written. -/
theorem read_writeAfter (h : s.Rests a) (readable : ∀ b ∈ syms, Readable b) :
    (s.read (writeAfter a syms)).Rests (syms.getLastD a) ∧
      (s.read (writeAfter a syms)).told = s.told ++ syms.map some ∧
      (s.read (writeAfter a syms)).diagnostics = s.diagnostics := by
  induction syms generalizing s a with
  | nil => exact ⟨h, (List.append_nil _).symm, rfl⟩
  | cons b syms ih =>
    -- what the automaton may be in after `a` is completed by the gap, or by `b` itself
    obtain ⟨readable_b, readable⟩ := List.forall_mem_cons.mp readable
    obtain ⟨t, idle, told, diagnostics, read⟩ := read_gap_chars h b
    obtain ⟨rests, more, same⟩ := read_chars idle readable_b
    obtain ⟨last, all, clean⟩ := ih rests readable
    rw [writeAfter, ← List.append_assoc, read_append, read, List.getLastD_cons]
    refine ⟨last, ?_, ?_⟩
    · rw [all, more, told]
      simp
    · rw [clean, ← rests.diagnostics_close, same, diagnostics]

theorem told_read (idle : s.mode = .idle) (cs : List Char) :
    ∃ more, (s.read cs).told = s.told ++ more := by
  obtain ⟨new, grown⟩ := ((s.grows_read cs).trans (grows_close _)).tokens
  refine ⟨new.reverse.map Token.symbol?, ?_⟩
  rw [told, ← grown, told_of_idle idle, List.reverse_append, List.map_append]

/-- Any quoted text that comes next is read as some quoted text, unless something is reported. -/
theorem read_quoted (h : s.Rests a) (text : String) (rest : List Char) :
    (s.read (gap a (.quoted text) ++ (Symbol.quoted text).chars ++ rest)).close.diagnostics ≠ [] ∨
      ∃ body content rest' more, body ++ '"' :: rest' = text.toList ++ '"' :: rest ∧
        Literal body content ∧
        (s.read (gap a (.quoted text) ++ (Symbol.quoted text).chars ++ rest)).told =
          s.told ++ some (.quoted (String.ofList content)) :: more := by
  obtain ⟨t, idle, told, -, read⟩ := read_gap_chars h (.quoted text)
  have split : ∀ cs, '"' :: (text.toList ++ ['"']) ++ cs = '"' :: (text.toList ++ '"' :: cs) := by
    simp
  rw [read_append, read, ← read_append, Symbol.chars, split]
  rcases closed_or_reported (text.toList ++ '"' :: rest) with closed | reported
  · obtain ⟨body, content, rest', same, literal⟩ := closed
    obtain ⟨mode, token, -⟩ := read_literal_token idle literal
    obtain ⟨more, all⟩ := told_read mode rest'
    refine .inr ⟨body, content, rest', more, same.symm, literal, ?_⟩
    rw [same, List.append_cons, ← List.cons_append, read_append, all, token, told,
      List.append_assoc]
    rfl
  · refine .inl ?_
    rw [read_cons, step_quote idle]
    exact reported _ _ _ rfl

end State

end Lexer

end MarketScript
