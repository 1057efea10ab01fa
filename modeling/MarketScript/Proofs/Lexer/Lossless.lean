import MarketScript.Proofs.Lexer.Below
import MarketScript.Proofs.Lexer.Lined
import MarketScript.Proofs.Lexer.Tiling
import MarketScript.Proofs.Lexer.Word

/-!
# Nothing is lost

The automaton has, at every moment, tiled what it has read with tokens, but for what it is in the
middle of.
-/

namespace MarketScript

open Position

namespace Lexer

/-- Part of a token has been read, and before it tokens tile the text. -/
def Begun (cs : List Char) (ts : List Token) (start : Position) (text : List Char) : Prop :=
  ∃ before, cs = before ++ text ∧ Covers text.head? before ts ∧ start = place before

/-- What has been read since the last token is what the automaton is in the middle of. -/
def Mode.Holds (cs : List Char) (ts : List Token) : Mode → Prop
  | .idle => ∀ next, Covers next cs ts
  | .comment => ∃ before body, cs = before ++ '-' :: '-' :: body ∧ '\n' ∉ body ∧
      Covers (some '-') before ts
  | .hyphen start => Begun cs ts start ['-']
  | .word start chars => chars ≠ [] ∧ (∀ c ∈ chars, isWordChar c = true) ∧
      Begun cs ts start chars.reverse
  | .quoted start _ | .escape start _ => ∃ text, text.head? = some '"' ∧ Begun cs ts start text

variable {cs text : List Char} {ts : List Token} {start : Position} {c : Char}

theorem Begun.more (h : Begun cs ts start text) (some : text ≠ []) (c : Char) :
    Begun (cs ++ [c]) ts start (text ++ [c]) := by
  obtain ⟨before, rfl, covers, rfl⟩ := h
  refine ⟨before, List.append_assoc .., ?_, rfl⟩
  rwa [List.head?_append_of_ne_nil _ some]

/-- A token is complete. -/
theorem Begun.token (h : Begun cs ts start text) {kind : TokenKind} {lexeme : String}
    (reads : Token.Reads ⟨kind, lexeme, ⟨start, place cs⟩⟩ text) :
    Tiles cs (ts ++ [⟨kind, lexeme, ⟨start, place cs⟩⟩]) := by
  obtain ⟨before, rfl, covers, rfl⟩ := h
  exact covers.token reads rfl

/-- What stands in a comment when its line ends. -/
theorem covers_comment {before body : List Char} (line : '\n' ∉ body)
    (h : Covers (some '-') before ts) {next : Option Char} (ends : next = none ∨ next = some '\n') :
    Covers next (before ++ '-' :: '-' :: body) ts := by
  have comment : Gap next ('-' :: '-' :: (body ++ [])) := .comment line ends .nil
  rw [List.append_nil] at comment
  have first : Covers (('-' :: '-' :: body).head?.or next) before ts := h
  exact first.append comment

namespace State

variable {s : State}

/-- A token of one character has been read. -/
theorem holds_emit {kind : TokenKind} {lexeme : String} (idle : s.mode = .idle)
    (position : s.position = place (cs ++ [c])) (covers : Covers (some c) cs s.tokens.reverse)
    (reads : Token.Reads ⟨kind, lexeme, ⟨place cs, s.position⟩⟩ [c]) :
    s.mode.Holds (cs ++ [c]) (s.emit kind lexeme ⟨place cs, s.position⟩).tokens.reverse := by
  have earlier : Covers [c].head? cs s.tokens.reverse := covers
  have told := earlier.token reads (by rw [position])
  rw [idle, emit, List.reverse_cons]
  exact told.covers

theorem holds_blank (idle : s.mode = .idle) (covers : Covers (some c) cs s.tokens.reverse)
    (isBlank : isBlank c = true) : s.mode.Holds (cs ++ [c]) s.tokens.reverse := by
  rw [idle]
  exact covers.blank isBlank

/-- A character that begins something has been read. -/
theorem holds_begin (idle : s.mode = .idle) (position : s.position = place (cs ++ [c]))
    (covers : Covers (some c) cs s.tokens.reverse) :
    (s.begin (place cs) c).mode.Holds (cs ++ [c]) (s.begin (place cs) c).tokens.reverse := by
  have begun : Begun (cs ++ [c]) s.tokens.reverse (place cs) [c] := ⟨cs, rfl, covers, rfl⟩
  unfold begin
  dsimp only
  split
  · split
    · unfold endLine
      split
      · exact holds_blank idle covers rfl
      · split
        · exact holds_blank idle covers rfl
        · exact holds_emit idle position covers ⟨rfl, fun _ => rfl⟩
    · exact holds_blank idle covers rfl
  · exact holds_emit idle position covers ⟨rfl, fun _ => rfl⟩
  · exact holds_emit idle position covers ⟨rfl, fun _ => rfl⟩
  · exact ⟨[_], rfl, begun⟩
  · exact begun
  · split
    · rename_i isBlank
      exact holds_blank idle covers isBlank
    · rename_i noNewline noOpen noClose noQuote _ noBlank
      have wordChar : isWordChar c = true := isWordChar_iff.mpr
        ⟨eq_false_of_ne_true noBlank, noOpen, noClose, noQuote⟩
      exact ⟨List.cons_ne_nil _ _, List.forall_mem_singleton.mpr wordChar, begun⟩

theorem tiles_endWord {chars : List Char} (position : s.position = place cs)
    (h : Mode.Holds cs s.tokens.reverse (.word start chars)) :
    Tiles cs (s.endWord start chars).tokens.reverse := by
  obtain ⟨some, wordChars, begun⟩ := h
  have text : chars.reverse ≠ [] := List.reverse_eq_nil_iff.not.mpr some
  have spells : TokenKind.word.Spells chars.reverse :=
    ⟨text, fun c member => wordChars c (List.mem_reverse.mp member)⟩
  show Tiles cs (_ :: s.tokens).reverse
  rw [List.reverse_cons, position]
  exact begun.token ⟨spells, fun _ => rfl⟩

theorem tiles_endQuoted {chars : List Char} (position : s.position = place cs)
    (quote : text.head? = some '"') (h : Begun cs s.tokens.reverse start text) :
    Tiles cs (s.endQuoted start chars).tokens.reverse := by
  show Tiles cs (_ :: s.tokens).reverse
  rw [List.reverse_cons, position]
  exact h.token ⟨quote, fun unquoted => absurd rfl unquoted⟩

/-- A hyphen is a word so far. -/
theorem holds_hyphen (h : Mode.Holds cs s.tokens.reverse (.hyphen start)) :
    Mode.Holds cs s.tokens.reverse (.word start ['-']) := by
  have hyphen : isWordChar '-' = true := by decide
  exact ⟨List.cons_ne_nil _ _, List.forall_mem_singleton.mpr hyphen, h⟩

/-- A character after part of a word has been read. -/
theorem holds_continueWord {chars : List Char} (position : s.position = place cs)
    (h : Mode.Holds cs s.tokens.reverse (.word start chars)) (c : Char) :
    (s.continueWord start s.position chars c).mode.Holds (cs ++ [c])
      (s.continueWord start s.position chars c).tokens.reverse := by
  unfold continueWord
  split
  · rename_i wordChar
    obtain ⟨some, wordChars, begun⟩ := h
    refine ⟨List.cons_ne_nil _ _, List.forall_mem_cons.mpr ⟨wordChar, wordChars⟩, ?_⟩
    rw [List.reverse_cons]
    exact begun.more (List.reverse_eq_nil_iff.not.mpr some) c
  · have ended := (tiles_endWord position h).covers (some c)
    rw [position, step_place]
    exact holds_begin rfl rfl ended

/-- What the automaton is in the middle of is what it has read, whatever it reads next. -/
theorem holds_step (position : s.position = place cs) (h : s.mode.Holds cs s.tokens.reverse)
    (c : Char) : (s.step c).mode.Holds (cs ++ [c]) (s.step c).tokens.reverse := by
  have moved : s.position.step c = place (cs ++ [c]) := by rw [position, step_place]
  unfold step
  dsimp only
  cases mode : s.mode with
  | idle =>
    rw [mode] at h
    rw [moved, position]
    exact holds_begin rfl rfl (h _)
  | hyphen start =>
    rw [mode] at h
    dsimp only
    split
    · -- a second hyphen: what had begun was no word but a comment
      rename_i hyphen
      subst hyphen
      obtain ⟨before, rfl, covers, -⟩ := h
      exact ⟨before, [], List.append_assoc .., List.not_mem_nil, covers⟩
    · exact holds_continueWord position (holds_hyphen h) c
  | comment =>
    rw [mode] at h
    obtain ⟨before, body, rfl, line, covers⟩ := h
    dsimp only
    split
    · -- the newline is read once more, as one that stands between tokens
      rename_i newline
      subst newline
      rw [moved, position]
      exact holds_begin rfl rfl (covers_comment line covers (.inr rfl))
    · rename_i other
      refine ⟨before, body ++ [c], by simp, ?_, covers⟩
      simp [line, Ne.symm other]
  | word start chars =>
    rw [mode] at h
    exact holds_continueWord position h c
  | quoted start chars =>
    rw [mode] at h
    obtain ⟨text, quote, begun⟩ := h
    have more := begun.more (by rintro rfl; cases quote) c
    have quote' : (text ++ [c]).head? = some '"' := by simp [quote]
    have ended : Tiles (cs ++ [c])
        (endQuoted { s with position := s.position.step c } start chars).tokens.reverse :=
      tiles_endQuoted moved quote' more
    dsimp only
    split
    · exact ended.covers
    · exact ended.covers
    · exact ⟨_, quote', more⟩
    · exact ⟨_, quote', more⟩
  | escape start chars =>
    rw [mode] at h
    obtain ⟨text, quote, begun⟩ := h
    have more := begun.more (by rintro rfl; cases quote) c
    have quote' : (text ++ [c]).head? = some '"' := by simp [quote]
    dsimp only
    split
    all_goals exact ⟨_, quote', more⟩

/-- A diagnostic is only about a quoted text, from its beginning up to what has just been read. -/
theorem diagnostics_step (s : State) (c : Char) :
    (s.step c).diagnostics = s.diagnostics ∨
      ∃ start chars message, (s.mode = .quoted start chars ∨ s.mode = .escape start chars) ∧
        (s.step c).diagnostics =
          { message, span := ⟨start, s.position.step c⟩ } :: s.diagnostics := by
  unfold step
  dsimp only
  cases mode : s.mode with
  | idle => exact .inl (diagnostics_begin ..)
  | hyphen start =>
    dsimp only
    split
    · exact .inl rfl
    · exact .inl (diagnostics_continueWord ..)
  | comment =>
    dsimp only
    split
    · exact .inl (diagnostics_begin ..)
    · exact .inl rfl
  | word start chars => exact .inl (diagnostics_continueWord ..)
  | quoted start chars =>
    dsimp only
    split
    · exact .inl rfl
    · exact .inr ⟨start, chars, _, .inl rfl, rfl⟩
    · exact .inl rfl
    · exact .inl rfl
  | escape start chars =>
    dsimp only
    split
    · exact .inl rfl
    · exact .inl rfl
    · exact .inl rfl
    · exact .inl rfl
    · exact .inr ⟨start, chars, _, .inr rfl, rfl⟩

end State

/-- What the automaton knows of a text that it has read. -/
structure Traced (cs : List Char) (s : State) : Prop where
  position : s.position = place cs
  holds : s.mode.Holds cs s.tokens.reverse
  reported : ∀ d ∈ s.diagnostics, d.span.Within cs

namespace Traced

variable {s : State}

/-- A quoted text that is being read is part of what has been read. -/
theorem begun_of_quoted {chars : List Char} (h : Traced cs s)
    (quoted : s.mode = .quoted start chars ∨ s.mode = .escape start chars) :
    ∃ text, text.head? = some '"' ∧ Begun cs s.tokens.reverse start text := by
  have holds := h.holds
  rcases quoted with mode | mode
  · rw [mode] at holds
    exact holds
  · rw [mode] at holds
    exact holds

theorem step (h : Traced cs s) (c : Char) : Traced (cs ++ [c]) (s.step c) where
  position := by rw [State.position_step, h.position, step_place]
  holds := State.holds_step h.position h.holds c
  reported := by
    have earlier : ∀ d ∈ s.diagnostics, d.span.Within (cs ++ [c]) := by
      intro d member
      exact (h.reported d member).append [c]
    rcases State.diagnostics_step s c with same | ⟨start, chars, message, quoted, more⟩
    · rw [same]
      exact earlier
    · obtain ⟨text, -, begun⟩ := h.begun_of_quoted quoted
      rw [more, h.position, step_place]
      refine List.forall_mem_cons.mpr ⟨?_, earlier⟩
      obtain ⟨before, rfl, -, rfl⟩ := begun
      exact ⟨before, text ++ [c], [], by simp, by simp⟩

end Traced

theorem traced_read (cs : List Char) : Traced cs (State.read {} cs) := by
  induction cs using List.reverseRecOn with
  | nil =>
    refine ⟨rfl, Tiles.nil.covers, ?_⟩
    intro d none
    cases none
  | append_singleton cs c ih =>
    rw [State.read_append, State.read_cons, State.read_nil]
    exact ih.step c

namespace Traced

variable {s : State}

/-- At the end of a text tokens tile it but for what stands after the last of them. -/
theorem covers_close (h : Traced cs s) : Covers none cs s.close.tokens.reverse := by
  have holds := h.holds
  unfold State.close
  cases mode : s.mode with
  | idle =>
    rw [mode] at holds
    exact holds none
  | comment =>
    rw [mode] at holds
    obtain ⟨before, body, rfl, line, covers⟩ := holds
    exact covers_comment line covers (.inl rfl)
  | hyphen start =>
    rw [mode] at holds
    exact (State.tiles_endWord h.position (State.holds_hyphen holds)).covers none
  | word start chars =>
    rw [mode] at holds
    exact (State.tiles_endWord h.position holds).covers none
  | quoted start chars =>
    obtain ⟨text, quote, begun⟩ := h.begun_of_quoted (.inl mode)
    exact (State.tiles_endQuoted h.position quote begun).covers none
  | escape start chars =>
    obtain ⟨text, quote, begun⟩ := h.begun_of_quoted (.inr mode)
    exact (State.tiles_endQuoted h.position quote begun).covers none

theorem reported_close (h : Traced cs s) : ∀ d ∈ s.close.diagnostics, d.span.Within cs := by
  have broken : ∀ {start chars}, s.mode = .quoted start chars ∨ s.mode = .escape start chars →
      ∀ d ∈ (s.breakQuoted start chars).diagnostics, d.span.Within cs := by
    intro start chars quoted
    obtain ⟨text, -, before, rfl, -, rfl⟩ := h.begun_of_quoted quoted
    refine List.forall_mem_cons.mpr ⟨⟨before, text, [], (List.append_nil _).symm, ?_⟩, h.reported⟩
    rw [h.position]
  unfold State.close
  split
  · exact h.reported
  · exact h.reported
  · exact h.reported
  · exact h.reported
  · rename_i mode
    exact broken (.inl mode)
  · rename_i mode
    exact broken (.inr mode)

end Traced

/-- Reading a script loses nothing of it.  Its tokens tile it, and the last of them, which alone is
    the end, stands at the end of it.  They come in its order and do not overlap; each has been read
    from the part of the script that its span marks, and so a diagnostic marks a part of it.  No
    newline is the first token or comes after another one, and where none before it closes what was
    not open, no parenthesis is open at it. -/
theorem tokenize_lossless (source : String) :
    Tiles source.toList (tokenize source).1 ∧
    (∃ ts, (tokenize source).1 =
        ts ++ [⟨.eof, "", ⟨place source.toList, place source.toList⟩⟩] ∧
      ∀ t ∈ ts, t.kind ≠ .eof) ∧
    (tokenize source).1.Pairwise (fun a b => a.span.stop.offset ≤ b.span.start.offset) ∧
    (∀ t ∈ (tokenize source).1, ∃ before text after,
      source.toList = before ++ text ++ after ∧ t.Reads text ∧
        t.span = ⟨place before, place (before ++ text)⟩) ∧
    (∀ d ∈ (tokenize source).2, d.span.Within source.toList) ∧
    ∀ before t, before ++ [t] <+: (tokenize source).1 → t.kind = .newline →
      (∃ last ∈ before.getLast?, last.kind ≠ .newline) ∧
      (Line.Supported before → Line.depth before = 0) := by
  have traced := traced_read source.toList
  have level := (State.level_read source.toList).close
  have position : (State.read {} source.toList).close.position = place source.toList := by
    rw [State.position_close, traced.position]
  have tiles : Tiles source.toList (tokenize source).1 := by
    have covers : Covers [].head? source.toList _ := traced.covers_close
    have ended : Tiles (source.toList ++ []) (tokenize source).1 := by
      refine covers.token ⟨rfl, fun _ => rfl⟩ ?_
      rw [position, List.append_nil]
    rwa [List.append_nil] at ended
  have lined : Lined (tokenize source).1 := by
    refine level.lined.concat fun newline => ?_
    cases newline
  refine ⟨tiles, ⟨(State.read {} source.toList).close.tokens.reverse, ?_, ?_⟩, tiles.ordered,
    tiles.reads, ?_, ?_⟩
  · rw [← position]
    rfl
  · intro t member
    exact State.unended_read source.toList t (List.mem_reverse.mp member)
  · intro d member
    exact traced.reported_close d (List.mem_reverse.mp member)
  · intro before t along newline
    obtain ⟨last, closed⟩ := lined before t along newline
    refine ⟨last, fun supported => ?_⟩
    rw [depth_of_supported supported, closed]
    rfl

end Lexer

end MarketScript
