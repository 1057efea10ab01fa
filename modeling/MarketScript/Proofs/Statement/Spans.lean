import MarketScript.Proofs.Lexer.Cuts
import MarketScript.Proofs.Lexer.Lossless
import MarketScript.Proofs.Lexer.Retold
import MarketScript.Proofs.Statement.Isolation
import MarketScript.Proofs.Statement.RoundTrip

/-!
# Spans of statements

The span of a statement marks a part of the script that makes this statement on its own.
-/

namespace MarketScript

open Position
open Lexer (State Cuttable nesting Lined)

namespace Statement

variable {ts line : List Token} {a b : Token} {cs : List Char}

section Alone

/-- Where whole lines have been told, no parenthesis is open. -/
theorem nesting_of_ended (lined : Lined ts) (ended : ∀ t ∈ ts.getLast?, t.kind = .newline) :
    nesting ts = 0 := by
  rcases ts.eq_nil_or_concat with rfl | ⟨before, n, rfl⟩
  · rfl
  · rw [List.concat_eq_append] at lined ended ⊢
    have newline : n.kind = .newline := ended n (by simp)
    rw [Lexer.nesting_concat_other (by simp [newline]) (by simp [newline])]
    exact (lined before n (List.prefix_refl _) newline).2

/-- A part of a text between two cuts is read on its own as it is read in its place. -/
theorem read_alone {before mid : List Char} {c : Char}
    (starts : (State.read {} before).step c = (State.read {} before).close.step c)
    (ended : ∀ t ∈ (State.read {} before).close.tokens.head?, t.kind = .newline)
    (told : (State.read {} (before ++ c :: mid)).close.tokens =
      line.reverse ++ (State.read {} before).close.tokens)
    (clean : (State.read {} (before ++ c :: mid)).close.diagnostics = []) :
    (State.read {} (c :: mid)).close.tokens.map Token.unplaced = line.reverse.map Token.unplaced ∧
      (State.read {} (c :: mid)).close.diagnostics = [] := by
  have level := (State.level_read before).close
  have ended' : ∀ t ∈ (State.read {} before).close.tokens.reverse.getLast?, t.kind = .newline := by
    rwa [List.getLast?_reverse]
  have reads : State.read {} (before ++ c :: mid) = (State.read {} before).close.read (c :: mid) := by
    rw [State.read_append, State.read_cons, State.read_cons, starts]
  rw [reads] at told clean
  have earlier : (State.read {} before).close.diagnostics = [] := by
    have grown :=
      (((State.read {} before).close.grows_read (c :: mid)).trans (State.grows_close _)).diagnostics
    rwa [clean, List.suffix_nil] at grown
  -- closed, outside parentheses and after a newline, the text begins as if nothing came before it
  have begins :
      State.Retells (State.read {} before).close.tokens (State.read {} before).close {} := by
    refine ⟨?_, ?_, rfl, ?_⟩
    · rw [level.depth, nesting_of_ended level.lined ended']
    · rw [State.close_idle]
      exact .idle
    · rw [earlier]
  have alike := (begins.read ended (c :: mid)).close
  constructor
  · have tokens := alike.tokens
    rw [told, List.map_append] at tokens
    exact (List.append_cancel_right tokens).symm
  · have messages := alike.messages
    rw [clean] at messages
    exact List.map_eq_nil_iff.mp messages.symm

end Alone

section Order

/-- The tokens of a text come in its order, each of them where it was read from. -/
theorem ordered_close (cs : List Char) :
    (State.read {} cs).close.tokens.reverse.Pairwise
        (fun t u => t.span.stop.offset ≤ u.span.start.offset) ∧
      ∀ t ∈ (State.read {} cs).close.tokens.reverse, ∃ before text after,
        cs = before ++ text ++ after ∧ t.Reads text ∧
          t.span = ⟨place before, place (before ++ text)⟩ := by
  obtain ⟨before, gap, rfl, tiles, -⟩ := (Lexer.traced_read cs).covers_close
  refine ⟨tiles.ordered, fun t member => ?_⟩
  obtain ⟨start, text, rest, split, read⟩ := tiles.reads t member
  exact ⟨start, text, rest ++ gap, by rw [split, List.append_assoc], read⟩

theorem within_close (cs : List Char) :
    ∀ t ∈ (State.read {} cs).close.tokens.reverse, t.span.Within cs := by
  intro t member
  obtain ⟨before, text, after, whole, -, span⟩ := (ordered_close cs).2 t member
  exact ⟨before, text, after, whole, span⟩

/-- From its first token to its last one a line goes on. -/
theorem offset_le_of_line
    (ordered : line.Pairwise fun t u => t.span.stop.offset ≤ u.span.start.offset)
    (within : ∀ t ∈ line, t.span.Within cs) (starts : line.head? = some a)
    (stops : line.getLast? = some b) :
    a.span.start.offset ≤ b.span.start.offset ∧ a.span.stop.offset ≤ b.span.stop.offset := by
  obtain ⟨rest, rfl⟩ := List.head?_eq_some_iff.mp starts
  obtain ⟨within_a, within⟩ := List.forall_mem_cons.mp within
  cases rest with
  | nil =>
    cases stops
    exact ⟨Nat.le_refl _, Nat.le_refl _⟩
  | cons t rest =>
    rw [List.getLast?_cons_cons] at stops
    have member : b ∈ t :: rest := List.mem_of_getLast? stops
    have apart := (List.pairwise_cons.mp ordered).1 b member
    have forward_a := within_a.start_le
    have forward_b := (within b member).start_le
    exact ⟨by omega, by omega⟩

theorem offset_le_of_ends
    (ordered : line.Pairwise fun t u => t.span.stop.offset ≤ u.span.start.offset)
    (within : ∀ t ∈ line, t.span.Within cs) (starts : line.head? = some a)
    (stops : line.getLast? = some b) : a.span.start.offset ≤ b.span.stop.offset :=
  Nat.le_trans (offset_le_of_line ordered within starts stops).1
    (within b (List.mem_of_getLast? stops)).start_le

/-- The span of a line goes from the start of its first token to the end of its last one. -/
theorem join_of_line (ordered : line.Pairwise fun t u => t.span.stop.offset ≤ u.span.start.offset)
    (within : ∀ t ∈ line, t.span.Within cs) (starts : line.head? = some a)
    (stops : line.getLast? = some b) : a.span.join b.span = ⟨a.span.start, b.span.stop⟩ := by
  obtain ⟨start_le, stop_le⟩ := offset_le_of_line ordered within starts stops
  have within_a := within a (List.mem_of_head? starts)
  have within_b := within b (List.mem_of_getLast? stops)
  rw [Span.join, if_pos start_le]
  split
  · rename_i back
    rw [within_a.stop_in.eq_of_offset within_b.stop_in (Nat.le_antisymm stop_le back)]
  · rfl

end Order

section Cut

variable {source : String}

/-- A line of a script in which no token is wrong is a part of it that has this line on its own. -/
theorem exists_part (clean : (Lexer.tokenize source).2 = [])
    (here : line ∈ lines (Lexer.tokenize source).1) (starts : line.head? = some a)
    (stops : line.getLast? = some b) :
    ∃ before part after, source.toList = before ++ part ++ after ∧
      a.span.join b.span = ⟨place before, place (before ++ part)⟩ ∧
      (State.read {} part).close.tokens.map Token.unplaced = line.reverse.map Token.unplaced ∧
      (State.read {} part).close.diagnostics = [] := by
  rw [lines_tokenize, lines_eq] at here
  obtain ⟨init, others, split⟩ := List.append_of_mem (List.mem_filter.mp here).1
  obtain ⟨earlier, later, told, -, ended⟩ := exists_of_segments_eq split
  have clean' : (State.read {} source.toList).close.diagnostics = [] :=
    List.reverse_eq_nil_iff.mp clean
  have sublist := sublist_of_mem_segments (List.mem_filter.mp here).1
  have ordered := (ordered_close source.toList).1.sublist sublist
  have within : ∀ t ∈ line, t.span.Within source.toList :=
    fun t member => within_close source.toList t (sublist.mem member)
  rw [join_of_line ordered within starts stops]
  -- the cuts before the first token and after the last one
  have cuts := (Lexer.cut_read source.toList).close
  rw [clean', List.reverse_eq_iff.mp told] at cuts
  obtain ⟨rest, first⟩ := List.head?_eq_some_iff.mp starts
  obtain ⟨front, last⟩ := List.getLast?_eq_some_iff.mp stops
  have cut_first := cuts a earlier.reverse ⟨later.reverse ++ rest.reverse, by rw [first]; simp⟩
  have cut_last := cuts b (front.reverse ++ earlier.reverse) ⟨later.reverse, by rw [last]; simp⟩
  obtain ⟨before, c, after, whole, start, same, told_first⟩ := cut_first.1
  obtain ⟨before', after', whole', stop, told_last, reported⟩ := cut_last.2
  have further : (place before).offset ≤ (place before').offset := by
    rw [← start, ← stop]
    exact offset_le_of_ends ordered within starts stops
  obtain ⟨part, rfl⟩ := exists_between (whole.symm.trans whole') further
  cases part with
  | nil =>
    rw [List.append_nil, told_first] at told_last
    have longer := congrArg List.length told_last
    simp at longer
    omega
  | cons d mid =>
    rw [whole, List.append_assoc] at whole'
    obtain ⟨rfl, -⟩ := List.cons.inj (List.append_cancel_left whole')
    refine ⟨before, c :: mid, after', ?_, ?_, read_alone same ?_ ?_ ?_⟩
    · rw [whole, whole', List.append_assoc]
    · rw [start, stop]
    · rw [told_first, List.head?_reverse]
      exact ended
    · rw [told_last, told_first, last]
      simp
    · exact List.suffix_nil.mp reported

/-- What a line says does not depend on where it stands. -/
theorem spells_congr {us : List Token} (same : us.map Token.unplaced = line.map Token.unplaced)
    (items : List Event) : Spells items us ↔ Spells items line := by
  have symbols (ts : List Token) : ts.map Token.symbol? =
      (ts.map Token.unplaced).map Token.symbol? := by
    rw [List.map_map]
    rfl
  rw [Spells, Spells, symbols us, symbols line, same]

theorem parse_alone {part : List Char} {items : List Event}
    (told : (State.read {} part).close.tokens.map Token.unplaced = line.reverse.map Token.unplaced)
    (clean : (State.read {} part).close.diagnostics = []) (filled : line ≠ [])
    (spelled : Spells items line) :
    ∃ s, parse (String.ofList part) = ([s], []) ∧ s.event = eventOf items := by
  have same : (State.read {} part).close.tokens.reverse.map Token.unplaced =
      line.map Token.unplaced := by
    rw [List.map_reverse, told, List.map_reverse, List.reverse_reverse]
  have spelled' := (spells_congr same items).mpr spelled
  have filled' : (State.read {} part).close.tokens.reverse ≠ [] := by
    rintro none
    rw [none, List.map_nil] at same
    exact filled (List.map_eq_nil_iff.mp same.symm)
  have alone : lines (Lexer.tokenize (String.ofList part)).1 =
      [(State.read {} part).close.tokens.reverse] := by
    have cut := lines_plain_append filled' (plain_of_told spelled') segments_nil
    rw [List.append_nil] at cut
    rw [lines_tokenize, String.toList_ofList, cut]
    rfl
  obtain ⟨s, made, event⟩ :
      ∃ s, ofLine (State.read {} part).close.tokens.reverse = .ok s ∧ s.event = eventOf items :=
    ⟨_, ofLine_of_readItems (readItems_of_spells spelled') (List.head?_eq_some_head filled')
      (List.getLast?_eq_some_getLast filled'), rfl⟩
  have lexical : (Lexer.tokenize (String.ofList part)).2 = [] := by
    rw [Lexer.tokenize, String.toList_ofList, clean]
    rfl
  refine ⟨s, ?_, event⟩
  rw [parse_eq, lexical, ofTokens, alone, ofLines, made]
  rfl

end Cut

section Statements

variable {s : Statement} {source : String}

/-- What is known of a line that makes a statement. -/
theorem ofLine_eq_ok (h : (ofLine line).toOption = some s) (filled : line ≠ []) :
    ∃ items a b, Spells items line ∧ line.head? = some a ∧ line.getLast? = some b ∧
      s = ⟨eventOf items, a.span.join b.span⟩ := by
  have starts := List.head?_eq_some_head filled
  have stops := List.getLast?_eq_some_getLast filled
  rw [toOption_ofLine starts stops] at h
  obtain ⟨items, read, rfl⟩ := Option.map_eq_some_iff.mp h
  refine ⟨items, _, _, spells_of_readItems ?_, starts, stops, rfl⟩
  cases outcome : readItems line [] [] with
  | ok items' =>
    rw [outcome] at read
    rw [Option.some.inj read]
  | error d =>
    rw [outcome] at read
    cases read

/-- What comes after a newline stands on a line below what comes before it. -/
theorem lt_line_of_newline {n : Token} (kind : n.kind = .newline)
    (along : [a, n, b].Sublist (State.read {} cs).close.tokens.reverse) :
    a.span.stop.offset ≤ b.span.start.offset ∧ a.span.stop.line < b.span.start.line := by
  obtain ⟨ordered, reads⟩ := ordered_close cs
  obtain ⟨⟨to_n, -⟩, from_n, -⟩ : (a.span.stop.offset ≤ n.span.start.offset ∧
      a.span.stop.offset ≤ b.span.start.offset) ∧ n.span.stop.offset ≤ b.span.start.offset ∧ True := by
    simpa using ordered.sublist along
  have within_a := within_close cs a (along.mem (by simp))
  have within_n := within_close cs n (along.mem (by simp))
  have within_b := within_close cs b (along.mem (by simp))
  have down : n.span.stop.line = n.span.start.line + 1 := by
    obtain ⟨before, text, after, -, read, span⟩ := reads n (along.mem (by simp))
    have spells := read.spells
    rw [kind] at spells
    have newline : text = ['\n'] := spells
    rw [span, newline]
    simp only [place, List.count_append, List.count_singleton_self]
    omega
  have forward := within_n.start_le
  have above := within_a.stop_in.line_le within_n.start_in to_n
  have below := within_n.stop_in.line_le within_b.start_in from_n
  exact ⟨by omega, by omega⟩

/-- A statement goes from the first token of its line to the last one. -/
theorem span_of_ofLine (made : (ofLine line).toOption = some s) (filled : line ≠ [])
    (sublist : line.Sublist (State.read {} cs).close.tokens.reverse) :
    ∃ a ∈ line, ∃ b ∈ line, s.span = ⟨a.span.start, b.span.stop⟩ ∧
      a.span.start.line ≤ b.span.stop.line := by
  have ordered := (ordered_close cs).1.sublist sublist
  have within : ∀ t ∈ line, t.span.Within cs :=
    fun t member => within_close cs t (sublist.mem member)
  obtain ⟨items, a, b, -, starts, stops, rfl⟩ := ofLine_eq_ok made filled
  have first := List.mem_of_head? starts
  have last := List.mem_of_getLast? stops
  exact ⟨a, first, b, last, join_of_line ordered within starts stops,
    (within a first).start_in.line_le (within b last).stop_in
      (offset_le_of_ends ordered within starts stops)⟩

theorem pairwise_statements (source : String) :
    (parse source).1.Pairwise fun s s' =>
      s.span.stop.offset ≤ s'.span.start.offset ∧ s.line < s'.line := by
  rw [parse_eq, ofTokens, statements_ofLines, lines_tokenize, lines_eq, List.pairwise_filterMap]
  refine (List.Pairwise.filter _ (pairwise_segments _)).imp_of_mem ?_
  intro line line' here here' between s made s' made'
  obtain ⟨here, filled⟩ := List.mem_filter.mp here
  obtain ⟨here', filled'⟩ := List.mem_filter.mp here'
  obtain ⟨a, -, b, last, span, forward⟩ :=
    span_of_ofLine made (by simpa using filled) (sublist_of_mem_segments here)
  obtain ⟨a', first, _, -, span', -⟩ :=
    span_of_ofLine made' (by simpa using filled') (sublist_of_mem_segments here')
  obtain ⟨n, newline, along⟩ := between b last a' first
  obtain ⟨apart, down⟩ := lt_line_of_newline newline along
  rw [Statement.line, Statement.line, span, span']
  exact ⟨apart, Nat.lt_of_le_of_lt forward down⟩

end Statements

/-- In a script in which nothing is wrong the span of each statement marks a part of it in which
    nothing is wrong and which is this one statement.  The spans come in the order of the statements
    and do not overlap, and each statement begins on a line below the one before it. -/
theorem spans_mark_statements (source : String) (clean : (parse source).2 = []) :
    (∀ s ∈ (parse source).1, ∃ before part after : String, source = before ++ part ++ after ∧
      s.span = ⟨place before.toList, place (before ++ part).toList⟩ ∧
      ∃ s', parse part = ([s'], []) ∧ s'.event = s.event) ∧
    (parse source).1.Pairwise fun s s' =>
      s.span.stop.offset ≤ s'.span.start.offset ∧ s.line < s'.line := by
  refine ⟨fun s member => ?_, pairwise_statements source⟩
  rw [parse_eq, ofTokens, statements_ofLines] at member
  obtain ⟨line, here, made⟩ := List.mem_filterMap.mp member
  have filled := ne_nil_of_mem_lines here
  obtain ⟨items, a, b, spelled, starts, stops, rfl⟩ := ofLine_eq_ok made filled
  have lexical : (Lexer.tokenize source).2 = [] := by
    rw [parse_eq] at clean
    exact (List.append_eq_nil_iff.mp clean).1
  obtain ⟨before, part, after, whole, span, told, reported⟩ :=
    exists_part lexical here starts stops
  obtain ⟨s', parsed, same⟩ := parse_alone told reported filled spelled
  refine ⟨.ofList before, .ofList part, .ofList after, ?_, ?_, s', parsed, same⟩
  · rw [← String.ofList_append, ← String.ofList_append, ← whole, String.ofList_toList]
  · rw [← String.ofList_append, String.toList_ofList, String.toList_ofList]
    exact span

theorem span_of_nested_statement :
    (parse "-- top\n Read (\nZero) -- é\nPrint \"é\"").2 = [] ∧
    ∃ before part after s',
      "-- top\n Read (\nZero) -- é\nPrint \"é\"" = before ++ part ++ after ∧
      parse part = ([s'], []) ∧ s'.event = .list [.word "Read", .list [.word "Zero"]] := by
  have clean : (parse "-- top\n Read (\nZero) -- é\nPrint \"é\"").2 = [] := by decide +kernel
  obtain ⟨before, part, after, whole, -, s', parsed, same⟩ := (spans_mark_statements _ clean).1
    ⟨.list [.word "Read", .list [.word "Zero"]], ⟨⟨2, 2, 8⟩, ⟨3, 6, 20⟩⟩⟩ (by decide +kernel)
  exact ⟨clean, before, part, after, s', whole, parsed, same⟩

end Statement

end MarketScript
