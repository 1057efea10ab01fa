import MarketScript.Proofs.Lexer.Written
import MarketScript.Proofs.Statement.Grammar

/-!
# Writing and reading back

An event that is written as a script is read back as itself exactly if its quoted texts have nothing
in them that quoting would have to escape.
-/

namespace MarketScript

namespace Statement

open Lexer (Lexable Literal Ordinary Readable)
open Event (flatten)
open MarketScript.Symbol (gap writeAfter)

variable {source : String} {items : List Event} {syms pre post : List Symbol} {a b : Symbol}

section Symbols

theorem plain_of_told {ts : List Token} (told : ts.map Token.symbol? = syms.map some) :
    ∀ t ∈ ts, t.symbol? ≠ none := by
  intro t ht none
  have mem : t.symbol? ∈ syms.map some := told ▸ List.mem_map_of_mem ht
  simp [none] at mem

/-- Where one symbol more stands in front and the beginning is the same, it is repeated. -/
theorem eq_of_shift (same : a :: (pre ++ syms) = pre ++ b :: post) : b = a := by
  induction pre generalizing a with
  | nil => exact (List.cons.inj same).1.symm
  | cons c pre ih =>
    obtain ⟨head, tail⟩ := List.cons.inj same
    rw [ih tail, head]

/-- The first symbol that does not stand for itself. -/
theorem exists_first_unreadable (h : ¬ ∀ b ∈ syms, Readable b) :
    ∃ pre b post, syms = pre ++ b :: post ∧ (∀ a ∈ pre, Readable a) ∧ ¬ Readable b := by
  induction syms with
  | nil => simp at h
  | cons a syms ih =>
    by_cases readable : Readable a
    · obtain ⟨pre, b, post, rfl, before, here⟩ :=
        ih fun all => h (List.forall_mem_cons.mpr ⟨readable, all⟩)
      exact ⟨a :: pre, b, post, rfl, List.forall_mem_cons.mpr ⟨readable, before⟩, here⟩
    · exact ⟨[], a, syms, rfl, by simp, readable⟩

end Symbols

section Parse

theorem tokenize_eq (source : String) : ∃ ts eof,
    (Lexer.tokenize source).1 = ts ++ [eof] ∧ eof.kind = .eof ∧
      ts.map Token.symbol? = (Lexer.State.read {} source.toList).told ∧
      (Lexer.tokenize source).2 = (Lexer.State.read {} source.toList).close.diagnostics.reverse :=
  ⟨_, _, rfl, rfl, rfl, rfl⟩

/-- A text that says what one list says is one statement. -/
theorem parse_of_told
    (told : (Lexer.State.read {} source.toList).told = (Event.list items).symbols.map some)
    (clean : (Lexer.State.read {} source.toList).close.diagnostics = []) :
    (parse source).1.map (·.event) = [.list items] ∧ (parse source).2 = [] := by
  obtain ⟨ts, eof, tokens, ends, said, reported⟩ := tokenize_eq source
  rw [told] at said
  have filled : ts ≠ [] := by
    rintro rfl
    simp [Event.symbols] at said
  have line : lines (ts ++ [eof]) = [ts] := by
    rw [lines_plain_append filled (plain_of_told said) (segments_cons_eof ends),
      List.append_nil]
    rfl
  have spelled : Spells [.list items] ts := by
    rw [Spells, Event.flatten_singleton, said]
  have read := ofLine_of_readItems (readItems_of_spells spelled)
    (List.head?_eq_some_head filled) (List.getLast?_eq_some_getLast filled)
  rw [parse_eq, tokens, reported, clean, ofTokens, line, ofLines, read]
  exact ⟨rfl, rfl⟩

theorem readItems_of_ofLine {line : List Token} {statement : Statement}
    (ok : ofLine line = .ok statement) :
    ∃ es, readItems line [] [] = .ok es ∧ statement.event = eventOf es := by
  cases read : readItems line [] [] with
  | ok es =>
    simp only [ofLine, read, Except.map, Except.ok.injEq] at ok
    exact ⟨es, rfl, by rw [← ok]⟩
  | error d => simp [ofLine_of_error read] at ok

theorem ofLine_of_ofLines {line : List Token} {ls : List (List Token)} {e : Event}
    (one : (ofLines (line :: ls)).1.map (·.event) = [e]) (clean : (ofLines (line :: ls)).2 = []) :
    ∃ statement, ofLine line = .ok statement ∧ statement.event = e := by
  rw [ofLines] at one clean
  cases read : ofLine line with
  | ok statement =>
    rw [read] at one
    exact ⟨statement, rfl, (List.cons.inj one).1⟩
  | error d => simp [read] at clean

/-- The first line of a text that is one statement says what is said first. -/
theorem spells_of_parse {more : List (Option Symbol)}
    (told : (Lexer.State.read {} source.toList).told = pre.map some ++ some b :: more)
    (one : (parse source).1.map (·.event) = [.list items]) (clean : (parse source).2 = []) :
    ∃ es rest, flatten es = pre ++ b :: rest ∧ eventOf es = .list items := by
  obtain ⟨ts, eof, tokens, ends, said, -⟩ := tokenize_eq source
  rw [told, List.append_cons, ← List.map_singleton, ← List.map_append,
    List.map_eq_append_iff] at said
  obtain ⟨start, others, rfl, said, -⟩ := said
  have filled : start ≠ [] := by
    rintro rfl
    simp at said
  obtain ⟨first, lines', next⟩ := List.exists_cons_of_ne_nil (segments_ne_nil (others ++ [eof]))
  have plain := plain_of_told said
  rw [parse_eq, tokens, List.append_assoc] at one clean
  rw [ofTokens, lines_plain_append filled plain next] at one clean
  obtain ⟨statement, ok, event⟩ := ofLine_of_ofLines one (List.append_eq_nil_iff.mp clean).2
  obtain ⟨es, read, same⟩ := readItems_of_ofLine ok
  have spelled := spells_of_readItems read
  rw [Spells, List.map_append, said, eq_comm, List.map_eq_append_iff] at spelled
  obtain ⟨before, rest, split, before_eq, -⟩ := spelled
  rw [List.map_inj_right fun _ _ => Option.some.inj] at before_eq
  exact ⟨es, rest, by rw [split, before_eq, ← List.append_cons], same.symm.trans event⟩

theorem eq_of_eventOf {es : List Event} (event : eventOf es = .list items) :
    es = [.list items] ∨ es = items := by
  unfold eventOf at event
  split at event
  · exact .inl (by rw [event])
  · exact .inr (Event.list.inj event)

/-- A list that is read back has nothing to escape in it. -/
theorem readable_of_parse (words : ∀ w, .word w ∈ (Event.list items).symbols → Lexable w)
    (one : (parse (Event.list items).text).1.map (·.event) = [.list items])
    (clean : (parse (Event.list items).text).2 = []) :
    ∀ b ∈ (Event.list items).symbols, Readable b := by
  by_contra unreadable
  obtain ⟨pre, b, post, split, before, here⟩ := exists_first_unreadable unreadable
  obtain ⟨t, rfl, escaped⟩ : ∃ t, b = .quoted t ∧ ¬ ∀ c ∈ t.toList, Ordinary c := by
    cases b with
    | word w => exact absurd (words w (by simp [split])) here
    | quoted t => exact ⟨t, rfl, here⟩
    | opening | closing => exact absurd trivial here
  obtain ⟨rests, told, -⟩ :=
    Lexer.State.read_writeAfter (s := {}) (Lexer.State.rests_of_idle rfl .opening) before
  have text : (Event.list items).text.toList = writeAfter .opening pre ++
      (gap (pre.getLastD .opening) (.quoted t) ++ (Symbol.quoted t).chars ++
        writeAfter (.quoted t) post) := by
    rw [Event.toList_text, split, Symbol.writeAfter_append, writeAfter, List.append_assoc]
  have next := Lexer.State.read_quoted rests t (writeAfter (.quoted t) post)
  rw [← Lexer.State.read_append, ← text, told] at next
  rcases next with reported | ⟨body, content, rest', more, same, literal, said⟩
  · rw [parse_eq, List.append_eq_nil_iff] at clean
    exact reported (List.reverse_eq_nil_iff.mp clean.1)
  · obtain ⟨es, rest, flat, event⟩ := spells_of_parse said one clean
    rcases eq_of_eventOf event with rfl | rfl
    · -- the text is read as its own content
      rw [Event.flatten_singleton, split] at flat
      obtain ⟨own, -⟩ := List.cons.inj (List.append_cancel_left flat)
      rw [Symbol.quoted.inj own, String.toList_ofList] at same escaped
      exact escaped (literal.ordinary_of_shift (k := 0) same).2
    · -- the inside of the list is read, so that the parenthesis around it comes twice
      rw [Event.symbols, flat, List.append_assoc] at split
      exact absurd (eq_of_shift split) Symbol.noConfusion

end Parse

/-- Written and read back, a list of lexable words and quoted texts is one statement and the same
    list, with nothing to report, exactly if no quoted text has a quote, a backslash or a newline in
    it. -/
theorem parse_text_iff {items : List Event}
    (words : ∀ w, .word w ∈ (Event.list items).symbols → Lexable w) :
    ((parse (Event.list items).text).1.map (·.event) = [.list items] ∧
      (parse (Event.list items).text).2 = []) ↔
      ∀ t, .quoted t ∈ (Event.list items).symbols →
        ∀ c ∈ t.toList, c ≠ '"' ∧ c ≠ '\\' ∧ c ≠ '\n' := by
  constructor
  · rintro ⟨one, clean⟩ t ht
    exact readable_of_parse words one clean _ ht
  · intro ordinary
    have readable : ∀ b ∈ (Event.list items).symbols, Readable b := by
      intro b hb
      cases b with
      | word w => exact words w hb
      | quoted t => exact ordinary t hb
      | opening | closing => trivial
    obtain ⟨rests, told, clean⟩ :=
      Lexer.State.read_writeAfter (s := {}) (Lexer.State.rests_of_idle rfl .opening) readable
    rw [← Event.toList_text] at rests told clean
    exact parse_of_told told (rests.diagnostics_close.trans clean)

theorem parse_text_print :
    Lexable "Print" ∧
      (parse (Event.list [.word "Print", .quoted "-- (", .list []]).text).1.map (·.event) =
          [.list [.word "Print", .quoted "-- (", .list []]] ∧
        (parse (Event.list [.word "Print", .quoted "-- (", .list []]).text).2 = [] := by
  have lexable : Lexable "Print" := by decide +kernel
  refine ⟨lexable, (parse_text_iff ?_).mpr ?_⟩
  · intro w hw
    have same : w = "Print" := by simpa [Event.symbols, Event.flatten] using hw
    rw [same]
    exact lexable
  · intro t ht
    have same : t = "-- (" := by simpa [Event.symbols, Event.flatten] using ht
    have chars : "-- (".toList = ['-', '-', ' ', '('] := rfl
    simp [same, chars]

end Statement

end MarketScript
