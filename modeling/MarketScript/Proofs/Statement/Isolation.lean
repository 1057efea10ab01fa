import MarketScript.Proofs.Lexer.Below
import MarketScript.Proofs.Lexer.Literal
import MarketScript.Proofs.Statement.Grammar

/-!
# Lines on their own

What comes after a newline is read as a script of its own, whatever is wrong with the lines before
it, unless the newline came inside a quoted text that was never closed: such a newline ends the
quoted text, or stands in it after a backslash, and ends no line.
-/

namespace MarketScript

namespace Statement

variable {n m : Nat} {line ts us vs : List Token}

section Shift

theorem spells_shift {items : List Event} :
    Spells items (line.map (·.shift n m)) ↔ Spells items line := by
  rw [Spells, Spells, List.map_map]
  rfl

theorem toOption_readItems_shift (n m : Nat) (line : List Token) :
    (readItems (line.map (·.shift n m)) [] []).toOption =
      (readItems line [] []).toOption := by
  cases read : readItems line [] [] with
  | ok items => rw [readItems_iff.mpr (spells_shift.mpr (readItems_iff.mp read))]
  | error d =>
    cases read' : readItems (line.map (·.shift n m)) [] [] with
    | ok items =>
      rw [readItems_iff.mpr (spells_shift.mp (readItems_iff.mp read'))] at read
      cases read
    | error d' => rfl

theorem toOption_ofLine {first last : Token} (starts : line.head? = some first)
    (stops : line.getLast? = some last) :
    (ofLine line).toOption = (readItems line [] []).toOption.map fun items =>
      ⟨eventOf items, first.span.join last.span⟩ := by
  rw [ofLine, starts, stops]
  cases readItems line [] [] <;> rfl

/-- The statement of a line further down is the same statement further down. -/
theorem toOption_ofLine_shift (filled : line ≠ []) :
    (ofLine (line.map (·.shift n m))).toOption =
      (ofLine line).toOption.map (·.shift n m) := by
  have starts := List.head?_eq_some_head filled
  have stops := List.getLast?_eq_some_getLast filled
  rw [toOption_ofLine starts stops,
    toOption_ofLine (by rw [List.head?_map, starts]; rfl) (by rw [List.getLast?_map, stops]; rfl),
    toOption_readItems_shift, Option.map_map]
  congr 1
  funext items
  exact congrArg _ (Span.join_shift n m ..)

theorem statements_shift (ts : List Token) :
    (ofTokens (ts.map (·.shift n m))).1 = (ofTokens ts).1.map (·.shift n m) := by
  rw [ofTokens, ofTokens, lines_map (f := Token.shift n m) fun _ => rfl, statements_ofLines,
    statements_ofLines, List.filterMap_map, List.map_filterMap]
  exact List.filterMap_congr fun line here => toOption_ofLine_shift (ne_nil_of_mem_lines here)

end Shift

section Newline

variable {s₁ : String}

theorem lines_tokenize (source : String) :
    lines (Lexer.tokenize source).1 =
      lines (Lexer.State.read {} source.toList).close.tokens.reverse :=
  lines_concat_end (fun t ht => Lexer.State.unended_read _ t (List.mem_reverse.mp ht)) rfl

theorem statements_append (level : (Lexer.State.read {} s₁.toList).depth = 0)
    (unquoted : (Lexer.State.read {} s₁.toList).mode.quoting = false) (s₂ : String) :
    (parse (s₁ ++ "\n" ++ s₂)).1 = (parse s₁).1 ++
      (parse s₂).1.map (·.shift (s₁.toList.count '\n' + 1) (s₁.utf8ByteSize + 1)) := by
  obtain ⟨above, read, down, further, tokens⟩ := Lexer.State.read_newline level unquoted
  have whole : Lexer.State.read {} (s₁ ++ "\n").toList = Lexer.State.below above {} := by
    rw [String.toList_append, ← read]
    rfl
  have unended : ∀ t ∈ above.tokens.reverse, t.kind ≠ .eof :=
    fun t ht => above.unended t (List.mem_reverse.mp ht)
  have ended : ∀ t ∈ above.tokens.reverse.getLast?, t.kind = .newline := by
    rw [List.getLast?_reverse]
    exact above.ended
  have same : lines above.tokens.reverse = lines (Lexer.tokenize s₁).1 := by
    rw [lines_tokenize]
    rcases tokens with same | ⟨t, newline, same⟩
    · rw [same]
    · rw [same, List.reverse_cons]
      refine lines_concat_end (fun u hu => ?_) (Token.symbol?_eq_none.mpr (.inl newline))
      exact Lexer.State.unended_read _ u (List.mem_reverse.mp hu)
  rw [parse_eq, Lexer.tokenize_below whole, ofTokens, lines_append unended ended, same,
    statements_ofLines, List.filterMap_append, ← statements_ofLines, ← statements_ofLines]
  change _ ++ (ofTokens _).1 = _
  rw [statements_shift, down, further, String.ofList_toList]
  rfl

end Newline

section Quoting

theorem plain_of_flat (flat : ∀ t ∈ us, t.kind = .word ∨ t.kind = .str) :
    ∀ t ∈ us, t.symbol? ≠ none := by
  intro t ht
  rcases flat t ht with kind | kind <;> simp [Token.symbol?_eq_none, kind]

/-- The last line is a statement or not, whatever words and quoted texts end it. -/
theorem length_statements_append (unended : ∀ t ∈ ts, t.kind ≠ .eof) :
    ∃ count, ∀ us, us ≠ [] → (∀ t ∈ us, t.kind = .word ∨ t.kind = .str) →
      (ofLines (lines (ts ++ us))).1.length = count := by
  classical
  obtain ⟨init, last, split, glue⟩ := segments_append unended
  refine ⟨(ofLines (init.filter (· ≠ []))).1.length + if Line.Balanced last then 1 else 0, ?_⟩
  intro us filled flat
  have plain := plain_of_flat flat
  have cut : lines (ts ++ us) = init.filter (· ≠ []) ++ [last ++ us] := by
    have next := segments_plain_append plain segments_nil
    rw [List.append_nil] at next
    rw [lines_eq, glue us us [] next, List.filter_append]
    simp [filled]
  -- what ends the line has no parentheses, so that those of `last` decide
  have balanced : (ofLine (last ++ us)).toOption.isSome ↔ Line.Balanced last := by
    rw [isSome_ofLine_iff (by simp [filled]), Line.balanced_append_iff]
    · intro t ht
      rcases flat t ht with kind | kind <;> simp [kind]
    · have here : last ∈ segments ts := by simp [split]
      exact List.forall_mem_append.mpr ⟨plain_of_mem_segments here, plain⟩
  rw [cut, statements_ofLines, List.filterMap_append, ← statements_ofLines, List.length_append]
  congr 1
  cases one : (ofLine (last ++ us)).toOption with
  | some statement =>
    rw [if_pos (balanced.mp (by rw [one]; rfl))]
    simp [one]
  | none =>
    rw [if_neg fun level => by simpa [one] using balanced.mpr level]
    simp [one]

/-- If a quoted text is left open, what follows on the next line makes no statement of its own. -/
theorem length_statements_quoting {s₁ : String}
    (quoting : (Lexer.State.read {} s₁.toList).mode.quoting = true) :
    (parse (s₁ ++ "\n" ++ "x")).1.length = (parse s₁).1.length := by
  obtain ⟨t, kind, closed⟩ := Lexer.State.close_quoting quoting
  obtain ⟨us, filled, flat, more⟩ := Lexer.State.read_newline_quoting quoting
  have unended := (Lexer.State.grows_read {} s₁.toList).unended (by simp)
  obtain ⟨count, same⟩ := length_statements_append fun t ht => unended t (List.mem_reverse.mp ht)
  have alone : (parse s₁).1.length = count := by
    rw [parse_eq, ofTokens, lines_tokenize, closed, List.reverse_cons]
    exact same [t] (by simp) (by simp [kind])
  have whole : (parse (s₁ ++ "\n" ++ "x")).1.length = count := by
    rw [parse_eq, ofTokens, lines_tokenize, String.toList_append, String.toList_append,
      List.append_assoc, Lexer.State.read_append]
    have next : "\n".toList ++ "x".toList = ['\n', 'x'] := rfl
    rw [next, more, List.reverse_append]
    exact same us.reverse (by simpa using filled) fun t ht => flat t (List.mem_reverse.mp ht)
  rw [whole, alone]

end Quoting

/-- After a text that leaves no parenthesis open, what follows on the next lines is read on its own,
    whatever is wrong with the text, exactly if the text leaves no quoted text open either. -/
theorem isolated_iff (s₁ : String) (level : (Lexer.State.read {} s₁.toList).depth = 0) :
    (∀ s₂, (parse (s₁ ++ "\n" ++ s₂)).1 = (parse s₁).1 ++
        (parse s₂).1.map (·.shift (s₁.toList.count '\n' + 1) (s₁.utf8ByteSize + 1))) ↔
      (Lexer.State.read {} s₁.toList).mode.quoting = false := by
  constructor
  · intro isolated
    by_contra quoting
    rw [Bool.not_eq_false] at quoting
    -- a word on the next line would be one statement more
    have one : (parse "x").1.length = 1 := by decide +kernel
    have longer := congrArg List.length (isolated "x")
    rw [length_statements_quoting quoting, List.length_append, List.length_map, one] at longer
    omega
  · exact statements_append level

theorem isolated_below_errors :
    (Lexer.State.read {} "Read ) \"\\q\"".toList).depth = 0 ∧
      (parse "Read ) \"\\q\"").2.length = 2 ∧
      ∀ s₂, (parse ("Read ) \"\\q\"" ++ "\n" ++ s₂)).1 = (parse s₂).1.map (·.shift 1 12) := by
  have level : (Lexer.State.read {} "Read ) \"\\q\"".toList).depth = 0 := by decide +kernel
  have none : (parse "Read ) \"\\q\"").1 = [] := by decide +kernel
  have isolated := (isolated_iff "Read ) \"\\q\"" level).mpr (by decide +kernel)
  rw [none] at isolated
  exact ⟨level, by decide +kernel, isolated⟩

/-- The rest of the script is read as part of the line on which a quoted text was left open. -/
theorem open_quote_swallows_line :
    (Lexer.State.read {} "Print \"oops".toList).depth = 0 ∧
      (parse ("Print \"oops" ++ "\n" ++ "Read 1")).1.map (·.event) ≠
        (parse "Print \"oops").1.map (·.event) ++ (parse "Read 1").1.map (·.event) := by
  decide +kernel

end Statement

end MarketScript
