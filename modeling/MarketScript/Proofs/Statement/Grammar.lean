import Mathlib.Data.List.Forall2
import MarketScript.Proofs.Statement.Items
import MarketScript.Proofs.Statement.Lines

/-!
# The grammar of scripts

What a script is made of, said without reading it: each line whose parentheses match is one
statement, and each other line has one parenthesis to blame.
-/

namespace MarketScript

namespace Statement

/-- What a line comes to. -/
inductive Outcome : List Token → Except Diagnostic Statement → Prop
  /-- A line that is one group is the group itself. -/
  | group {line : List Token} {items : List Event} {first last : Token}
      (balanced : Line.Balanced line) (spelled : Spells [.list items] line)
      (starts : line.head? = some first) (stops : line.getLast? = some last) :
      Outcome line (.ok ⟨.list items, first.span.join last.span⟩)
  /-- Every other line is a list of what stands on it. -/
  | row {line : List Token} {items : List Event} {first last : Token}
      (balanced : Line.Balanced line) (spelled : Spells items line)
      (several : ∀ inner, items ≠ [.list inner])
      (starts : line.head? = some first) (stops : line.getLast? = some last) :
      Outcome line (.ok ⟨.list items, first.span.join last.span⟩)
  /-- The first parenthesis that closes nothing: what stands before it is balanced. -/
  | stray {before after : List Token} {t : Token} (balanced : Line.Balanced before)
      (closing : t.kind = .rightParen) :
      Outcome (before ++ t :: after) (.error { message := "unexpected ')'", span := t.span })
  /-- The last parenthesis that is never closed, on a line that closes nothing else: what stands
      after it is balanced. -/
  | unclosed {before after : List Token} {t : Token}
      (supported : Line.Supported (before ++ t :: after)) (opening : t.kind = .leftParen)
      (balanced : Line.Balanced after) :
      Outcome (before ++ t :: after)
        (.error { message := "unclosed '('", span := t.span,
                  note := some "every '(' needs a matching ')'" })

variable {line : List Token} {items : List Event} {o : Except Diagnostic Statement}

theorem readItems_of_spells (spelled : Spells items line) : readItems line [] [] = .ok items := by
  have read := readItems_flatten items spelled [] [] []
  rw [List.append_nil, List.append_nil] at read
  rw [read, readItems, List.reverse_reverse]

/-- The events of a line are the ones it spells. -/
theorem readItems_iff : readItems line [] [] = .ok items ↔ Spells items line :=
  ⟨spells_of_readItems, readItems_of_spells⟩

theorem ofLine_of_readItems {first last : Token} (read : readItems line [] [] = .ok items)
    (starts : line.head? = some first) (stops : line.getLast? = some last) :
    ofLine line = .ok ⟨eventOf items, first.span.join last.span⟩ := by
  simp [ofLine, read, starts, stops, Except.map]

theorem ofLine_of_error {d : Diagnostic} (read : readItems line [] [] = .error d) :
    ofLine line = .error d := by
  simp [ofLine, read, Except.map]

theorem eventOf_of_several (several : ∀ inner, items ≠ [.list inner]) :
    eventOf items = .list items := by
  unfold eventOf
  split
  · exact absurd rfl (several _)
  · rfl

theorem Outcome.eq_ofLine (h : Outcome line o) (plain : ∀ t ∈ line, t.symbol? ≠ none) :
    o = ofLine line := by
  cases h with
  | group _ spelled starts stops =>
    rw [ofLine_of_readItems (readItems_of_spells spelled) starts stops]
    rfl
  | row _ spelled several starts stops =>
    rw [ofLine_of_readItems (readItems_of_spells spelled) starts stops, eventOf_of_several several]
  | stray balanced closing =>
    rw [ofLine_of_error (readItems_stray (List.forall_mem_append.mp plain).1 balanced closing)]
    rfl
  | unclosed supported opening balanced =>
    rw [ofLine_of_error (readItems_unclosed plain supported opening balanced)]
    rfl

theorem outcome_of_balanced (filled : line ≠ []) (plain : ∀ t ∈ line, t.symbol? ≠ none)
    (balanced : Line.Balanced line) : ∃ o, Outcome line o := by
  obtain ⟨items, -, spelled⟩ := readItems_balanced plain balanced
  have starts := List.head?_eq_some_head filled
  have stops := List.getLast?_eq_some_getLast filled
  by_cases single : ∃ inner, items = [.list inner]
  · obtain ⟨inner, rfl⟩ := single
    exact ⟨_, .group balanced spelled starts stops⟩
  · exact ⟨_, .row balanced spelled (fun inner same => single ⟨inner, same⟩) starts stops⟩

theorem exists_outcome (filled : line ≠ []) (plain : ∀ t ∈ line, t.symbol? ≠ none) :
    ∃ o, Outcome line o := by
  rcases Line.balanced_or_exists line with
    balanced | ⟨before, t, after, rfl, closing, balanced⟩ |
    ⟨supported, before, t, after, rfl, opening, balanced⟩
  · exact outcome_of_balanced filled plain balanced
  · exact ⟨_, .stray balanced closing⟩
  · exact ⟨_, .unclosed supported opening balanced⟩

/-- A line is read as what it comes to. -/
theorem outcome_iff (filled : line ≠ []) (plain : ∀ t ∈ line, t.symbol? ≠ none) :
    Outcome line o ↔ o = ofLine line := by
  constructor
  · intro h
    exact h.eq_ofLine plain
  · rintro rfl
    obtain ⟨o, h⟩ := exists_outcome filled plain
    exact h.eq_ofLine plain ▸ h

/-- A line is a statement exactly if its parentheses match. -/
theorem isSome_ofLine_iff (filled : line ≠ []) (plain : ∀ t ∈ line, t.symbol? ≠ none) :
    (ofLine line).toOption.isSome ↔ Line.Balanced line := by
  constructor
  · intro ok
    cases read : ofLine line with
    | ok statement =>
      cases (outcome_iff filled plain).mpr read.symm with
      | group balanced => exact balanced
      | row balanced => exact balanced
    | error d => simp [read, Except.toOption] at ok
  · intro balanced
    obtain ⟨items, read, -⟩ := readItems_balanced plain balanced
    rw [ofLine_of_readItems read (List.head?_eq_some_head filled)
      (List.getLast?_eq_some_getLast filled)]
    rfl

/-- The diagnostic that a line comes to, if it is one. -/
def diagnostic? : Except Diagnostic Statement → Option Diagnostic
  | .ok _ => none
  | .error d => some d

theorem ofLines_eq (ls : List (List Token)) :
    ofLines ls =
      ((ls.map ofLine).filterMap Except.toOption, (ls.map ofLine).filterMap diagnostic?) := by
  induction ls with
  | nil => rfl
  | cons line ls ih =>
    rw [ofLines, ih, List.map_cons]
    cases ofLine line <;> rfl

theorem statements_ofLines (ls : List (List Token)) :
    (ofLines ls).1 = ls.filterMap fun line => (ofLine line).toOption := by
  rw [ofLines_eq, List.filterMap_map]
  rfl

theorem parse_eq (source : String) :
    parse source = ((ofTokens (Lexer.tokenize source).1).1,
      (Lexer.tokenize source).2 ++ (ofTokens (Lexer.tokenize source).1).2) :=
  rfl

end Statement

end MarketScript
