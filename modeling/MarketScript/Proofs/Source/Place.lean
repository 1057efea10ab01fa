import MarketScript.Source.Position

/-!
# Places in a text

A reader counts lines, columns and bytes as it goes.  The place that it comes to can also be told from
the text before it alone.
-/

namespace MarketScript

namespace Position

/-- The place after a text: one line more than it has newlines, one column more than it has
    characters after the last of them, and its bytes. -/
def place (text : List Char) : Position where
  line := 1 + text.count '\n'
  column := 1 + (text.reverse.takeWhile (· ≠ '\n')).length
  offset := (String.ofList text).utf8ByteSize

example : place "é\nab".toList = ⟨2, 3, 5⟩ := by decide

/-- One more character. -/
theorem step_place (text : List Char) (c : Char) : (place text).step c = place (text ++ [c]) := by
  have offset : (String.ofList (text ++ [c])).utf8ByteSize =
      (String.ofList text).utf8ByteSize + c.utf8Size := by
    rw [String.ofList_append, String.utf8ByteSize_append, ← String.singleton_eq_ofList,
      String.utf8ByteSize_singleton]
  unfold step place
  rw [offset, List.count_append, List.reverse_concat]
  by_cases newline : c = '\n'
  · subst newline
    rw [if_pos rfl, List.count_singleton_self, List.takeWhile_cons_of_neg (by simp)]
    rfl
  · rw [if_neg newline, List.count_singleton, if_neg (by simpa using newline),
      List.takeWhile_cons_of_pos (by simpa using newline), List.length_cons]
    rfl

/-- More text is further on. -/
theorem offset_place_append (text more : List Char) :
    (place (text ++ more)).offset = (place text).offset + (String.ofList more).utf8ByteSize := by
  show (String.ofList (text ++ more)).utf8ByteSize = _
  rw [String.ofList_append, String.utf8ByteSize_append]
  rfl

end Position

/-- A span marks a part of a text. -/
def Span.Within (s : Span) (text : List Char) : Prop :=
  ∃ before part after, text = before ++ part ++ after ∧
    s = ⟨.place before, .place (before ++ part)⟩

theorem Span.Within.append {s : Span} {text : List Char} (h : s.Within text) (more : List Char) :
    s.Within (text ++ more) := by
  obtain ⟨before, part, after, rfl, span⟩ := h
  exact ⟨before, part, after ++ more, List.append_assoc .., span⟩

/-- A part of a text ends within it. -/
theorem Span.Within.stop_le {s : Span} {text : List Char} (h : s.Within text) :
    s.stop.offset ≤ (Position.place text).offset := by
  obtain ⟨before, part, after, rfl, rfl⟩ := h
  rw [Position.offset_place_append (before ++ part) after]
  exact Nat.le_add_right _ _

theorem Span.Within.start_le {s : Span} {text : List Char} (h : s.Within text) :
    s.start.offset ≤ s.stop.offset := by
  obtain ⟨before, part, after, rfl, rfl⟩ := h
  rw [Position.offset_place_append]
  exact Nat.le_add_right _ _

/-- A place of a text. -/
def Position.In (p : Position) (text : List Char) : Prop :=
  ∃ before after, text = before ++ after ∧ p = .place before

theorem Span.Within.start_in {s : Span} {text : List Char} (h : s.Within text) : s.start.In text := by
  obtain ⟨before, part, after, rfl, rfl⟩ := h
  exact ⟨before, part ++ after, List.append_assoc .., rfl⟩

theorem Span.Within.stop_in {s : Span} {text : List Char} (h : s.Within text) : s.stop.In text := by
  obtain ⟨before, part, after, rfl, rfl⟩ := h
  exact ⟨before ++ part, after, rfl, rfl⟩

namespace Position

variable {p q : Position} {text before before' after after' : List Char}

/-- Of two beginnings of a text the one with fewer bytes is the shorter one. -/
theorem exists_between (same : before ++ after = before' ++ after')
    (le : (place before).offset ≤ (place before').offset) : ∃ part, before' = before ++ part := by
  rcases List.append_eq_append_iff.mp same with ⟨part, longer, -⟩ | ⟨part, longer, -⟩
  · exact ⟨part, longer⟩
  · rw [longer, offset_place_append] at le
    have none : (String.ofList part).utf8ByteSize = 0 := by omega
    have empty : part = [] := by simpa using none
    exact ⟨[], by rw [longer, empty, List.append_nil, List.append_nil]⟩

/-- Two places of a text mark the part between them. -/
theorem In.within (hp : p.In text) (hq : q.In text) (le : p.offset ≤ q.offset) :
    Span.Within ⟨p, q⟩ text := by
  obtain ⟨before, after, rfl, rfl⟩ := hp
  obtain ⟨before', after', same, rfl⟩ := hq
  obtain ⟨part, rfl⟩ := exists_between same le
  exact ⟨before, part, after', same, rfl⟩

theorem In.line_le (hp : p.In text) (hq : q.In text) (le : p.offset ≤ q.offset) :
    p.line ≤ q.line := by
  obtain ⟨before, part, after, -, same⟩ := hp.within hq le
  obtain ⟨rfl, rfl⟩ := Span.mk.inj same
  simp only [place, List.count_append]
  omega

/-- Places are told apart by their offsets. -/
theorem In.eq_of_offset (hp : p.In text) (hq : q.In text) (same : p.offset = q.offset) : p = q := by
  obtain ⟨before, part, after, -, span⟩ := hp.within hq (Nat.le_of_eq same)
  obtain ⟨rfl, rfl⟩ := Span.mk.inj span
  rw [offset_place_append] at same
  have none : (String.ofList part).utf8ByteSize = 0 := by omega
  have empty : part = [] := by simpa using none
  rw [empty, List.append_nil]

end Position

end MarketScript
