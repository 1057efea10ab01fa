import MarketScript.Proofs.Statement.Symbols
import MarketScript.Statement

/-!
# Logical lines

The lines of some tokens are the runs between newlines that come before the end of the text.
-/

namespace MarketScript

namespace Statement

/-- The tokens before the end of the text, cut at the newlines; nothing may stand between two. -/
def segments (ts : List Token) : List (List Token) :=
  (ts.takeWhile (·.kind ≠ .eof)).splitOnP (·.kind = .newline)

variable {t n : Token} {ts us line : List Token}

section Segments

@[simp] theorem segments_nil : segments [] = [[]] := rfl

theorem segments_ne_nil (ts : List Token) : segments ts ≠ [] := List.splitOnP_ne_nil _ _

theorem segments_cons_eof (kind : t.kind = .eof) : segments (t :: ts) = [[]] := by
  simp [segments, kind]

theorem segments_cons_newline (kind : t.kind = .newline) :
    segments (t :: ts) = [] :: segments ts := by
  simp [segments, kind, List.splitOnP_cons_eq_if_modifyHead]

theorem segments_cons (plain : t.symbol? ≠ none) :
    segments (t :: ts) = (segments ts).modifyHead (t :: ·) := by
  rw [ne_eq, Token.symbol?_eq_none, not_or] at plain
  simp [segments, plain.1, plain.2, List.splitOnP_cons_eq_if_modifyHead]

theorem segments_plain_append {first : List Token} {others : List (List Token)}
    (plain : ∀ t ∈ ts, t.symbol? ≠ none) (next : segments us = first :: others) :
    segments (ts ++ us) = (ts ++ first) :: others := by
  induction ts with
  | nil => exact next
  | cons t ts ih =>
    obtain ⟨plain_t, plain⟩ := List.forall_mem_cons.mp plain
    rw [List.cons_append, segments_cons plain_t, ih plain, List.modifyHead_cons, List.cons_append]

theorem plain_of_mem_segments (h : line ∈ segments ts) : ∀ t ∈ line, t.symbol? ≠ none := by
  induction ts generalizing line with
  | nil =>
    rw [List.mem_singleton.mp h]
    simp
  | cons t ts ih =>
    by_cases plain : t.symbol? = none
    · rcases Token.symbol?_eq_none.mp plain with kind | kind
      · rw [segments_cons_newline kind] at h
        rcases List.mem_cons.mp h with rfl | h
        · simp
        · exact ih h
      · rw [segments_cons_eof kind] at h
        rw [List.mem_singleton.mp h]
        simp
    · obtain ⟨first, others, split⟩ := List.exists_cons_of_ne_nil (segments_ne_nil ts)
      rw [segments_cons plain, split, List.modifyHead_cons] at h
      rcases List.mem_cons.mp h with rfl | h
      · intro u hu
        rcases List.mem_cons.mp hu with rfl | hu
        · exact plain
        · exact ih (by simp [split]) u hu
      · exact ih (by simp [split, h])

/-- Where two pieces of a text meet, the last segment of the one and the first of the other are
    one. -/
theorem segments_append (unended : ∀ t ∈ ts, t.kind ≠ .eof) :
    ∃ init last, segments ts = init ++ [last] ∧ ∀ us first others,
      segments us = first :: others → segments (ts ++ us) = init ++ (last ++ first) :: others := by
  induction ts with
  | nil => exact ⟨[], [], rfl, fun us first others split => split⟩
  | cons t ts ih =>
    obtain ⟨unended_t, unended⟩ := List.forall_mem_cons.mp unended
    obtain ⟨init, last, split, glue⟩ := ih unended
    by_cases newline : t.kind = .newline
    · refine ⟨[] :: init, last, by rw [segments_cons_newline newline, split]; rfl, ?_⟩
      intro us first others next
      rw [List.cons_append, segments_cons_newline newline, glue us first others next]
      rfl
    · have plain : t.symbol? ≠ none := by simp [Token.symbol?_eq_none, newline, unended_t]
      -- `t` joins the first segment, which is the last one if there is no newline
      cases init with
      | nil =>
        refine ⟨[], t :: last, by rw [segments_cons plain, split]; rfl, ?_⟩
        intro us first others next
        rw [List.cons_append, segments_cons plain, glue us first others next]
        rfl
      | cons line init =>
        refine ⟨(t :: line) :: init, last, by rw [segments_cons plain, split]; rfl, ?_⟩
        intro us first others next
        rw [List.cons_append, segments_cons plain, glue us first others next]
        rfl

theorem segments_map {f : Token → Token} (same : ∀ t, (f t).kind = t.kind) (ts : List Token) :
    segments (ts.map f) = (segments ts).map (List.map f) := by
  induction ts with
  | nil => rfl
  | cons t ts ih =>
    rw [List.map_cons]
    cases kind : t.kind with
    | eof =>
      rw [segments_cons_eof kind, segments_cons_eof ((same t).trans kind)]
      rfl
    | newline =>
      rw [segments_cons_newline kind, segments_cons_newline ((same t).trans kind), ih]
      rfl
    | word | str | leftParen | rightParen =>
      have plain : t.symbol? ≠ none := by simp [Token.symbol?_eq_none, kind]
      have plain' : (f t).symbol? ≠ none := by simp [Token.symbol?_eq_none, same, kind]
      obtain ⟨first, others, split⟩ := List.exists_cons_of_ne_nil (segments_ne_nil ts)
      rw [segments_cons plain, segments_cons plain', ih, split]
      rfl

/-- A segment stands at the beginning of the tokens, or after a newline. -/
theorem exists_of_segments_eq {init others : List (List Token)}
    (split : segments ts = init ++ line :: others) :
    ∃ before after, ts = before ++ (line ++ after) ∧ (init = [] ↔ before = []) ∧
      ∀ n ∈ before.getLast?, n.kind = .newline := by
  induction ts generalizing init line with
  | nil =>
    obtain ⟨rfl, rfl, -⟩ : init = [] ∧ line = [] ∧ others = [] := by
      simpa [List.singleton_eq_append_iff] using split
    exact ⟨[], [], rfl, by simp, by simp⟩
  | cons t ts ih =>
    by_cases plain : t.symbol? = none
    · rcases Token.symbol?_eq_none.mp plain with kind | kind
      · rw [segments_cons_newline kind] at split
        cases init with
        | nil =>
          obtain ⟨rfl, -⟩ := List.cons.inj split
          exact ⟨[], t :: ts, rfl, by simp, by simp⟩
        | cons l init =>
          obtain ⟨before, after, rfl, -, ended⟩ := ih (List.cons.inj split).2
          refine ⟨t :: before, after, rfl, by simp, fun n last => ?_⟩
          cases earlier : before.getLast? with
          | none =>
            rw [List.getLast?_cons, earlier] at last
            cases last
            exact kind
          | some m =>
            rw [List.getLast?_cons, earlier] at last
            cases last
            exact ended m earlier
      · rw [segments_cons_eof kind] at split
        obtain ⟨rfl, rfl, -⟩ : init = [] ∧ line = [] ∧ others = [] := by
          simpa [List.singleton_eq_append_iff] using split
        exact ⟨[], t :: ts, rfl, by simp, by simp⟩
    · obtain ⟨first, later, next⟩ := List.exists_cons_of_ne_nil (segments_ne_nil ts)
      rw [segments_cons plain, next, List.modifyHead_cons] at split
      cases init with
      | nil =>
        obtain ⟨rfl, rfl⟩ := List.cons.inj split
        obtain ⟨before, after, rfl, first_iff, -⟩ :=
          ih (show segments ts = [] ++ first :: later from next)
        rw [first_iff.mp rfl]
        exact ⟨[], after, rfl, by simp, by simp⟩
      | cons l init =>
        obtain ⟨rfl, rfl⟩ := List.cons.inj split
        obtain ⟨before, after, rfl, first_iff, ended⟩ :=
          ih (show segments ts = (first :: init) ++ line :: others from next)
        have filled : before ≠ [] := fun none => List.cons_ne_nil _ _ (first_iff.mpr none)
        refine ⟨t :: before, after, rfl, by simp, ?_⟩
        rw [List.getLast?_cons_of_ne_nil filled]
        exact ended

theorem sublist_of_mem_segments (here : line ∈ segments ts) : line.Sublist ts := by
  obtain ⟨init, others, split⟩ := List.append_of_mem here
  obtain ⟨before, after, rfl, -⟩ := exists_of_segments_eq split
  exact (List.sublist_append_left line after).trans (List.sublist_append_right before _)

/-- Everything after the first segment stands after a newline. -/
theorem newline_of_segments_eq_cons {first : List Token} {others : List (List Token)}
    (split : segments ts = first :: others) :
    ∀ l ∈ others, ∀ b ∈ l, ∃ n, n.kind = .newline ∧ [n, b].Sublist ts := by
  intro l here b member
  induction ts generalizing first with
  | nil =>
    rw [(List.cons.inj split).2.symm] at here
    cases here
  | cons t ts ih =>
    by_cases plain : t.symbol? = none
    · rcases Token.symbol?_eq_none.mp plain with kind | kind
      · rw [segments_cons_newline kind] at split
        obtain ⟨-, rfl⟩ := List.cons.inj split
        have later : b ∈ ts := (sublist_of_mem_segments here).mem member
        exact ⟨t, kind, (List.singleton_sublist.mpr later).cons_cons t⟩
      · rw [segments_cons_eof kind] at split
        rw [(List.cons.inj split).2.symm] at here
        cases here
    · obtain ⟨first', later, next⟩ := List.exists_cons_of_ne_nil (segments_ne_nil ts)
      rw [segments_cons plain, next, List.modifyHead_cons] at split
      obtain ⟨-, rfl⟩ := List.cons.inj split
      obtain ⟨n, newline, along⟩ := ih next
      exact ⟨n, newline, along.cons t⟩

/-- Between two segments stands a newline. -/
theorem pairwise_segments (ts : List Token) :
    (segments ts).Pairwise fun l l' =>
      ∀ a ∈ l, ∀ b ∈ l', ∃ n, n.kind = .newline ∧ [a, n, b].Sublist ts := by
  induction ts with
  | nil => exact List.pairwise_singleton _ _
  | cons t ts ih =>
    have later : (segments ts).Pairwise fun l l' =>
        ∀ a ∈ l, ∀ b ∈ l', ∃ n, n.kind = .newline ∧ [a, n, b].Sublist (t :: ts) := by
      refine ih.imp fun between a ha b hb => ?_
      obtain ⟨n, newline, along⟩ := between a ha b hb
      exact ⟨n, newline, along.cons t⟩
    by_cases plain : t.symbol? = none
    · rcases Token.symbol?_eq_none.mp plain with kind | kind
      · rw [segments_cons_newline kind]
        exact .cons (by simp) later
      · rw [segments_cons_eof kind]
        exact List.pairwise_singleton _ _
    · obtain ⟨first, others, split⟩ := List.exists_cons_of_ne_nil (segments_ne_nil ts)
      rw [split] at later
      rw [segments_cons plain, split, List.modifyHead_cons]
      obtain ⟨between, rest⟩ := List.pairwise_cons.mp later
      refine .cons (fun l here a ha b hb => ?_) rest
      rcases List.mem_cons.mp ha with rfl | ha
      · obtain ⟨n, newline, along⟩ := newline_of_segments_eq_cons split l here b hb
        exact ⟨n, newline, along.cons_cons a⟩
      · exact between l here a ha b hb

end Segments

section Lines

theorem lines_cons_newline (kind : t.kind = .newline) : lines (t :: ts) = lines ts := by
  simp [lines, kind]

theorem lines_cons_eof (kind : t.kind = .eof) : lines (t :: ts) = [] := by
  simp [lines, kind]

/-- A newline and the end of the text both end the line before them. -/
theorem lines_cons_end (plain : t.symbol? ≠ none) (ends : n.symbol? = none) :
    lines (t :: n :: ts) = [t] :: lines (n :: ts) := by
  have kind := Token.symbol?_eq_none.mp ends
  rw [ne_eq, Token.symbol?_eq_none, not_or] at plain
  rw [lines, if_neg plain.2, if_neg plain.1]
  simp [kind]

theorem lines_cons_cons (plain : t.symbol? ≠ none) (goesOn : n.symbol? ≠ none)
    {ls : List (List Token)} (next : lines (n :: ts) = line :: ls) :
    lines (t :: n :: ts) = (t :: line) :: ls := by
  rw [ne_eq, Token.symbol?_eq_none] at goesOn
  rw [ne_eq, Token.symbol?_eq_none, not_or] at plain
  rw [lines, if_neg plain.2, if_neg plain.1]
  simp [goesOn, next]

/-- The lines are the segments in which something stands. -/
theorem lines_eq (ts : List Token) : lines ts = (segments ts).filter (· ≠ []) := by
  induction ts with
  | nil => rfl
  | cons t ts ih =>
    by_cases plain : t.symbol? = none
    · rcases Token.symbol?_eq_none.mp plain with kind | kind
      · rw [lines_cons_newline kind, segments_cons_newline kind, ih]
        rfl
      · rw [lines_cons_eof kind, segments_cons_eof kind]
        rfl
    · rw [segments_cons plain]
      cases ts with
      | nil =>
        rw [Token.symbol?_eq_none, not_or] at plain
        simp [lines, plain.1, plain.2]
      | cons n ts =>
        by_cases ends : n.symbol? = none
        · rw [lines_cons_end plain ends, ih]
          rcases Token.symbol?_eq_none.mp ends with kind | kind
          · simp [segments_cons_newline kind]
          · simp [segments_cons_eof kind]
        · obtain ⟨first, others, split⟩ := List.exists_cons_of_ne_nil (segments_ne_nil ts)
          rw [segments_cons ends, split, List.modifyHead_cons] at ih ⊢
          have next : lines (n :: ts) = (n :: first) :: others.filter (· ≠ []) := by
            rw [ih]
            simp
          rw [lines_cons_cons plain ends next]
          simp

/-- The first line goes on to the first newline after what stands at the beginning. -/
theorem lines_plain_append {first : List Token} {others : List (List Token)} (filled : ts ≠ [])
    (plain : ∀ t ∈ ts, t.symbol? ≠ none) (next : segments us = first :: others) :
    lines (ts ++ us) = (ts ++ first) :: others.filter (· ≠ []) := by
  rw [lines_eq, segments_plain_append plain next]
  exact List.filter_cons_of_pos (by simp [filled])

/-- A newline or the end of the text after the last line adds nothing. -/
theorem lines_concat_end (unended : ∀ t ∈ ts, t.kind ≠ .eof) (ends : n.symbol? = none) :
    lines (ts ++ [n]) = lines ts := by
  obtain ⟨init, last, split, glue⟩ := segments_append unended
  rw [lines_eq, lines_eq, split]
  rcases Token.symbol?_eq_none.mp ends with kind | kind
  · rw [glue [n] [] [[]] (segments_cons_newline kind)]
    simp [List.filter_cons]
  · rw [glue [n] [] [] (segments_cons_eof kind)]
    simp

/-- What comes after a newline stands on lines of its own. -/
theorem lines_append (unended : ∀ t ∈ ts, t.kind ≠ .eof)
    (ended : ∀ t ∈ ts.getLast?, t.kind = .newline) (us : List Token) :
    lines (ts ++ us) = lines ts ++ lines us := by
  rcases ts.eq_nil_or_concat with rfl | ⟨before, n, rfl⟩
  · rfl
  · rw [List.concat_eq_append] at unended ended ⊢
    have newline : n.kind = .newline := ended n (by simp)
    have unended_before := (List.forall_mem_append.mp unended).1
    rw [lines_concat_end unended_before (Token.symbol?_eq_none.mpr (.inl newline))]
    obtain ⟨init, last, split, glue⟩ := segments_append unended_before
    rw [List.append_assoc, lines_eq, lines_eq, lines_eq, split,
      glue ([n] ++ us) [] (segments us) (segments_cons_newline newline)]
    rw [List.append_nil, List.append_cons, List.filter_append]

theorem lines_map {f : Token → Token} (same : ∀ t, (f t).kind = t.kind) (ts : List Token) :
    lines (ts.map f) = (lines ts).map (List.map f) := by
  rw [lines_eq, lines_eq, segments_map same, List.filter_map]
  congr 2
  funext line
  simp

theorem ne_nil_of_mem_lines (h : line ∈ lines ts) : line ≠ [] := by
  rw [lines_eq] at h
  simpa using (List.mem_filter.mp h).2

end Lines

end Statement

end MarketScript
