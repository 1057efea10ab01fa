import MarketScript.Proofs.Statement.Balance
import MarketScript.Proofs.Statement.Symbols
import MarketScript.Statement

/-!
# Reading the events of a line

Tokens that spell events are read as those events, wherever they stand, and what is read from a line
is spelled by it.  What stands between parentheses that match is read without touching the groups
around it.
-/

namespace MarketScript

namespace Statement

open Event (flatten)

variable {ts before after rest : List Token} {opened : List (Token × List Event)}
  {items done : List Event} {t : Token}

section Step

theorem readItems_word (kind : t.kind = .word) :
    readItems (t :: ts) opened done = readItems ts opened (.word t.lexeme :: done) := by
  simp [readItems, kind]

theorem readItems_str (kind : t.kind = .str) :
    readItems (t :: ts) opened done = readItems ts opened (.quoted t.lexeme :: done) := by
  simp [readItems, kind]

theorem readItems_open (kind : t.kind = .leftParen) :
    readItems (t :: ts) opened done = readItems ts ((t, done) :: opened) [] := by
  simp [readItems, kind]

theorem readItems_close (kind : t.kind = .rightParen) (paren : Token) (before : List Event) :
    readItems (t :: ts) ((paren, before) :: opened) done =
      readItems ts opened (.list done.reverse :: before) := by
  simp [readItems, kind]

theorem readItems_close_nil (kind : t.kind = .rightParen) :
    readItems (t :: ts) [] done = .error (unexpectedClose t.span) := by
  simp [readItems, kind]

theorem readItems_end (kind : t.kind = .newline ∨ t.kind = .eof) :
    readItems (t :: ts) opened done = .error (unexpectedEnd t.span) := by
  rcases kind with kind | kind <;> simp [readItems, kind]

end Step

mutual

theorem readItems_symbols : (e : Event) → {ts : List Token} →
    ts.map Token.symbol? = e.symbols.map some →
    ∀ rest opened done, readItems (ts ++ rest) opened done = readItems rest opened (e :: done)
  | .word text, ts, spelled => by
    intro rest opened done
    simp only [Event.symbols, List.map_cons, List.map_nil, List.map_eq_cons_iff,
      List.map_eq_nil_iff, Token.symbol?_eq_word] at spelled
    obtain ⟨t, _, rfl, ⟨kind, rfl⟩, rfl⟩ := spelled
    exact readItems_word kind
  | .quoted text, ts, spelled => by
    intro rest opened done
    simp only [Event.symbols, List.map_cons, List.map_nil, List.map_eq_cons_iff,
      List.map_eq_nil_iff, Token.symbol?_eq_quoted] at spelled
    obtain ⟨t, _, rfl, ⟨kind, rfl⟩, rfl⟩ := spelled
    exact readItems_str kind
  | .list items, ts, spelled => by
    intro rest opened done
    simp only [Event.symbols, List.map_cons, List.map_append, List.map_nil, List.map_eq_cons_iff,
      List.map_eq_append_iff, List.map_eq_nil_iff, Token.symbol?_eq_opening,
      Token.symbol?_eq_closing] at spelled
    obtain ⟨o, _, rfl, opening, inner, _, rfl, spelled, c, _, rfl, closing, rfl⟩ := spelled
    rw [List.cons_append, readItems_open opening, List.append_assoc,
      readItems_flatten items spelled, List.cons_append, readItems_close closing,
      List.append_nil, List.reverse_reverse]
    rfl

/-- Tokens that spell events are read as those events. -/
theorem readItems_flatten : (es : List Event) → {ts : List Token} → Spells es ts →
    ∀ rest opened done,
      readItems (ts ++ rest) opened done = readItems rest opened (es.reverse ++ done)
  | [], ts, spelled => by
    intro rest opened done
    rw [List.map_eq_nil_iff.mp spelled]
    rfl
  | e :: es, ts, spelled => by
    intro rest opened done
    rw [Spells, flatten, List.map_append, List.map_eq_append_iff] at spelled
    obtain ⟨first, others, rfl, hfirst, hothers⟩ := spelled
    rw [List.append_assoc, readItems_symbols e hfirst, readItems_flatten es hothers,
      List.reverse_cons, List.append_assoc]
    rfl

end

/-- The symbols read so far, while some groups are open. -/
def pending : List (Token × List Event) → List Event → List Symbol
  | [], done => flatten done.reverse
  | (_, before) :: outer, done => pending outer before ++ .opening :: flatten done.reverse

theorem pending_cons (opened : List (Token × List Event)) (e : Event) (done : List Event) :
    pending opened (e :: done) = pending opened done ++ e.symbols := by
  cases opened with
  | nil => rw [pending, pending, List.reverse_cons, Event.flatten_append, Event.flatten_singleton]
  | cons group outer =>
    rw [pending, pending, List.reverse_cons, Event.flatten_append, Event.flatten_singleton]
    simp

/-- No token is lost in what is read. -/
theorem pending_of_readItems (h : readItems ts opened done = .ok items) :
    (pending opened done).map some ++ ts.map Token.symbol? = (flatten items).map some := by
  induction ts generalizing opened done with
  | nil =>
    cases opened with
    | nil =>
      cases h
      simp [pending]
    | cons group outer => cases h
  | cons t ts ih =>
    rw [List.map_cons]
    cases kind : t.kind with
    | word =>
      rw [readItems_word kind] at h
      rw [← ih h, pending_cons, Token.symbol?_eq_word.mpr ⟨kind, rfl⟩]
      simp [Event.symbols]
    | str =>
      rw [readItems_str kind] at h
      rw [← ih h, pending_cons, Token.symbol?_eq_quoted.mpr ⟨kind, rfl⟩]
      simp [Event.symbols]
    | leftParen =>
      rw [readItems_open kind] at h
      rw [← ih h, Token.symbol?_eq_opening.mpr kind]
      simp [pending, flatten]
    | rightParen =>
      cases opened with
      | nil => simp [readItems_close_nil kind] at h
      | cons group outer =>
        rw [readItems_close kind] at h
        rw [← ih h, pending_cons, Token.symbol?_eq_closing.mpr kind]
        simp [pending, Event.symbols]
    | newline | eof => simp [readItems_end, kind] at h

theorem spells_of_readItems (h : readItems ts [] [] = .ok items) : Spells items ts := by
  have := pending_of_readItems h
  simpa [pending, flatten, Spells] using this

/-- As long as no stray parenthesis comes, reading goes on, in as many groups as are open. -/
theorem readItems_supported (opened : List (Token × List Event)) (done : List Event)
    (plain : ∀ t ∈ before, t.symbol? ≠ none)
    (supported : ∀ start, start <+: before → 0 ≤ opened.length + Line.depth start) :
    ∃ opened' done', (opened'.length : Int) = opened.length + Line.depth before ∧
      ∀ rest, readItems (before ++ rest) opened done = readItems rest opened' done' := by
  induction before generalizing opened done with
  | nil => exact ⟨opened, done, by simp, fun _ => rfl⟩
  | cons t before ih =>
    obtain ⟨plain_t, plain⟩ := List.forall_mem_cons.mp plain
    have level := supported [t] ⟨before, rfl⟩
    -- what is supported after `t` at the level that `t` leads to
    have later (n : Nat) (same : (n : Int) = opened.length + Line.depth [t]) :
        ∀ start, start <+: before → 0 ≤ n + Line.depth start := by
      intro start along
      have := supported (t :: start) ((List.prefix_cons_inj t).mpr along)
      rw [Line.depth_cons] at this
      omega
    rw [Line.depth_cons]
    cases kind : t.kind with
    | word =>
      have flat : Line.depth [t] = 0 := Line.depth_other (by simp [kind]) (by simp [kind])
      obtain ⟨opened', done', hlevel, next⟩ :=
        ih opened (.word t.lexeme :: done) plain (later opened.length (by omega))
      exact ⟨opened', done', by omega, fun rest => (readItems_word kind).trans (next rest)⟩
    | str =>
      have flat : Line.depth [t] = 0 := Line.depth_other (by simp [kind]) (by simp [kind])
      obtain ⟨opened', done', hlevel, next⟩ :=
        ih opened (.quoted t.lexeme :: done) plain (later opened.length (by omega))
      exact ⟨opened', done', by omega, fun rest => (readItems_str kind).trans (next rest)⟩
    | leftParen =>
      have up : Line.depth [t] = 1 := Line.depth_open kind
      obtain ⟨opened', done', hlevel, next⟩ :=
        ih ((t, done) :: opened) [] plain (later _ (by simp [up]))
      rw [List.length_cons] at hlevel
      exact ⟨opened', done', by omega, fun rest => (readItems_open kind).trans (next rest)⟩
    | rightParen =>
      have down : Line.depth [t] = -1 := Line.depth_close kind
      cases opened with
      | nil =>
        rw [down, List.length_nil] at level
        omega
      | cons group outer =>
        obtain ⟨paren, done₀⟩ := group
        have lower : (outer.length : Int) = (((paren, done₀) :: outer).length : Int) +
            Line.depth [t] := by
          rw [down, List.length_cons]
          omega
        obtain ⟨opened', done', hlevel, next⟩ :=
          ih outer (.list done.reverse :: done₀) plain (later _ lower)
        exact ⟨opened', done', by omega, fun rest =>
          (readItems_close kind paren done₀).trans (next rest)⟩
    | newline | eof => exact absurd (Token.symbol?_eq_none.mpr (by simp [kind])) plain_t

theorem readItems_balanced (plain : ∀ t ∈ ts, t.symbol? ≠ none) (balanced : Line.Balanced ts) :
    ∃ items, readItems ts [] [] = .ok items ∧ Spells items ts := by
  obtain ⟨opened, done, level, next⟩ := readItems_supported [] [] plain
    fun start along => by simpa using balanced.supported start along
  have closed : opened = [] := by
    rw [balanced.depth_eq] at level
    exact List.eq_nil_of_length_eq_zero (by simpa using level)
  have read := next []
  rw [List.append_nil, closed] at read
  exact ⟨done.reverse, read, spells_of_readItems read⟩

theorem readItems_stray (plain : ∀ t ∈ before, t.symbol? ≠ none)
    (balanced : Line.Balanced before) (closing : t.kind = .rightParen) :
    readItems (before ++ t :: after) [] [] = .error (unexpectedClose t.span) := by
  obtain ⟨items, -, spelled⟩ := readItems_balanced plain balanced
  rw [readItems_flatten items spelled, readItems_close_nil closing]

theorem readItems_unclosed (plain : ∀ u ∈ before ++ t :: after, u.symbol? ≠ none)
    (supported : Line.Supported (before ++ t :: after)) (opening : t.kind = .leftParen)
    (balanced : Line.Balanced after) :
    readItems (before ++ t :: after) [] [] = .error (unclosedOpen t.span) := by
  obtain ⟨plain_before, plain⟩ := List.forall_mem_append.mp plain
  obtain ⟨-, plain_after⟩ := List.forall_mem_cons.mp plain
  obtain ⟨opened, done, -, next⟩ := readItems_supported [] [] plain_before
    fun start along => by simpa using supported.of_append start along
  obtain ⟨items, -, spelled⟩ := readItems_balanced plain_after balanced
  -- the innermost group that is open at the end is the one that `t` opens
  have inside := readItems_flatten items spelled [] ((t, done) :: opened) []
  rw [List.append_nil] at inside
  rw [next, readItems_open opening, inside]
  rfl

end Statement

end MarketScript
