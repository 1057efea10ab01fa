import MarketScript.Proofs.Lexer.Lined
import MarketScript.Proofs.Lexer.Moves
import MarketScript.Proofs.Statement.Isolation

/-!
# Open groups

Whoever reads tokens and whoever reads events both keep count of the parentheses that are open.  The
one counts them over a whole text, closing what is not open without going below zero; the other
begins anew on every line and gives up on a line at the first parenthesis that closes nothing.  They
come to the same count wherever reading goes on, so a line that ends in a newline leaves no group
open, and only the last line can.
-/

namespace MarketScript

open Lexer (nesting Lined)

namespace Statement

/-- After some tokens of a line reading goes on, in these groups and after these events. -/
def Reaches (line : List Token) (opened : List (Token × List Event)) (done : List Event) : Prop :=
  ∀ rest, readItems (line ++ rest) [] [] = readItems rest opened done

variable {line ts : List Token} {opened opened' : List (Token × List Event)}
  {done done' : List Event} {t closing : Token}

section Reaches

/-- So many parentheses end a line as are open. -/
theorem isSome_readItems_closings (kind : closing.kind = .rightParen) {n : Nat} :
    (readItems (List.replicate n closing) opened done).toOption.isSome ↔ opened.length = n := by
  induction n generalizing opened done with
  | zero =>
    cases opened with
    | nil => simp [readItems, Except.toOption]
    | cons group outer => simp [readItems, Except.toOption]
  | succ n ih =>
    rw [List.replicate_succ]
    cases opened with
    | nil => simp [readItems_close_nil kind, Except.toOption]
    | cons group outer => rw [readItems_close kind, ih, List.length_cons, Nat.add_left_inj]

theorem Reaches.length_unique (h : Reaches line opened done) (h' : Reaches line opened' done') :
    opened.length = opened'.length := by
  have closes : (readItems (List.replicate opened'.length ⟨.rightParen, ")", .synthetic⟩)
      opened' done').toOption.isSome :=
    (isSome_readItems_closings rfl).mpr rfl
  rw [← h', h] at closes
  exact (isSome_readItems_closings rfl).mp closes

/-- Where reading goes on, nothing was closed that was not open. -/
theorem Reaches.supported (h : Reaches line opened done) (plain : ∀ t ∈ line, t.symbol? ≠ none) :
    Line.Supported line := by
  by_contra unsupported
  obtain ⟨before, t, after, rfl, kind, balanced⟩ := Line.exists_stray unsupported
  have closes : (readItems (List.replicate opened.length ⟨.rightParen, ")", .synthetic⟩)
      opened done).toOption.isSome :=
    (isSome_readItems_closings rfl).mpr rfl
  have plain_before := (List.forall_mem_append.mp plain).1
  rw [← h, List.append_assoc, List.cons_append, readItems_stray plain_before balanced kind] at closes
  cases closes

/-- Where reading goes on, as many groups are open as parentheses. -/
theorem Reaches.length_eq (h : Reaches line opened done) (plain : ∀ t ∈ line, t.symbol? ≠ none) :
    opened.length = nesting line := by
  have supported := h.supported plain
  obtain ⟨opened', done', level, reaches⟩ := readItems_supported [] [] plain
    fun start along => by simpa using supported start along
  have same : opened.length = opened'.length := h.length_unique reaches
  rw [Lexer.depth_of_supported supported] at level
  simp only [List.length_nil] at level
  omega

end Reaches

section Levels

/-- One more token changes the count in the same way, whatever led to it. -/
theorem nesting_concat_congr {us : List Token} (same : nesting ts = nesting us) (t : Token) :
    nesting (ts ++ [t]) = nesting (us ++ [t]) := by
  unfold nesting at same ⊢
  rw [List.foldl_append, List.foldl_append, same]

theorem Lined.of_prefix (h : Lined ts) {us : List Token} (along : us <+: ts) : Lined us :=
  fun before t start => h before t (start.trans along)

/-- Every line that a newline ends closes all that it opens, so what is open is what the last line
    leaves open. -/
theorem segments_of_lined (lined : Lined ts) (unended : ∀ t ∈ ts, t.kind ≠ .eof) :
    ∃ init last, segments ts = init ++ [last] ∧ (∀ line ∈ init, nesting line = 0) ∧
      nesting ts = nesting last := by
  induction ts using List.reverseRecOn with
  | nil => exact ⟨[], [], rfl, by simp, rfl⟩
  | append_singleton ts t ih =>
    obtain ⟨unended, unended_t⟩ := List.forall_mem_append.mp unended
    have inside : t.kind ≠ .eof := unended_t t (List.mem_singleton_self t)
    obtain ⟨init, last, split, closed, level⟩ :=
      ih (Lined.of_prefix lined (List.prefix_append ts [t])) unended
    obtain ⟨init', last', split', glue⟩ := segments_append unended
    obtain ⟨rfl, same⟩ := List.append_inj' (split'.symm.trans split) rfl
    obtain rfl := List.singleton_inj.mp same
    by_cases newline : t.kind = .newline
    · obtain ⟨-, ended⟩ := lined ts t (List.prefix_refl _) newline
      refine ⟨init' ++ [last'], [], ?_, ?_, ?_⟩
      · rw [glue [t] [] [[]] (segments_cons_newline newline), List.append_nil]
        simp
      · refine List.forall_mem_append.mpr ⟨closed, List.forall_mem_singleton.mpr ?_⟩
        rw [← level, ended]
      · rw [Lexer.nesting_concat_other (by simp [newline]) (by simp [newline]), ended]
        rfl
    · have plain : t.symbol? ≠ none := by simp [Token.symbol?_eq_none, newline, inside]
      have single : segments [t] = [[t]] := segments_cons plain
      exact ⟨init', last' ++ [t], glue [t] [t] [] single, closed, nesting_concat_congr level t⟩

/-- Wherever reading has come to, as many groups are open as all tokens so far count. -/
theorem Reaches.length_eq_of_lined (lined : Lined ts) (unended : ∀ t ∈ ts, t.kind ≠ .eof)
    {init : List (List Token)} (split : segments ts = init ++ [line])
    (h : Reaches line opened done) : opened.length = nesting ts := by
  obtain ⟨init', last, split', -, level⟩ := segments_of_lined lined unended
  obtain ⟨-, same⟩ := List.append_inj' (split'.symm.trans split) rfl
  obtain rfl := List.singleton_inj.mp same
  have plain : ∀ t ∈ last, t.symbol? ≠ none := plain_of_mem_segments (by rw [split']; simp)
  rw [h.length_eq plain, level]

end Levels

section Diagnostics

/-- A line closes what is not open, or it leaves open what it opened. -/
theorem message_ofLine (filled : line ≠ []) (plain : ∀ t ∈ line, t.symbol? ≠ none) :
    ∀ d ∈ diagnostic? (ofLine line),
      d.message = "unexpected ')'" ∨ d.message = "unclosed '('" ∧ nesting line ≠ 0 := by
  have outcome := (outcome_iff filled plain).mpr rfl
  generalize ofLine line = o at outcome
  cases outcome with
  | group => simp [diagnostic?]
  | row => simp [diagnostic?]
  | stray => simp [diagnostic?]
  | @unclosed before after t supported opening balanced =>
    have depth : nesting (before ++ t :: after) ≠ 0 := by
      have level := Lexer.depth_of_supported supported
      have earlier : 0 ≤ Line.depth before := supported.of_append before (List.prefix_refl _)
      rw [Line.depth_append, Line.depth_cons, Line.depth_open opening, balanced.depth_eq] at level
      omega
    simp [diagnostic?, depth]

/-- Only the last line can leave a parenthesis open. -/
theorem diagnostics_of_lined (lined : Lined ts) (unended : ∀ t ∈ ts, t.kind ≠ .eof) :
    ∃ (ds : List Diagnostic) (last : Option Diagnostic), (ofTokens ts).2 = ds ++ last.toList ∧
      (∀ d ∈ ds, d.message = "unexpected ')'") ∧
      ∀ d ∈ last, d.message = "unexpected ')'" ∨ d.message = "unclosed '('" := by
  obtain ⟨init, last, split, closed, -⟩ := segments_of_lined lined unended
  have plain : ∀ line ∈ init ++ [last], ∀ t ∈ line, t.symbol? ≠ none := by
    rw [← split]
    exact fun line => plain_of_mem_segments
  obtain ⟨plain_init, plain_last⟩ := List.forall_mem_append.mp plain
  have earlier : ∀ d ∈ ((init.filter (· ≠ [])).map ofLine).filterMap diagnostic?,
      d.message = "unexpected ')'" := by
    intro d member
    rw [List.filterMap_map, List.mem_filterMap] at member
    obtain ⟨line, here, reported⟩ := member
    obtain ⟨inside, filled⟩ := List.mem_filter.mp here
    rcases message_ofLine (by simpa using filled) (plain_init line inside) d reported with
      stray | ⟨-, deep⟩
    · exact stray
    · exact absurd (closed line inside) deep
  rw [ofTokens, ofLines_eq, lines_eq, split, List.filter_append, List.map_append,
    List.filterMap_append]
  by_cases filled : last = []
  · exact ⟨_, none, by simp [filled], earlier, by simp⟩
  · refine ⟨_, diagnostic? (ofLine last), ?_, earlier, fun d reported => ?_⟩
    · cases outcome : diagnostic? (ofLine last) <;> simp [filled, outcome]
    · have plain := plain_last last (List.mem_singleton_self last)
      exact (message_ofLine filled plain d reported).imp_right And.left

/-- What can be wrong with a token is a quoted text. -/
theorem message_tokenize (source : String) :
    ∀ d ∈ (Lexer.tokenize source).2,
      d.message ≠ "unclosed '('" ∧ d.message ≠ "unexpected end of line" := by
  intro d member
  rcases Lexer.State.reportable_close (Lexer.State.reportable_read source.toList) d
    (List.mem_reverse.mp member) with unended | ⟨c, unknown⟩
  · rw [unended]
    decide
  · have start : d.message.toList.take 3 = ['u', 'n', 'k'] := by
      rw [unknown, String.toList_append, String.toList_append, List.append_assoc,
        List.take_append_of_le_length (by decide)]
      rfl
    constructor
    · intro same
      rw [same] at start
      cases start
    · intro same
      rw [same] at start
      cases start

/-- What is wrong with a script: a parenthesis that is never closed comes last. -/
theorem diagnostics_parse (source : String) :
    ∃ (ds : List Diagnostic) (last : Option Diagnostic), (parse source).2 = ds ++ last.toList ∧
      (∀ d ∈ ds, d.message ≠ "unclosed '('") ∧
      ∀ d ∈ ds ++ last.toList, d.message ≠ "unexpected end of line" := by
  have level := (Lexer.State.level_read source.toList).close
  obtain ⟨ds, last, syntactic, stray, ends⟩ := diagnostics_of_lined level.lined
    fun t member => Lexer.State.unended_read source.toList t (List.mem_reverse.mp member)
  have lexical := message_tokenize source
  refine ⟨(Lexer.tokenize source).2 ++ ds, last, ?_, ?_, ?_⟩
  · rw [parse_eq, ofTokens, lines_tokenize, ← ofTokens, syntactic, List.append_assoc]
  · refine List.forall_mem_append.mpr ⟨fun d member => (lexical d member).1, fun d member => ?_⟩
    rw [stray d member]
    decide
  · refine List.forall_mem_append.mpr ⟨List.forall_mem_append.mpr
      ⟨fun d member => (lexical d member).2, fun d member => ?_⟩, fun d member => ?_⟩
    · rw [stray d member]
      decide
    · rcases ends d (Option.mem_toList.mp member) with message | message <;> simp [message]

end Diagnostics

theorem newline_told {source : String} {before after : List Token} {newline : Token}
    (whole : (Lexer.tokenize source).1 = before ++ newline :: after)
    (kind : newline.kind = .newline) :
    before ++ [newline] <+: (Lexer.State.read {} source.toList).close.tokens.reverse := by
  have along : before ++ [newline] <+: (Lexer.tokenize source).1 := ⟨after, by rw [whole]; simp⟩
  rcases List.prefix_concat_iff.mp along with last | along
  · obtain ⟨-, rfl⟩ := List.append_singleton_inj.mp last
    cases kind
  · exact along

/-- Tokens and events agree on what is open.  Whatever is wrong with a script, a parenthesis that is
    never closed is reported at most once, and after everything else; no line ends where an event
    should stand.  Wherever reading has come to in a line, as many groups are open as tokens count,
    and none is open before a newline. -/
theorem open_groups_agree (source : String) :
    (parse source).2.countP (·.message = "unclosed '('") ≤ 1 ∧
    (∀ d ∈ (parse source).2.dropLast, d.message ≠ "unclosed '('") ∧
    (∀ d ∈ (parse source).2, d.message ≠ "unexpected end of line") ∧
    (∀ first second, source.toList = first ++ second → ∀ init line opened done,
      segments (Lexer.State.read {} first).tokens.reverse = init ++ [line] →
      Reaches line opened done → opened.length = (Lexer.State.read {} first).depth) ∧
    ∀ before newline after, (Lexer.tokenize source).1 = before ++ newline :: after →
      newline.kind = .newline → ∀ init line opened done,
      segments before = init ++ [line] → Reaches line opened done → opened = [] := by
  obtain ⟨ds, last, reported, closed, ended⟩ := diagnostics_parse source
  have none : ds.countP (·.message = "unclosed '('") = 0 := by
    simpa [List.countP_eq_zero] using closed
  refine ⟨?_, ?_, by rwa [reported], ?_, ?_⟩
  · rw [reported, List.countP_append, none, Nat.zero_add]
    exact Nat.le_trans List.countP_le_length (by cases last <;> simp)
  · rw [reported]
    cases last with
    | none =>
      rw [Option.toList_none, List.append_nil]
      exact fun d member => closed d (ds.dropLast_subset member)
    | some d =>
      rw [Option.toList_some, List.dropLast_concat]
      exact closed
  · intro first second _ init line opened done split reaches
    have level := Lexer.State.level_read first
    have unended := (Lexer.State.grows_read {} first).unended (by simp)
    rw [level.depth]
    exact reaches.length_eq_of_lined level.lined
      (fun t member => unended t (List.mem_reverse.mp member)) split
  · intro before newline after whole kind init line opened done split reaches
    have lined := (Lexer.State.level_read source.toList).close.lined
    have unended := Lexer.State.unended_read source.toList
    obtain ⟨rest, told⟩ := newline_told whole kind
    obtain ⟨-, level⟩ := lined before newline ⟨rest, told⟩ kind
    have earlier : before <+: (Lexer.State.read {} source.toList).close.tokens.reverse :=
      (List.prefix_append before [newline]).trans ⟨rest, told⟩
    have unended_before : ∀ t ∈ before, t.kind ≠ .eof :=
      fun t member => unended t (List.mem_reverse.mp (earlier.mem member))
    have count := reaches.length_eq_of_lined (Lined.of_prefix lined earlier) unended_before split
    rw [level] at count
    exact List.eq_nil_of_length_eq_zero count

theorem open_groups_of_malformed_script :
    (parse "(\n)\n)\n(").2.map (·.message) = ["unexpected ')'", "unclosed '('"] ∧
    (parse "(\n)\n)\n(").2.countP (·.message = "unclosed '('") ≤ 1 ∧
    (∃ init line opened done,
      segments (Lexer.State.read {} "(\n)\n)\n(".toList).tokens.reverse = init ++ [line] ∧
      Reaches line opened done ∧ opened.length = 1) ∧
    ∃ before newline after init line opened done,
      (Lexer.tokenize "(\n)\n)\n(").1 = before ++ newline :: after ∧ newline.kind = .newline ∧
      segments before = init ++ [line] ∧ Reaches line opened done ∧ opened = [] := by
  obtain ⟨once, -, -, inside, closed⟩ := open_groups_agree "(\n)\n)\n("
  have last : segments (Lexer.State.read {} "(\n)\n)\n(".toList).tokens.reverse =
      [[⟨.leftParen, "(", ⟨⟨1, 1, 0⟩, ⟨1, 2, 1⟩⟩⟩, ⟨.rightParen, ")", ⟨⟨2, 1, 2⟩, ⟨2, 2, 3⟩⟩⟩],
        [⟨.rightParen, ")", ⟨⟨3, 1, 4⟩, ⟨3, 2, 5⟩⟩⟩]] ++
      [[⟨.leftParen, "(", ⟨⟨4, 1, 6⟩, ⟨4, 2, 7⟩⟩⟩]] := by
    decide +kernel
  have first : (Lexer.tokenize "(\n)\n)\n(").1 =
      [⟨.leftParen, "(", ⟨⟨1, 1, 0⟩, ⟨1, 2, 1⟩⟩⟩, ⟨.rightParen, ")", ⟨⟨2, 1, 2⟩, ⟨2, 2, 3⟩⟩⟩] ++
        ⟨.newline, "\n", ⟨⟨2, 2, 3⟩, ⟨3, 1, 4⟩⟩⟩ :: (Lexer.tokenize "(\n)\n)\n(").1.drop 3 := by
    decide +kernel
  have opens : Reaches [⟨.leftParen, "(", ⟨⟨4, 1, 6⟩, ⟨4, 2, 7⟩⟩⟩]
      [(⟨.leftParen, "(", ⟨⟨4, 1, 6⟩, ⟨4, 2, 7⟩⟩⟩, [])] [] := fun rest => rfl
  have closes : Reaches
      [⟨.leftParen, "(", ⟨⟨1, 1, 0⟩, ⟨1, 2, 1⟩⟩⟩, ⟨.rightParen, ")", ⟨⟨2, 1, 2⟩, ⟨2, 2, 3⟩⟩⟩]
      [] [.list []] := fun rest => rfl
  refine ⟨by decide +kernel, once, ⟨_, _, _, _, last, opens, ?_⟩,
    ⟨_, _, _, [], _, _, _, first, rfl, by decide, closes, ?_⟩⟩
  · exact (inside _ [] (List.append_nil _).symm _ _ _ _ last opens).trans (by decide +kernel)
  · exact closed _ _ _ first rfl [] _ _ _ (by decide) closes

end Statement

end MarketScript
