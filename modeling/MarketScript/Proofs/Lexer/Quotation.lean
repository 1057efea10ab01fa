import Mathlib.Data.List.Induction
import MarketScript.Proofs.Lexer.Moves
import MarketScript.Proofs.Source.Place

/-!
# Quoted texts and what they say

Every text can be put in quotes.  What a quoted text says is its inside with the escapes replaced,
unless something is reported about it.
-/

namespace MarketScript

open Position

namespace Lexer

/-- How a character is written in a quoted text. -/
def escaped : Char → List Char
  | '\\' => ['\\', '\\']
  | '"' => ['\\', '"']
  | '\n' => ['\\', 'n']
  | c => [c]

/-- A text in quotes. -/
def quotation (text : String) : String :=
  String.ofList ('"' :: (text.toList.flatMap escaped ++ ['"']))

example : quotation "a\\\n\"b\"" = "\"a\\\\\\n\\\"b\\\"\"" := by decide

section Literals

variable {body body' content content' : List Char} {c d : Char}

theorem Literal.append (h : Literal body content) (h' : Literal body' content') :
    Literal (body ++ body') (content ++ content') := by
  induction h with
  | nil => exact h'
  | ordinary itself _ ih => exact .ordinary itself ih
  | escape known _ ih => exact .escape known ih

theorem Literal.concat (h : Literal body content) (itself : Ordinary c) :
    Literal (body ++ [c]) (content ++ [c]) :=
  h.append (.ordinary itself .nil)

theorem Literal.concat_escape (h : Literal body content) (known : unescape? c = some d) :
    Literal (body ++ ['\\'] ++ [c]) (content ++ [d]) := by
  rw [List.append_assoc]
  exact h.append (.escape known .nil)

/-- A literal has one content. -/
theorem Literal.unique (h : Literal body content) (h' : Literal body content') :
    content = content' := by
  induction h generalizing content' with
  | nil =>
    cases h'
    rfl
  | ordinary itself _ ih =>
    cases h' with
    | ordinary _ rest => rw [ih rest]
    | escape => exact absurd rfl itself.2.1
  | escape known _ ih =>
    cases h' with
    | ordinary itself => exact absurd rfl itself.2.1
    | escape known' rest =>
      rw [ih rest, Option.some.inj (known.symm.trans known')]

theorem literal_escaped_char (c : Char) : Literal (escaped c) [c] := by
  unfold escaped
  split
  · exact .escape rfl .nil
  · exact .escape rfl .nil
  · exact .escape rfl .nil
  · rename_i backslash quote newline
    exact .ordinary ⟨quote, backslash, newline⟩ .nil

/-- What is written of a text in quotes is a literal with the text as its content. -/
theorem literal_escaped (content : List Char) : Literal (content.flatMap escaped) content := by
  induction content with
  | nil => exact .nil
  | cons c content ih =>
    rw [List.flatMap_cons]
    exact (literal_escaped_char c).append ih

end Literals

/-- Nothing is reported about what begins at a place. -/
def Unreported (ds : List Diagnostic) (start : Position) : Prop := ∀ d ∈ ds, d.span.start ≠ start

/-- A token has been read from a literal in quotes. -/
def Quoted (cs : List Char) (t : Token) : Prop :=
  ∃ before body after, cs = before ++ '"' :: (body ++ '"' :: after) ∧
    t.span = ⟨place before, place (before ++ '"' :: (body ++ ['"']))⟩ ∧
    Literal body t.lexeme.toList

/-- Of a quoted text part of a literal has been read. -/
def Mode.Quotes (cs : List Char) (ds : List Diagnostic) : Mode → Prop
  | .quoted start chars => Unreported ds start →
      ∃ before body, cs = before ++ '"' :: body ∧ start = place before ∧
        Literal body chars.reverse
  | .escape start chars => Unreported ds start →
      ∃ before body, cs = before ++ '"' :: (body ++ ['\\']) ∧ start = place before ∧
        Literal body chars.reverse
  | .idle | .hyphen _ | .comment | .word .. => True

/-- All quoted texts of which nothing was wrong have been read from literals. -/
structure Quoting (cs : List Char) (s : State) : Prop where
  position : s.position = place cs
  quotes : s.mode.Quotes cs s.diagnostics
  told : ∀ t ∈ s.tokens, t.kind = .str → Unreported s.diagnostics t.span.start → Quoted cs t

variable {cs : List Char} {s t : State} {c : Char}

theorem Unreported.of_suffix {ds ds' : List Diagnostic} {start : Position}
    (h : Unreported ds' start) (grown : ds <:+ ds') : Unreported ds start :=
  fun d member => h d (grown.mem member)

theorem Quoted.append {u : Token} (h : Quoted cs u) (more : List Char) :
    Quoted (cs ++ more) u := by
  obtain ⟨before, body, after, rfl, span, literal⟩ := h
  exact ⟨before, body, after ++ more, by simp, span, literal⟩

namespace Quoting

/-- What has been told stays told, whatever is read and reported after it. -/
theorem told_append (h : Quoting cs s) {ds : List Diagnostic} (grown : s.diagnostics <:+ ds)
    (more : List Char) :
    ∀ u ∈ s.tokens, u.kind = .str → Unreported ds u.span.start → Quoted (cs ++ more) u :=
  fun u member kind unreported => (h.told u member kind (unreported.of_suffix grown)).append more

/-- A text that ends breaks off no quoted text that nothing is reported about. -/
theorem close (h : Quoting cs s) : Quoting cs s.close where
  position := by rw [State.position_close, h.position]
  quotes := by
    rw [State.close_idle]
    trivial
  told := by
    have grown := s.grows_close.diagnostics
    have earlier := h.told_append grown []
    rw [List.append_nil] at earlier
    rcases s.tokens_close with ⟨-, same⟩ | ⟨u, start, open_at, span, quoting, more⟩
    · rw [same]
      exact earlier
    · rw [more]
      refine List.forall_mem_cons.mpr ⟨fun kind unreported => ?_, earlier⟩
      rcases s.diagnostics_close with ⟨unquoted, -⟩ | ⟨start', -, same_start, reported⟩
      · rw [quoting.mp kind] at unquoted
        cases unquoted
      · rw [open_at] at same_start
        cases same_start
        rw [reported, span] at unreported
        exact absurd rfl (unreported _ List.mem_cons_self)

theorem begins (h : Quoting cs s) (idle : s.mode = .idle) (begins : s.Begins c t) :
    Quoting (cs ++ [c]) t := by
  have moved : s.position.step c = place (cs ++ [c]) := by rw [h.position, step_place]
  have earlier := h.told_append (List.suffix_refl _) [c]
  cases begins with
  | skips => exact ⟨moved, by simp [idle, Mode.Quotes], earlier⟩
  | tells single =>
    refine ⟨moved, by simp [idle, Mode.Quotes], ?_⟩
    refine List.forall_mem_cons.mpr ⟨fun kind => ?_, earlier⟩
    rcases single with ⟨rfl, -⟩ | ⟨rfl, -⟩ | ⟨rfl, -⟩ <;> cases kind
  | opens opens =>
    refine ⟨moved, ?_, earlier⟩
    cases opens with
    | quoted =>
      intro _
      exact ⟨cs, [], rfl, h.position, .nil⟩
    | hyphen => trivial
    | word => trivial

theorem step (h : Quoting cs s) (c : Char) : Quoting (cs ++ [c]) (s.step c) := by
  have moved : s.position.step c = place (cs ++ [c]) := by rw [h.position, step_place]
  have earlier := fun (grown : s.diagnostics <:+ (s.step c).diagnostics) => h.told_append grown [c]
  have quotes := h.quotes
  have moves := s.moves_step c
  generalize s.step c = next at moves earlier
  cases moves with
  | goes goes =>
    refine ⟨moved, ?_, earlier (List.suffix_refl _)⟩
    generalize s.mode = mode at goes quotes
    cases goes with
    | comments => trivial
    | comment => trivial
    | hyphen => trivial
    | word => trivial
    | ordinary itself =>
      intro unreported
      obtain ⟨before, body, rfl, start, literal⟩ := quotes unreported
      exact ⟨before, body ++ [c], by simp, start, by simpa using literal.concat itself⟩
    | backslash =>
      intro unreported
      obtain ⟨before, body, rfl, start, literal⟩ := quotes unreported
      exact ⟨before, body, by simp, start, literal⟩
    | escape known =>
      intro unreported
      obtain ⟨before, body, rfl, start, literal⟩ := quotes unreported
      exact ⟨before, body ++ ['\\'] ++ [c], by simp, start,
        by simpa using literal.concat_escape known⟩
  | misread mode unknown =>
    refine ⟨moved, fun unreported => ?_, earlier (List.suffix_cons _ _)⟩
    exact absurd rfl (unreported _ List.mem_cons_self)
  | quotes mode quote =>
    subst quote
    rw [mode] at quotes
    refine ⟨moved, trivial, List.forall_mem_cons.mpr ⟨fun _ unreported => ?_,
      earlier (List.suffix_refl _)⟩⟩
    obtain ⟨before, body, rfl, start, literal⟩ := quotes unreported
    refine ⟨before, body, [], by simp, ?_, by simpa using literal⟩
    simp only [moved, start, List.append_assoc, List.cons_append]
  | breaks mode newline =>
    refine ⟨moved, trivial, List.forall_mem_cons.mpr ⟨fun _ unreported => ?_,
      earlier (List.suffix_cons _ _)⟩⟩
    exact absurd rfl (unreported _ List.mem_cons_self)
  | begins unquoted same begins => exact h.close.begins (State.close_idle s) begins

end Quoting

theorem quoting_read (cs : List Char) : Quoting cs (State.read {} cs) := by
  induction cs using List.reverseRecOn with
  | nil => exact ⟨rfl, trivial, by simp⟩
  | append_singleton cs c ih =>
    rw [State.read_append, State.read_cons, State.read_nil]
    exact ih.step c

theorem read_quotation (text : String) :
    State.read {} (quotation text).toList =
      { position := place (quotation text).toList
        tokens := [⟨.str, text, ⟨.start, place (quotation text).toList⟩⟩] } := by
  have position := (quoting_read (quotation text).toList).position
  have content : String.ofList text.toList = text := String.ofList_toList
  rw [State.position_read] at position
  rw [← position, quotation, String.toList_ofList, State.read_cons, State.step_quote rfl,
    State.read_literal_quote (literal_escaped text.toList) rfl, content]
  rfl

/-- Every text in quotes is one quoted text that says it, and nothing is wrong with it.  Wherever a
    script has a quoted text that nothing is reported about, a literal stands in quotes, and what
    the quoted text says is the content of the literal. -/
theorem quoted_texts_say_their_literals :
    (∀ text : String, tokenize (quotation text) =
      ([⟨.str, text, ⟨.start, place (quotation text).toList⟩⟩,
        ⟨.eof, "", ⟨place (quotation text).toList, place (quotation text).toList⟩⟩], [])) ∧
    ∀ source : String, ∀ t ∈ (tokenize source).1, t.kind = .str →
      Unreported (tokenize source).2 t.span.start →
      ∃ before body after, source.toList = before ++ '"' :: (body ++ '"' :: after) ∧
        t.span = ⟨place before, place (before ++ '"' :: (body ++ ['"']))⟩ ∧
        ∀ content, Literal body content ↔ content = t.lexeme.toList := by
  constructor
  · intro text
    rw [tokenize, read_quotation]
    rfl
  · intro source t member kind unreported
    have quoting := (quoting_read source.toList).close
    have told : t ∈ (State.read {} source.toList).close.tokens := by
      rcases List.mem_append.mp member with member | last
      · exact List.mem_reverse.mp member
      · rw [List.mem_singleton.mp last] at kind
        cases kind
    have unreported' : Unreported (State.read {} source.toList).close.diagnostics t.span.start :=
      fun d member => unreported d (List.mem_reverse.mpr member)
    obtain ⟨before, body, after, split, span, literal⟩ := quoting.told t told kind unreported'
    refine ⟨before, body, after, split, span, fun content => ⟨fun h => h.unique literal, ?_⟩⟩
    rintro rfl
    exact literal

theorem escaped_quote_read :
    ∃ t ∈ (tokenize "Print \"a\\\"\\n\"").1, t.kind = .str ∧
      Unreported (tokenize "Print \"a\\\"\\n\"").2 t.span.start ∧ t.lexeme = "a\"\n" ∧
      ∃ before body after,
        "Print \"a\\\"\\n\"".toList = before ++ '"' :: (body ++ '"' :: after) ∧
        t.span = ⟨place before, place (before ++ '"' :: (body ++ ['"']))⟩ ∧
        ∀ content, Literal body content ↔ content = t.lexeme.toList := by
  have here : ⟨.str, "a\"\n", ⟨⟨1, 7, 6⟩, ⟨1, 14, 13⟩⟩⟩ ∈ (tokenize "Print \"a\\\"\\n\"").1 := by
    decide +kernel
  have clean : (tokenize "Print \"a\\\"\\n\"").2 = [] := by decide +kernel
  have unreported : Unreported (tokenize "Print \"a\\\"\\n\"").2 ⟨1, 7, 6⟩ := by
    rw [clean]
    exact nofun
  exact ⟨_, here, rfl, unreported, rfl,
    quoted_texts_say_their_literals.2 _ _ here rfl unreported⟩

end Lexer

end MarketScript
