import MarketScript.Lexer
import MarketScript.Proofs.Source.Place

/-!
# Tilings

Tokens tile a text if they are parts of it, one after the other, and what stands between them is
blank or a comment.  No part of the text is in two tokens, and all that is in none is nothing that
could be read.
-/

namespace MarketScript

open Position

/-- Text that stands between tokens, given the character after it: blanks, and comments that run up
    to the end of their line. -/
inductive Gap (next : Option Char) : List Char → Prop
  | nil : Gap next []
  | blank {c : Char} {gap : List Char} (isBlank : isBlank c = true) (rest : Gap next gap) :
      Gap next (c :: gap)
  | comment {body gap : List Char} (line : '\n' ∉ body)
      (ends : gap.head?.or next = none ∨ gap.head?.or next = some '\n') (rest : Gap next gap) :
      Gap next ('-' :: '-' :: (body ++ gap))

theorem Gap.append {next : Option Char} {first second : List Char}
    (h : Gap (second.head?.or next) first) (h' : Gap next second) : Gap next (first ++ second) := by
  induction h with
  | nil => exact h'
  | blank isBlank _ ih => exact .blank isBlank ih
  | @comment body gap line ends _ ih =>
    rw [List.cons_append, List.cons_append, List.append_assoc]
    refine .comment line ?_ ih
    rwa [List.head?_append, Option.or_assoc]

/-- What text a token of a kind can be read from. -/
def TokenKind.Spells (text : List Char) : TokenKind → Prop
  | .word => text ≠ [] ∧ ∀ c ∈ text, Lexer.isWordChar c = true
  | .str => text.head? = some '"'
  | .leftParen => text = ['(']
  | .rightParen => text = [')']
  | .newline => text = ['\n']
  | .eof => text = []

/-- A token has been read from a piece of text.  Its lexeme is that text, unless it is quoted. -/
structure Token.Reads (t : Token) (text : List Char) : Prop where
  spells : t.kind.Spells text
  lexeme : t.kind ≠ .str → t.lexeme = String.ofList text

/-- Tokens tile a text up to the end of the last of them. -/
inductive Tiles : List Char → List Token → Prop
  | nil : Tiles [] []
  | token {before gap text : List Char} {ts : List Token} {t : Token} (earlier : Tiles before ts)
      (between : Gap text.head? gap) (reads : t.Reads text)
      (span : t.span = ⟨place (before ++ gap), place (before ++ gap ++ text)⟩) :
      Tiles (before ++ gap ++ text) (ts ++ [t])

variable {cs text : List Char} {ts : List Token} {t : Token}

/-- Every token is read from the part of the text that its span marks. -/
theorem Tiles.reads (h : Tiles cs ts) : ∀ t ∈ ts, ∃ before text after,
    cs = before ++ text ++ after ∧ t.Reads text ∧
      t.span = ⟨place before, place (before ++ text)⟩ := by
  induction h with
  | nil =>
    intro t none
    cases none
  | @token before gap text ts t _ _ reads span ih =>
    intro u member
    rcases List.mem_append.mp member with member | last
    · obtain ⟨first, part, rest, rfl, told⟩ := ih u member
      exact ⟨first, part, rest ++ gap ++ text, by simp only [List.append_assoc], told⟩
    · obtain rfl := List.mem_singleton.mp last
      exact ⟨before ++ gap, text, [], (List.append_nil _).symm, reads, span⟩

theorem Tiles.within (h : Tiles cs ts) : ∀ t ∈ ts, t.span.Within cs := by
  intro t member
  obtain ⟨before, text, after, parts, -, span⟩ := h.reads t member
  exact ⟨before, text, after, parts, span⟩

/-- Tokens that tile a text come in its order and do not overlap. -/
theorem Tiles.ordered (h : Tiles cs ts) :
    ts.Pairwise fun a b => a.span.stop.offset ≤ b.span.start.offset := by
  induction h with
  | nil => exact .nil
  | @token before gap text ts t earlier _ _ span ih =>
    refine List.pairwise_append.mpr ⟨ih, List.pairwise_singleton _ _, ?_⟩
    intro a member b last
    obtain rfl := List.mem_singleton.mp last
    have ended := (earlier.within a member).stop_le
    rw [span, offset_place_append]
    exact Nat.le_trans ended (Nat.le_add_right _ _)

/-- Tokens tile a text but for what stands after the last of them. -/
def Covers (next : Option Char) (cs : List Char) (ts : List Token) : Prop :=
  ∃ before gap, cs = before ++ gap ∧ Tiles before ts ∧ Gap next gap

theorem Tiles.covers (h : Tiles cs ts) (next : Option Char) : Covers next cs ts :=
  ⟨cs, [], (List.append_nil cs).symm, h, .nil⟩

theorem Covers.append {next : Option Char} {gap : List Char}
    (h : Covers (gap.head?.or next) cs ts) (more : Gap next gap) : Covers next (cs ++ gap) ts := by
  obtain ⟨before, first, rfl, tiles, between⟩ := h
  exact ⟨before, first ++ gap, List.append_assoc .., tiles, between.append more⟩

theorem Covers.blank {c : Char} (h : Covers (some c) cs ts) (isBlank : isBlank c = true)
    (next : Option Char) : Covers next (cs ++ [c]) ts := by
  have before : Covers ([c].head?.or next) cs ts := h
  exact before.append (.blank isBlank .nil)

/-- One more token. -/
theorem Covers.token (h : Covers text.head? cs ts) (reads : t.Reads text)
    (span : t.span = ⟨place cs, place (cs ++ text)⟩) : Tiles (cs ++ text) (ts ++ [t]) := by
  obtain ⟨before, gap, rfl, tiles, between⟩ := h
  exact .token tiles between reads span

end MarketScript
