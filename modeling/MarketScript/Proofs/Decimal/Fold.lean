import MarketScript.Decimal.Numeral
import MarketScript.Proofs.Text.Fold

/-!
# Numerals in small letters

The letters of a numeral are the digits of base sixteen, the `x` before them, and the `e` before an
exponent.  Each of them is read in either case, so a text in small letters is the same numeral.
-/

namespace MarketScript.Decimal

/-- A text cut in two, both parts in small letters. -/
def foldCut (cut : List Char × List Char) : List Char × List Char :=
  (cut.1.map Char.toLower, cut.2.map Char.toLower)

variable (cs : List Char)

theorem minus_toLower (c : Char) : c.toLower = '-' ↔ c = '-' := toLower_eq_iff rfl

theorem plus_toLower (c : Char) : c.toLower = '+' ↔ c = '+' := toLower_eq_iff rfl

theorem beq_toLower {d : Char} (mark : d.isAlpha = false) (c : Char) :
    (c.toLower == d) = (c == d) := by
  rw [Bool.eq_iff_iff, beq_iff_eq, beq_iff_eq, toLower_eq_iff mark]

theorem all_map_toLower {p : Char → Bool} (either : ∀ c, p c.toLower = p c) :
    (cs.map Char.toLower).all p = cs.all p := by
  rw [List.all_map]
  congr 1
  funext c
  exact either c

/-- A mark at an end of the text is there in small letters. -/
theorem map_toLower_beq {d : Char} (mark : d.isAlpha = false) (c : Option Char) :
    (c.map Char.toLower == some d) = (c == some d) := by
  cases c with
  | none => rfl
  | some c =>
    show (some c.toLower == some d) = (some c == some d)
    rw [Option.some_beq_some, Option.some_beq_some, beq_toLower mark]

theorem isPercent_map_toLower :
    ((cs.map Char.toLower).getLast? == some '%') = (cs.getLast? == some '%') := by
  rw [List.getLast?_map, map_toLower_beq rfl]

theorem splitSign_map_toLower :
    splitSign (cs.map Char.toLower) = ((splitSign cs).1, (splitSign cs).2.map Char.toLower) := by
  cases cs with
  | nil => rfl
  | cons c cs =>
    by_cases minus : c = '-'
    · subst minus
      rfl
    by_cases plus : c = '+'
    · subst plus
      rfl
    simp [splitSign, minus, plus, minus_toLower, plus_toLower]

theorem splitAtFirst_map_toLower {p : Char → Bool} (either : ∀ c, p c.toLower = p c) :
    splitAtFirst p (cs.map Char.toLower) = (splitAtFirst p cs).map foldCut := by
  have same : (fun c => ! p c) ∘ Char.toLower = fun c => ! p c := by
    funext c
    simp [either]
  unfold splitAtFirst
  rw [List.dropWhile_map, List.takeWhile_map, same]
  cases cs.dropWhile fun c => ! p c <;> rfl

/-! ## Base sixteen -/

/-- The minus sign of a whole number in base sixteen, taken off unless a plus sign follows it. -/
def splitMinus (cs : List Char) : Bool × List Char :=
  match cs with
  | '-' :: '+' :: _ => (true, cs)
  | '-' :: rest => (true, rest)
  | _ => (false, cs)

/-- The text without a plus sign, unless another follows it. -/
def dropPlus (cs : List Char) : List Char :=
  match cs with
  | '+' :: '+' :: _ => cs
  | '+' :: rest => rest
  | _ => cs

/-- What is left after the signs: digits that underscores may separate. -/
def separated? (negative : Bool) (cs : List Char) : Option Int :=
  if cs.isEmpty || cs.head? == some '_' then none
  else
    let ds := cs.filter (· != '_')
    if ds.all (hexDigit? · |>.isSome) then
      some (if negative then - numeral 16 ds else numeral 16 ds)
    else none

theorem hexInteger?_eq : hexInteger? cs = separated? (splitMinus cs).1 (dropPlus (splitMinus cs).2) :=
  rfl

theorem splitMinus_map_toLower :
    splitMinus (cs.map Char.toLower) = ((splitMinus cs).1, (splitMinus cs).2.map Char.toLower) := by
  rcases cs with _ | ⟨c, _ | ⟨d, rest⟩⟩
  · rfl
  · by_cases minus : c = '-'
    · subst minus
      rfl
    · simp [splitMinus, minus, minus_toLower]
  · by_cases minus : c = '-'
    · subst minus
      by_cases plus : d = '+'
      · subst plus
        rfl
      · simp [splitMinus, plus, plus_toLower]
    · simp [splitMinus, minus, minus_toLower]

theorem dropPlus_map_toLower : dropPlus (cs.map Char.toLower) = (dropPlus cs).map Char.toLower := by
  rcases cs with _ | ⟨c, _ | ⟨d, rest⟩⟩
  · rfl
  · by_cases plus : c = '+'
    · subst plus
      rfl
    · simp [dropPlus, plus, plus_toLower]
  · by_cases plus : c = '+'
    · subst plus
      by_cases another : d = '+'
      · subst another
        rfl
      · simp [dropPlus, another, plus_toLower]
    · simp [dropPlus, plus, plus_toLower]

theorem separated?_map_toLower (negative : Bool) :
    separated? negative (cs.map Char.toLower) = separated? negative cs := by
  have first : ((cs.map Char.toLower).head? == some '_') = (cs.head? == some '_') := by
    rw [List.head?_map, map_toLower_beq rfl]
  have digits : (cs.map Char.toLower).filter (· != '_') = (cs.filter (· != '_')).map Char.toLower := by
    rw [List.filter_map]
    congr 2
    funext c
    simp [bne, beq_toLower]
  have valued (ds : List Char) :
      (ds.map Char.toLower).all (hexDigit? · |>.isSome) = ds.all (hexDigit? · |>.isSome) :=
    all_map_toLower ds fun c => by rw [hexDigit?_toLower]
  unfold separated?
  rw [first, digits]
  simp only [List.isEmpty_map, numeral_map_toLower, valued]

theorem hexInteger?_map_toLower : hexInteger? (cs.map Char.toLower) = hexInteger? cs := by
  rw [hexInteger?_eq, splitMinus_map_toLower]
  dsimp only
  rw [dropPlus_map_toLower, separated?_map_toLower, ← hexInteger?_eq]

theorem hexDigits?_map_toLower :
    hexDigits? (cs.map Char.toLower) = (hexDigits? cs).map (·.map Char.toLower) := by
  have zero (c : Char) : c.toLower = '0' ↔ c = '0' := toLower_eq_iff rfl
  have sign (c : Char) : c.toLower = 'x' ↔ c = 'x' ∨ c = 'X' :=
    toLower_eq_letter (by decide) (by decide) rfl
  have small (c : Char) : c.toLower ≠ 'X' := toLower_ne_capital c (by decide) (by decide)
  rcases cs with _ | ⟨c, _ | ⟨d, ds⟩⟩
  · rfl
  · simp [hexDigits?]
  · by_cases first : c = '0'
    · subst first
      by_cases second : d = 'x' ∨ d = 'X'
      · rcases second with rfl | rfl <;> rfl
      · have neither : d ≠ 'x' ∧ d ≠ 'X' := not_or.mp second
        simp [hexDigits?, neither, sign, small]
    · simp [hexDigits?, first, zero]

/-! ## Base ten -/

theorem exponent?_map_toLower : exponent? (cs.map Char.toLower) = exponent? cs := by
  unfold exponent?
  rw [splitSign_map_toLower]
  simp only [all_map_toLower _ isDigit_toLower, numeral_map_toLower, List.isEmpty_map]

namespace Draft

/-- The numeral with what stands before the exponent in small letters. -/
def fold (d : Draft) : Draft := { d with mantissa := d.mantissa.map Char.toLower }

theorem digits?_fold (d : Draft) : d.fold.digits? = d.digits?.map foldCut := by
  have point : ∀ c : Char, (c.toLower == '.') = (c == '.') := beq_toLower rfl
  have cut : (splitAtFirst (· == '.') d.fold.mantissa).getD (d.fold.mantissa, []) =
      foldCut ((splitAtFirst (· == '.') d.mantissa).getD (d.mantissa, [])) := by
    rw [fold, splitAtFirst_map_toLower _ point]
    cases splitAtFirst (· == '.') d.mantissa <;> rfl
  unfold digits?
  rw [cut]
  generalize (splitAtFirst (· == '.') d.mantissa).getD (d.mantissa, []) = parts
  obtain ⟨whole, part⟩ := parts
  simp only [foldCut, ← List.map_append, List.isEmpty_map, all_map_toLower _ isDigit_toLower]
  split
  · rfl
  · split <;> rfl

/-- Only digits and a point stand before the exponent. -/
theorem decimal?_fold (d : Draft) : d.fold.decimal? = d.decimal? := by
  unfold decimal?
  rw [digits?_fold]
  cases d.digits? with
  | none => rfl
  | some parts =>
    simp only [Option.map_some, foldCut, fold, ← List.map_append, ofDigits, numeral_map_toLower,
      List.length_map]

end Draft

namespace Unsigned

/-- The text in small letters. -/
def fold (u : Unsigned) : Unsigned := { u with body := u.body.map Char.toLower }

theorem ofChars_map_toLower : ofChars (cs.map Char.toLower) = (ofChars cs).fold := by
  have rest : (if cs.getLast? == some '%' then (cs.map Char.toLower).dropLast
      else cs.map Char.toLower) =
      (if cs.getLast? == some '%' then cs.dropLast else cs).map Char.toLower := by
    split
    · rw [List.map_dropLast]
    · rfl
  unfold ofChars
  simp only [isPercent_map_toLower, rest, splitSign_map_toLower]
  rfl

theorem draft?_fold (u : Unsigned) : u.fold.draft? = u.draft?.map Draft.fold := by
  have letter (c : Char) : (c.toLower == 'e' || c.toLower == 'E') = (c == 'e' || c == 'E') := by
    have small : c.toLower = 'e' ↔ c = 'e' ∨ c = 'E' :=
      toLower_eq_letter (by decide) (by decide) rfl
    have capital : c.toLower ≠ 'E' := toLower_ne_capital c (by decide) (by decide)
    rw [Bool.eq_iff_iff]
    simp [small, capital]
  unfold draft? fold
  rw [splitAtFirst_map_toLower _ letter]
  cases splitAtFirst (fun c => c == 'e' || c == 'E') u.body with
  | none => rfl
  | some parts =>
    simp only [Option.map_some, foldCut, exponent?_map_toLower, Option.map_map]
    rfl

end Unsigned

theorem ofChars?_map_toLower : ofChars? (cs.map Char.toLower) = ofChars? cs := by
  unfold ofChars?
  rw [Unsigned.ofChars_map_toLower]
  generalize Unsigned.ofChars cs = u
  have body : u.fold.body = u.body.map Char.toLower := rfl
  dsimp only
  rw [body, hexDigits?_map_toLower]
  cases hexDigits? u.body with
  | none =>
    show u.fold.draft?.bind Draft.decimal? = u.draft?.bind Draft.decimal?
    rw [Unsigned.draft?_fold, Option.bind_map]
    exact congrArg _ (funext Draft.decimal?_fold)
  | some ds =>
    simp only [Option.map_some, hexInteger?_map_toLower]
    rfl

/-- A text and the same text in small letters are the same numeral, or both are none. -/
theorem ofString?_foldCase (text : String) : ofString? (foldCase text) = ofString? text := by
  rw [ofString?, toList_foldCase, trimBlanks_map_toLower, ofChars?_map_toLower, ofString?]

end MarketScript.Decimal
