import Mathlib.Data.List.TakeWhile
import MarketScript.Decimal.Numeral
import MarketScript.Proofs.Decimal.Value

/-!
# The grammar of numerals

The texts that can be read as decimals, and the rational number that each of them is.  Reading takes
a text apart into the pieces that its numeral is written of, and into no others.
-/

namespace MarketScript.Decimal

/-- The sign that a numeral is written with, if with any. -/
inductive Sign where
  | none
  | plus
  | minus
deriving DecidableEq

namespace Sign

def chars : Sign → List Char
  | none => []
  | plus => ['+']
  | minus => ['-']

def isMinus (s : Sign) : Bool := s == minus

/-- One, or minus one after a minus. -/
def factor (s : Sign) : Int := if s.isMinus then -1 else 1

theorem factor_mul (s : Sign) (n : Int) : s.factor * n = if s.isMinus then -n else n := by
  unfold factor
  split <;> simp

end Sign

/-- A written exponent. -/
structure Exponent where
  capital : Bool
  sign : Sign
  digits : List Char

namespace Exponent

def chars (x : Exponent) : List Char :=
  (if x.capital then 'E' else 'e') :: (x.sign.chars ++ x.digits)

def value (x : Exponent) : Int := x.sign.factor * numeral 10 x.digits

end Exponent

/-- A written numeral. -/
inductive Numeral where
  /-- Digits of base ten, perhaps with a point among them, with an exponent and with a percent
      sign. -/
  | ten (sign : Sign) (whole : List Char) (part : Option (List Char)) (exponent : Option Exponent)
      (percent : Bool)
  /-- Digits of base sixteen. -/
  | sixteen (sign : Sign) (capital : Bool) (digits : List Char)

namespace Numeral

/-- The digits before and after the point, and the point. -/
def mantissa (whole : List Char) (part : Option (List Char)) : List Char :=
  whole ++ part.elim [] ('.' :: ·)

/-- What stands between the signs of a numeral of base ten. -/
def body (whole : List Char) (part : Option (List Char)) (exponent : Option Exponent) : List Char :=
  mantissa whole part ++ exponent.elim [] Exponent.chars

def chars : Numeral → List Char
  | ten sign whole part exponent percent =>
    sign.chars ++ body whole part exponent ++ if percent then ['%'] else []
  | sixteen sign capital digits => sign.chars ++ '0' :: (if capital then 'X' else 'x') :: digits

/-- There are digits, on either side of the point, an exponent has digits as well, and the digits
    of base sixteen can be read. -/
def WellFormed : Numeral → Prop
  | ten _ whole part exponent _ =>
    (∀ c ∈ whole ++ part.getD [], c.isDigit = true) ∧ whole ++ part.getD [] ≠ [] ∧
      ∀ x ∈ exponent, x.digits ≠ [] ∧ ∀ c ∈ x.digits, c.isDigit = true
  | sixteen _ _ digits => (hexInteger? digits).isSome = true

instance : (n : Numeral) → Decidable n.WellFormed
  | ten _ whole part exponent _ =>
    decidable_of_iff ((whole ++ part.getD []).all Char.isDigit = true ∧
        (whole ++ part.getD []).isEmpty = false ∧
        exponent.all (fun x => ! x.digits.isEmpty && x.digits.all Char.isDigit) = true)
      (by
        simp only [WellFormed]
        generalize whole ++ part.getD [] = ds
        simp [Option.all_eq_true])
  | sixteen _ _ digits => inferInstanceAs (Decidable ((hexInteger? digits).isSome = true))

/-- The exponent, which is zero if none is written. -/
def exponent : Numeral → Int
  | ten _ _ _ exponent _ => exponent.elim 0 Exponent.value
  | sixteen _ _ _ => 0

/-- How many digits stand after the point. -/
def fraction : Numeral → Nat
  | ten _ _ part _ _ => (part.getD []).length
  | sixteen _ _ _ => 0

/-- Whether a percent sign ends the numeral. -/
def percent : Numeral → Bool
  | ten _ _ _ _ percent => percent
  | sixteen _ _ _ => false

/-- How many decimal places the number is given with. -/
def places (n : Numeral) : Int := n.fraction - n.exponent + if n.percent then 2 else 0

/-- The number that is written. -/
def value : Numeral → ℚ
  | n@(ten sign whole part _ percent) =>
    sign.factor * numeral 10 (whole ++ part.getD []) * 10 ^ (n.exponent - n.fraction) /
      if percent then 100 else 1
  | sixteen sign _ digits => sign.factor * (hexInteger? digits).getD 0

end Numeral

/-! ## Signs -/

/-- Text that does not begin with a sign. -/
def Unsignable (cs : List Char) : Prop := ∀ c ∈ cs.head?, c ≠ '-' ∧ c ≠ '+'

theorem splitSign_chars (s : Sign) {cs : List Char} (plain : Unsignable cs) :
    splitSign (s.chars ++ cs) = (s.isMinus, cs) := by
  cases s with
  | plus | minus => rfl
  | none =>
    cases cs with
    | nil => rfl
    | cons c cs =>
      obtain ⟨noMinus, noPlus⟩ := plain c rfl
      show splitSign (c :: cs) = (false, c :: cs)
      unfold splitSign
      split
      · rename_i same
        cases same
        exact absurd rfl noMinus
      · rename_i same
        cases same
        exact absurd rfl noPlus
      · rfl

/-- The sign that is taken off a text was written before the rest. -/
theorem exists_sign (cs : List Char) :
    ∃ s : Sign, s.chars ++ (splitSign cs).2 = cs ∧ s.isMinus = (splitSign cs).1 := by
  unfold splitSign
  split
  · exact ⟨.minus, rfl, rfl⟩
  · exact ⟨.plus, rfl, rfl⟩
  · exact ⟨.none, rfl, rfl⟩

theorem unsignable_cons {c : Char} {cs : List Char} (h : c.isDigit = true ∨ c = '.') :
    Unsignable (c :: cs) := by
  rintro _ ⟨⟩
  rcases h with digit | rfl
  · constructor <;> (rintro rfl; simp at digit)
  · decide

/-! ## Cutting at a character -/

section Cut

variable {p : Char → Bool} {cs a b : List Char}

theorem splitAtFirst_eq_none : splitAtFirst p cs = none ↔ ∀ c ∈ cs, p c = false := by
  unfold splitAtFirst
  split
  · rename_i all
    simpa [List.dropWhile_eq_nil_iff] using all
  · rename_i c after first
    refine iff_of_false (by simp) fun all => ?_
    have some : cs.dropWhile (! p ·) = [] := by simpa [List.dropWhile_eq_nil_iff] using all
    simp [first] at some

/-- A text is cut at the first character of the class. -/
theorem splitAtFirst_eq_some :
    splitAtFirst p cs = some (a, b) ↔ ∃ c, p c = true ∧ cs = a ++ c :: b ∧ ∀ x ∈ a, p x = false := by
  constructor
  · intro cut
    unfold splitAtFirst at cut
    split at cut
    · cases cut
    · rename_i c after first
      cases cut
      have head := List.head?_dropWhile_not (! p ·) cs
      rw [first] at head
      refine ⟨c, by simpa using head, ?_, ?_⟩
      · rw [← first, List.takeWhile_append_dropWhile]
      · intro x member
        simpa using List.mem_takeWhile_imp member
  · rintro ⟨c, isFirst, rfl, before⟩
    have all : ∀ x ∈ a, (! p x) = true := by simpa using before
    unfold splitAtFirst
    rw [List.dropWhile_append_of_pos all, List.dropWhile_cons_of_neg (by simp [isFirst]),
      List.takeWhile_append_of_pos all, List.takeWhile_cons_of_neg (by simp [isFirst])]
    simp

end Cut

end MarketScript.Decimal
