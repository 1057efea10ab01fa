/-!
# Decimals

Exact decimal numbers.  A decimal is an integer over a power of ten, kept in its shortest form, so
that equal numbers are equal decimals.
-/

namespace MarketScript

/-- Ten to the power `n`. -/
def tenPow (n : Nat) : Nat := Nat.pow 10 n

@[simp] theorem tenPow_zero : tenPow 0 = 1 := rfl

theorem tenPow_succ (n : Nat) : tenPow (n + 1) = tenPow n * 10 := rfl

/-- The number `digits / 10 ^ places` in its shortest form: no place is used for a final zero. -/
structure Decimal where
  digits : Int
  places : Nat
  normal : places = 0 ∨ digits % 10 ≠ 0
deriving DecidableEq, Repr

namespace Decimal

/-- The whole number `n`. -/
def ofInt (n : Int) : Decimal := ⟨n, 0, .inl rfl⟩

def zero : Decimal := ofInt 0

instance : Inhabited Decimal := ⟨zero⟩

/-- The number `digits / 10 ^ places`, brought to its shortest form. -/
def ofPlaces (digits : Int) : (places : Nat) → Decimal
  | 0 => ofInt digits
  | places + 1 =>
    if h : digits % 10 = 0 then ofPlaces (digits / 10) places else ⟨digits, places + 1, .inr h⟩

@[simp] theorem ofPlaces_zero (digits : Int) : ofPlaces digits 0 = ofInt digits := rfl

/-- A decimal is its own shortest form. -/
@[simp] theorem ofPlaces_digits_places (d : Decimal) : ofPlaces d.digits d.places = d := by
  obtain ⟨digits, places, normal⟩ := d
  cases places with
  | zero => rfl
  | succ n => simp [ofPlaces, normal.resolve_left (by simp)]

/-- Shortening keeps the number. -/
theorem ofPlaces_value (digits : Int) (places : Nat) :
    (ofPlaces digits places).digits * tenPow places =
      digits * tenPow (ofPlaces digits places).places := by
  induction places generalizing digits with
  | zero => simp [ofInt]
  | succ n ih =>
    rw [ofPlaces]
    split
    · rename_i h
      have ten : digits = digits / 10 * 10 := by omega
      have hn := ih (digits / 10)
      calc (ofPlaces (digits / 10) n).digits * tenPow (n + 1)
          = (ofPlaces (digits / 10) n).digits * tenPow n * 10 := by
            rw [tenPow_succ, Int.natCast_mul, Int.mul_assoc]; rfl
        _ = digits / 10 * tenPow (ofPlaces (digits / 10) n).places * 10 := by rw [hn]
        _ = digits / 10 * 10 * tenPow (ofPlaces (digits / 10) n).places := by
          rw [Int.mul_assoc, Int.mul_comm (tenPow _) 10, ← Int.mul_assoc]
        _ = digits * tenPow (ofPlaces (digits / 10) n).places := by rw [← ten]
    · rfl

/-- The number times `10 ^ n`. -/
def scaleUp (d : Decimal) (n : Nat) : Decimal :=
  if n ≤ d.places then ofPlaces d.digits (d.places - n)
  else ofInt (d.digits * tenPow (n - d.places))

/-- The number divided by `10 ^ n`. -/
def scaleDown (d : Decimal) (n : Nat) : Decimal := ofPlaces d.digits (d.places + n)

def isInteger (d : Decimal) : Bool := d.places == 0

/-- The number, if it is whole. -/
def toInt? (d : Decimal) : Option Int := if d.places = 0 then some d.digits else none

def isNegative (d : Decimal) : Bool := d.digits < 0

def isZero (d : Decimal) : Bool := d.digits == 0

@[simp] theorem toInt?_ofInt (n : Int) : (ofInt n).toInt? = some n := rfl

@[simp] theorem toInt?_isSome (d : Decimal) : d.toInt?.isSome = d.isInteger := by
  unfold toInt? isInteger
  split <;> simp_all

/-- The characters of a decimal: a minus sign if it is negative, at least one digit before the
    point, and the point only where places follow it. -/
def chars (d : Decimal) : List Char :=
  let magnitude := Nat.toDigits 10 d.digits.natAbs
  let padded := List.replicate (d.places + 1 - magnitude.length) '0' ++ magnitude
  let whole := padded.take (padded.length - d.places)
  let part := padded.drop (padded.length - d.places)
  (if d.isNegative then ['-'] else []) ++ whole ++ (if d.places = 0 then [] else '.' :: part)

/-- The written form of a decimal. -/
def text (d : Decimal) : String := String.ofList d.chars

end Decimal

end MarketScript
