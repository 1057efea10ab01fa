import Mathlib.Algebra.Order.Field.Rat
import Mathlib.Tactic.FieldSimp
import Mathlib.Tactic.NormNum
import Mathlib.Tactic.Ring
import MarketScript.Decimal.Basic

/-!
# Decimals as rational numbers

A decimal is the shortest of all ways to write its rational number over a power of ten.  So the
number determines the decimal, and scaling is multiplying and dividing by powers of ten.
-/

namespace MarketScript

@[simp] theorem cast_tenPow (n : Nat) : (tenPow n : ℚ) = 10 ^ n := by
  simp [tenPow]

namespace Decimal

/-- The rational number that a decimal is. -/
def value (d : Decimal) : ℚ := d.digits / 10 ^ d.places

@[simp] theorem value_ofInt (n : Int) : (ofInt n).value = n := by
  simp [value, ofInt]

/-- Shortening keeps the number. -/
@[simp] theorem value_ofPlaces (digits : Int) (places : Nat) :
    (ofPlaces digits places).value = digits / 10 ^ places := by
  have same := congrArg (Int.cast : Int → ℚ) (ofPlaces_value digits places)
  push_cast [cast_tenPow] at same
  rw [value, div_eq_div_iff (by positivity) (by positivity)]
  exact same

/-- No other way to write the number over a power of ten has fewer places. -/
theorem places_le_of_value {d : Decimal} {digits : Int} {places : Nat}
    (same : d.value = digits / 10 ^ places) : d.places ≤ places := by
  by_contra more
  obtain ⟨extra, isExtra⟩ : ∃ extra, d.places = places + (extra + 1) :=
    ⟨d.places - places - 1, by omega⟩
  -- The digits of the decimal would end in a zero.
  have product : d.digits = digits * 10 ^ extra * 10 := by
    rw [value, isExtra, div_eq_div_iff (by positivity) (by positivity), pow_add, pow_succ] at same
    have inRat : (d.digits : ℚ) = digits * 10 ^ extra * 10 := by
      have positive : (10 : ℚ) ^ places ≠ 0 := by positivity
      apply mul_right_cancel₀ positive
      rw [same]
      ring
    exact_mod_cast inRat
  rcases d.normal with none | some
  · omega
  · exact some (by rw [product]; exact Int.mul_emod_left _ _)

/-- The rational number determines the decimal. -/
theorem value_inj {d e : Decimal} : d.value = e.value ↔ d = e := by
  constructor
  · intro same
    have places : d.places = e.places :=
      Nat.le_antisymm (places_le_of_value same) (places_le_of_value same.symm)
    have digits : d.digits = e.digits := by
      rw [value, value, places, div_left_inj' (by positivity)] at same
      exact_mod_cast same
    cases d
    cases e
    cases places
    cases digits
    rfl
  · rintro rfl
    rfl

/-- Scaling up multiplies by a power of ten. -/
theorem value_scaleUp (d : Decimal) (n : Nat) : (d.scaleUp n).value = d.value * 10 ^ n := by
  unfold scaleUp
  split
  · rename_i within
    obtain ⟨rest, isRest⟩ : ∃ rest, d.places = rest + n := ⟨d.places - n, by omega⟩
    rw [value_ofPlaces, value, isRest, Nat.add_sub_cancel, pow_add]
    field_simp
  · rename_i beyond
    obtain ⟨rest, rfl⟩ : ∃ rest, n = d.places + rest := ⟨n - d.places, by omega⟩
    rw [value_ofInt, value, Nat.add_sub_cancel_left, pow_add]
    push_cast [cast_tenPow]
    field_simp

/-- Scaling down divides by a power of ten. -/
theorem value_scaleDown (d : Decimal) (n : Nat) : (d.scaleDown n).value = d.value / 10 ^ n := by
  rw [scaleDown, value_ofPlaces, value, pow_add, div_div]

/-- The whole number that a decimal is. -/
theorem toInt?_eq_some {d : Decimal} {n : Int} : d.toInt? = some n ↔ d.value = n := by
  rw [← value_ofInt, value_inj]
  constructor
  · intro whole
    obtain ⟨digits, places, normal⟩ := d
    unfold toInt? at whole
    split at whole
    · rename_i none
      cases none
      cases whole
      rfl
    · cases whole
  · rintro rfl
    rfl

theorem isInteger_iff {d : Decimal} : d.isInteger = true ↔ ∃ n : Int, d.value = n := by
  rw [isInteger, beq_iff_eq]
  constructor
  · intro whole
    exact ⟨d.digits, by rw [value, whole, pow_zero, div_one]⟩
  · rintro ⟨n, same⟩
    have whole : d.value = (n : Int) / 10 ^ 0 := by rw [same, pow_zero, div_one]
    have none : d.places ≤ 0 := places_le_of_value whole
    omega

end Decimal

end MarketScript
