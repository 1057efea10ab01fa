import Mathlib.Data.List.Induction
import MarketScript.Proofs.Decimal.Reading

/-!
# What numerals mean

A numeral whose exponent is within the limit is read as the number that it writes, and nothing else is
read.  There is one exponent for which this fails: the least that a word of 64 bits can hold.  It has
no opposite in its word, so the limit does not hold it back, and what is counted with it is wrong.
-/

namespace MarketScript.Decimal

/-! ## Counting in words -/

section Words

variable {e : Int64}

theorem toInt_neg_of_ne (regular : e.toInt ≠ -2 ^ 63) : (-e).toInt = -e.toInt := by
  have low := e.le_toInt
  have high := e.toInt_lt
  rw [Int64.toInt_neg]
  exact Int.bmod_eq_of_le (by omega) (by omega)

theorem toInt_abs_of_ne (regular : e.toInt ≠ -2 ^ 63) : e.abs.toInt = |e.toInt| := by
  have notLeast : e.toBitVec ≠ BitVec.intMin 64 := by
    intro least
    refine regular ?_
    rw [Int64.toInt, least]
    rfl
  rw [Int64.toInt, Int64.toBitVec_abs, BitVec.toInt_abs_eq_natAbs_of_ne_intMin notLeast,
    ← Int.abs_eq_natAbs]
  rfl

theorem eq_minValue_of_toInt (least : e.toInt = -2 ^ 63) : e = Int64.minValue := by
  rw [← Int64.toInt_inj, least, Int64.toInt_minValue]

theorem exponentLimit_lt_abs (regular : e.toInt ≠ -2 ^ 63) :
    e.abs > exponentLimit ↔ 512 < |e.toInt| := by
  have limit : exponentLimit.toInt = 512 := rfl
  rw [gt_iff_lt, Int64.lt_iff_toInt_lt, toInt_abs_of_ne regular, limit]

end Words

namespace Numeral

variable {n : Numeral} {e : Int64}

/-- As many places are counted as the numeral is given with. -/
theorem placesOf_eq (isExponent : e.toInt = n.exponent) (regular : n.exponent ≠ -2 ^ 63) :
    placesOf n.fraction e n.percent = n.places := by
  rw [← isExponent] at regular
  rw [placesOf, toInt_neg_of_ne regular, isExponent, places, sub_eq_add_neg]

theorem le_places (limited : |n.exponent| ≤ 512) : -512 ≤ n.places := by
  have upper := (abs_le.mp limited).2
  unfold places
  split <;> omega

end Numeral

/-! ## The number that is read -/

theorem value_ofDigits (s : Sign) (ds : List Char) {places : Int} (fits : -2 ^ 32 < places) :
    (ofDigits s.isMinus ds places).value = s.factor * numeral 10 ds * 10 ^ (-places) := by
  unfold ofDigits
  dsimp only
  rw [value_ofPlaces, ← Sign.factor_mul]
  by_cases below : places < 0
  · obtain ⟨zeros, rfl⟩ : ∃ zeros : Nat, places = -zeros := ⟨(-places).toNat, by omega⟩
    have counted : lowHalf (- -(zeros : Int)) = zeros := by
      unfold lowHalf
      omega
    have none : (-(zeros : Int)).toNat = 0 := by omega
    rw [if_pos below, counted, none, pow_zero, div_one, neg_neg, zpow_natCast]
    push_cast [cast_tenPow]
    ring
  · obtain ⟨some, rfl⟩ : ∃ some : Nat, places = some := ⟨places.toNat, by omega⟩
    rw [if_neg below, Int.toNat_natCast, zpow_neg, zpow_natCast]
    push_cast
    ring

namespace Numeral

variable {s : Sign} {whole : List Char} {part : Option (List Char)} {x : Option Exponent}
  {percent : Bool}

theorem value_ten : (ten s whole part x percent).value =
    s.factor * numeral 10 (whole ++ part.getD []) * 10 ^ (-(ten s whole part x percent).places) := by
  have ten_ne : (10 : ℚ) ≠ 0 := by norm_num
  rw [value, places, neg_add, neg_sub, zpow_add₀ ten_ne, ← mul_assoc, div_eq_mul_inv]
  congr 1
  cases percent <;> norm_num [Numeral.percent]

end Numeral

/-- A numeral is read as the number that it writes if its exponent is within the limit, and otherwise
    not at all. -/
theorem ofChars?_chars {n : Numeral} (h : n.WellFormed) (regular : n.exponent ≠ -2 ^ 63) :
    if |n.exponent| ≤ 512 then ∃ d, ofChars? n.chars = some d ∧ d.value = n.value
    else ofChars? n.chars = none := by
  cases n with
  | sixteen s capital ds =>
    obtain ⟨m, read⟩ := Option.isSome_iff_exists.mp h
    rw [if_pos (by simp [Numeral.exponent])]
    refine ⟨_, ofChars?_sixteen read, ?_⟩
    rw [value_ofInt, Numeral.value, read]
    push_cast
    rfl
  | ten s whole part x percent =>
    rw [ofChars?_ten h]
    generalize isNumeral : Numeral.ten s whole part x percent = n at regular ⊢
    cases fits : word? n.exponent with
    | none =>
      rw [if_neg]
      · rfl
      · intro limited
        have bounds := abs_le.mp limited
        unfold word? at fits
        rw [if_pos (by omega)] at fits
        cases fits
    | some e =>
      have isExponent := word?_eq_some.mp fits
      have regular' : e.toInt ≠ -2 ^ 63 := isExponent ▸ regular
      rw [Option.bind_some]
      split
      · rename_i limited
        rw [if_neg (by rw [exponentLimit_lt_abs regular', isExponent]; omega)]
        refine ⟨_, rfl, ?_⟩
        have places : placesOf n.fraction e percent = n.places := by
          subst isNumeral
          exact Numeral.placesOf_eq isExponent regular
        have fits := Numeral.le_places limited
        rw [places, value_ofDigits s _ (by omega), ← isNumeral, Numeral.value_ten]
      · rename_i beyond
        rw [if_pos (by rw [exponentLimit_lt_abs regular', isExponent]; omega)]

/-! ## Short texts -/

theorem numeral_lt {base : Nat} {ds : List Char}
    (digits : ∀ c ∈ ds, (hexDigit? c).getD 0 < base) : numeral base ds < base ^ ds.length := by
  induction ds using List.reverseRecOn with
  | nil => exact Nat.one_pos
  | append_singleton ds d ih =>
    have before := ih fun c member => digits c (List.mem_append_left _ member)
    have last := digits d (by simp)
    rw [numeral_concat, List.length_append, List.length_singleton, pow_succ]
    calc numeral base ds * base + (hexDigit? d).getD 0
        < numeral base ds * base + base := Nat.add_lt_add_left last _
      _ = (numeral base ds + 1) * base := (Nat.succ_mul _ _).symm
      _ ≤ base ^ ds.length * base := Nat.mul_le_mul_right _ before

/-- The number has a place in a word of 64 bits with a sign. -/
def IsWord (n : Int) : Prop := -2 ^ 63 ≤ n ∧ n < 2 ^ 63

/-- The number has a place in a word of 32 bits without a sign. -/
def IsHalf (n : Int) : Prop := 0 ≤ n ∧ n < 2 ^ 32

namespace Draft

/-- How many digits stand after the point of a numeral that is read so far that its places are
    counted. -/
def fraction? (d : Draft) : Option Nat :=
  if |d.exponent.toInt| ≤ 512 then d.digits?.map (·.2.length) else none

/-- The places of a numeral with so many digits after its point. -/
def places (d : Draft) (digits : Nat) : Int :=
  digits - d.exponent.toInt + if d.percent then 2 else 0

/-- Every number that comes up while the places of a numeral are counted has room in its word. -/
structure InRange (d : Draft) : Prop where
  /-- The size of the exponent, which is compared with the limit. -/
  size : IsWord |d.exponent.toInt|
  /-- The places before the percent sign is taken into account. -/
  difference : ∀ digits ∈ d.fraction?, IsWord (digits - d.exponent.toInt)
  places : ∀ digits ∈ d.fraction?, IsWord (d.places digits)
  /-- Fewer places than none are zeros. -/
  zeros : ∀ digits ∈ d.fraction?, d.places digits < 0 →
    IsWord (-d.places digits) ∧ IsHalf (-d.places digits)
  count : ∀ digits ∈ d.fraction?, 0 ≤ d.places digits → IsHalf (d.places digits)

variable {d : Draft}

theorem toInt_ne_of_ne (regular : d.exponent ≠ Int64.minValue) : d.exponent.toInt ≠ -2 ^ 63 :=
  fun least => regular (eq_minValue_of_toInt least)

/-- Only the exponent without an opposite has no room, as long as there are fewer than `2 ^ 32`
    places. -/
theorem inRange_iff : d.InRange ↔
    d.exponent ≠ Int64.minValue ∧ ∀ digits ∈ d.fraction?, d.places digits < 2 ^ 32 := by
  constructor
  · intro range
    refine ⟨?_, fun digits counted => ?_⟩
    · intro least
      have size := range.size.2
      rw [least, Int64.toInt_minValue] at size
      norm_num at size
    · by_cases some : 0 ≤ d.places digits
      · exact (range.count digits counted some).2
      · omega
  · rintro ⟨regular, few⟩
    have low := d.exponent.le_toInt
    have high := d.exponent.toInt_lt
    have notLeast := toInt_ne_of_ne regular
    have size : |d.exponent.toInt| < 2 ^ 63 := abs_lt.mpr ⟨by omega, high⟩
    have bounds : ∀ digits ∈ d.fraction?, -512 ≤ d.exponent.toInt ∧ d.exponent.toInt ≤ 512 ∧
        digits - d.exponent.toInt ≤ d.places digits ∧ d.places digits < 2 ^ 32 := by
      intro digits counted
      have limited : |d.exponent.toInt| ≤ 512 := by
        by_contra beyond
        rw [fraction?, if_neg beyond] at counted
        cases counted
      refine ⟨(abs_le.mp limited).1, (abs_le.mp limited).2, ?_, few digits counted⟩
      unfold Draft.places
      split <;> omega
    refine ⟨⟨?_, size⟩, ?_, ?_, ?_, ?_⟩
    · have nonneg := abs_nonneg d.exponent.toInt
      omega
    all_goals
      intro digits counted
      have := bounds digits counted
      simp only [IsWord, IsHalf]
      omega

/-- In range, the words hold the numbers that they stand for. -/
theorem InRange.exact (range : d.InRange) :
    d.exponent.abs.toInt = |d.exponent.toInt| ∧
      ∀ digits, placesOf digits d.exponent d.percent = d.places digits := by
  have regular := toInt_ne_of_ne (inRange_iff.mp range).1
  refine ⟨toInt_abs_of_ne regular, fun digits => ?_⟩
  rw [placesOf, toInt_neg_of_ne regular, Draft.places, sub_eq_add_neg]

end Draft

end MarketScript.Decimal
