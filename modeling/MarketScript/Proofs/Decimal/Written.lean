import MarketScript.Number
import MarketScript.Proofs.Decimal.Meaning

/-!
# Written decimals

The text of a decimal spells its number, and so reading it gives the decimal back.  The same holds of
a number that is shown at a scale: its text is that of the decimal it expresses, followed by the scale
as an exponent.
-/

namespace MarketScript

/-! ## Written digits -/

/-- Numerals of base ten mean what the core library takes them for. -/
theorem numeral_eq_ofDigitChars {ds : List Char} (digits : ∀ c ∈ ds, c.isDigit = true) :
    numeral 10 ds = Nat.ofDigitChars 10 ds 0 := by
  induction ds using List.reverseRecOn with
  | nil => rfl
  | append_singleton ds d ih =>
    have digit : d.isDigit = true := digits d (by simp)
    rw [numeral_concat, ih fun c member => digits c (List.mem_append_left _ member),
      Nat.ofDigitChars_append, Nat.ofDigitChars_cons, Nat.ofDigitChars_nil, hexDigit?, if_pos digit,
      Option.getD_some, Nat.mul_comm]
    rfl

namespace Decimal

/-- The digits of a decimal, with zeros before them so that there is one before the point. -/
def padded (d : Decimal) : List Char :=
  List.replicate (d.places + 1 - (Nat.toDigits 10 d.digits.natAbs).length) '0' ++
    Nat.toDigits 10 d.digits.natAbs

variable {d : Decimal}

theorem isDigit_of_mem_padded {c : Char} (member : c ∈ d.padded) : c.isDigit = true := by
  rcases List.mem_append.mp member with zero | digit
  · rw [List.eq_of_mem_replicate zero]
    decide
  · exact Nat.isDigit_of_mem_toDigits (by decide) (by decide) digit

theorem numeral_padded : numeral 10 d.padded = d.digits.natAbs := by
  rw [numeral_eq_ofDigitChars fun _ => isDigit_of_mem_padded, padded, Nat.ofDigitChars_append,
    Nat.ofDigitChars_replicate_zero, Nat.mul_zero, Nat.ofDigitChars_ten_toDigits]

theorem places_lt_length_padded : d.places < d.padded.length := by
  rw [padded, List.length_append, List.length_replicate]
  omega

/-! ## The numeral of a decimal -/

/-- The digits before the point. -/
def whole (d : Decimal) : List Char := d.padded.take (d.padded.length - d.places)

/-- The digits after the point, if there are any. -/
def part (d : Decimal) : Option (List Char) :=
  if d.places = 0 then none else some (d.padded.drop (d.padded.length - d.places))

/-- The sign of the text. -/
def sign (d : Decimal) : Sign := if d.isNegative then .minus else .none

/-- The numeral that is the text of a decimal, with an exponent after it if one is given. -/
def spelling (d : Decimal) (x : Option Exponent) : Numeral := .ten d.sign d.whole d.part x false

theorem whole_append_part : d.whole ++ d.part.getD [] = d.padded := by
  unfold whole part
  split
  · rename_i none
    rw [none, Nat.sub_zero, List.take_length, Option.getD_none, List.append_nil]
  · rw [Option.getD_some, List.take_append_drop]

theorem length_part : (d.part.getD []).length = d.places := by
  have fits := places_lt_length_padded (d := d)
  unfold part
  split
  · rename_i none
    exact none.symm
  · rw [Option.getD_some, List.length_drop]
    omega

theorem spelling_wellFormed {x : Option Exponent}
    (exponent : ∀ y ∈ x, y.digits ≠ [] ∧ ∀ c ∈ y.digits, c.isDigit = true) :
    (d.spelling x).WellFormed := by
  refine ⟨?_, ?_, exponent⟩
  · rw [whole_append_part]
    exact fun _ => isDigit_of_mem_padded
  · intro none
    have some := places_lt_length_padded (d := d)
    rw [← whole_append_part, none] at some
    exact Nat.not_lt_zero _ some

theorem chars_spelling (x : Option Exponent) :
    (d.spelling x).chars = d.chars ++ x.elim [] Exponent.chars := by
  have minus : d.sign.chars = if d.isNegative then ['-'] else [] := by
    unfold sign
    split <;> rfl
  have point : d.part.elim [] ('.' :: ·) = if d.places = 0 then [] else
      '.' :: d.padded.drop (d.padded.length - d.places) := by
    unfold part
    split <;> rfl
  rw [spelling, Numeral.chars, Numeral.body, Numeral.mantissa, minus, point,
    if_neg Bool.false_ne_true, List.append_nil, ← List.append_assoc, ← List.append_assoc]
  rfl

/-- The sign of the text and the size of the digits make the digits. -/
theorem sign_mul_natAbs (d : Decimal) : d.sign.factor * (d.digits.natAbs : Int) = d.digits := by
  rw [Sign.factor_mul]
  unfold sign
  by_cases negative : d.digits < 0
  · have minus : d.isNegative = true := decide_eq_true negative
    rw [if_pos minus, if_pos (by decide)]
    omega
  · have none : ¬ d.isNegative = true := by simpa [isNegative] using negative
    rw [if_neg none, if_neg (by decide)]
    omega

/-- The numeral of a decimal means the decimal, times a power of ten if it has an exponent. -/
theorem value_spelling (x : Option Exponent) :
    (d.spelling x).value = d.value * 10 ^ (x.elim 0 Exponent.value) := by
  have ten_ne : (10 : ℚ) ≠ 0 := by norm_num
  have digits := congrArg (Int.cast : Int → ℚ) d.sign_mul_natAbs
  rw [Int.cast_mul, Int.cast_natCast] at digits
  have places : (d.spelling x).fraction = d.places := length_part
  calc (d.spelling x).value
      = d.sign.factor * numeral 10 d.padded *
          10 ^ ((d.spelling x).exponent - (d.spelling x).fraction) / 1 := by
        rw [← whole_append_part]
        rfl
    _ = d.digits * 10 ^ (x.elim 0 Exponent.value - (d.places : Int)) := by
        rw [numeral_padded, digits, places, div_one]
        rfl
    _ = d.value * 10 ^ (x.elim 0 Exponent.value) := by
        rw [value, zpow_sub₀ ten_ne, zpow_natCast]
        ring

/-! ## Reading what is written -/

/-- No blank is written in a numeral of base ten. -/
theorem isBlank_of_mem_ten {s : Sign} {whole : List Char} {part : Option (List Char)}
    {x : Option Exponent} {percent : Bool} (h : (Numeral.ten s whole part x percent).WellFormed)
    {c : Char} (member : c ∈ (Numeral.ten s whole part x percent).chars) : isBlank c = false := by
  have shape : c.isDigit = true ∨ c ∈ ['.', 'e', 'E', '+', '-', '%'] := by
    rcases List.mem_append.mp member with front | isPercent
    · rcases List.mem_append.mp front with inSign | inBody
      · cases s <;> simp_all [Sign.chars]
      · rcases mem_body h inBody with digit | mark
        · exact .inl digit
        · exact .inr (List.mem_append_left ['%'] mark)
    · cases percent <;> simp_all
  rcases shape with digit | mark
  · have upper : c.toNat ≤ 57 := (Char.isDigit_iff_toNat.mp digit).2
    have lower : 48 ≤ c.toNat := (Char.isDigit_iff_toNat.mp digit).1
    exact isBlank_of_visible (by omega) (by omega)
  · simp only [List.mem_cons, List.not_mem_nil, or_false] at mark
    rcases mark with rfl | rfl | rfl | rfl | rfl | rfl <;> decide

/-- A decimal that is written is read again, whether an exponent within the limit follows it or not. -/
theorem ofString?_chars {x : Option Exponent}
    (exponent : ∀ y ∈ x, y.digits ≠ [] ∧ ∀ c ∈ y.digits, c.isDigit = true)
    (limited : |x.elim 0 Exponent.value| ≤ 512) :
    ∃ e, ofString? (String.ofList (d.chars ++ x.elim [] Exponent.chars)) = some e ∧
      e.value = d.value * 10 ^ (x.elim 0 Exponent.value) := by
  have h := spelling_wellFormed (d := d) exponent
  have isExponent : (d.spelling x).exponent = x.elim 0 Exponent.value := rfl
  have bounds := abs_le.mp limited
  have read := ofChars?_chars h (by omega)
  rw [if_pos (by rwa [isExponent]), value_spelling] at read
  have trimmed : trimBlanks (d.spelling x).chars = (d.spelling x).chars :=
    trimBlanks_of_plain fun _ => isBlank_of_mem_ten h
  rw [ofString?, String.toList_ofList, ← chars_spelling, trimmed]
  exact read

theorem ofString?_text (d : Decimal) : ofString? d.text = some d := by
  have none : ∀ y ∈ (Option.none : Option Exponent), y.digits ≠ [] ∧
      ∀ c ∈ y.digits, c.isDigit = true := by
    rintro y ⟨⟩
  obtain ⟨e, read, value⟩ := ofString?_chars (d := d) none (by decide)
  rw [Option.elim_none, List.append_nil] at read
  rw [Option.elim_none, zpow_zero, mul_one] at value
  rw [text, read, value_inj.mp value]

/-- Decimals are equal when their rational numbers are, scaling them multiplies and divides those by
    powers of ten, they are whole when those are, and what is written of them can be read. -/
theorem decimals_canonical (d : Decimal) :
    (∀ e : Decimal, d = e ↔ d.value = e.value) ∧
    (∀ n, (d.scaleUp n).value = d.value * 10 ^ n ∧ (d.scaleDown n).value = d.value / 10 ^ n) ∧
    (d.isInteger = true ↔ ∃ n : Int, d.value = n) ∧
    ofString? d.text = some d := by
  refine ⟨?_, ?_, isInteger_iff, ofString?_text d⟩
  · intro e
    exact value_inj.symm
  · intro n
    exact ⟨value_scaleUp d n, value_scaleDown d n⟩

end Decimal

/-! ## Numbers at a scale -/

namespace Number

theorem value_expressed (n : Number) :
    n.expressed.value = n.mantissa.value / 10 ^ n.scale.getD 0 :=
  Decimal.value_scaleDown _ _

/-- The scale of a number, as an exponent. -/
def exponent (scale : Nat) : Decimal.Exponent := ⟨false, .none, Nat.toDigits 10 scale⟩

theorem isDigit_of_mem_exponent {scale : Nat} {c : Char} (member : c ∈ (exponent scale).digits) :
    c.isDigit = true :=
  Nat.isDigit_of_mem_toDigits (by decide) (by decide) member

theorem value_exponent (scale : Nat) : (exponent scale).value = scale := by
  have digits : numeral 10 (exponent scale).digits = scale := by
    rw [numeral_eq_ofDigitChars fun _ => isDigit_of_mem_exponent]
    exact Nat.ofDigitChars_ten_toDigits
  rw [Decimal.Exponent.value, digits]
  exact one_mul _

/-- At a scale other than zero, what is shown is the decimal that is expressed, and the scale. -/
theorem text_scaled (mantissa : Decimal) (k : Nat) :
    text ⟨mantissa, some (k + 1)⟩ = String.ofList
      ((expressed ⟨mantissa, some (k + 1)⟩).chars ++ (exponent (k + 1)).chars) := by
  apply String.toList_injective
  simp [text, exponent, Decimal.Exponent.chars, Decimal.Sign.chars, Decimal.text, toString]

/-- A number that is shown at a scale is read as its mantissa. -/
theorem ofString?_text {n : Number} (limited : ∀ s ∈ n.scale, s ≤ 512) :
    ofString? n.text = some (ofDecimal n.mantissa) := by
  obtain ⟨mantissa, scale⟩ := n
  have whole : ofString? mantissa.text = some (ofDecimal mantissa) := by
    rw [ofString?, Decimal.ofString?_text, Option.map_some]
  cases scale with
  | none => exact whole
  | some s =>
    cases s with
    | zero => exact whole
    | succ k =>
      have digits : ∀ x ∈ some (exponent (k + 1)), x.digits ≠ [] ∧
          ∀ c ∈ x.digits, c.isDigit = true := by
        rintro x ⟨⟩
        exact ⟨Nat.toDigits_ne_nil, fun _ => isDigit_of_mem_exponent⟩
      have small : |((some (exponent (k + 1))).elim 0 Decimal.Exponent.value)| ≤ 512 := by
        have within := limited (k + 1) rfl
        rw [Option.elim_some, value_exponent, Nat.abs_cast]
        exact_mod_cast within
      obtain ⟨d, read, value⟩ :=
        Decimal.ofString?_chars (d := expressed ⟨mantissa, some (k + 1)⟩) digits small
      rw [Option.elim_some] at read
      have same : d = mantissa := by
        apply Decimal.value_inj.mp
        rw [value, value_expressed, Option.elim_some, value_exponent, zpow_natCast]
        exact div_mul_cancel₀ _ (by positivity)
      rw [text_scaled, ofString?, read, Option.map_some, same]

end Number

end MarketScript
