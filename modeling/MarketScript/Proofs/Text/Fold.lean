import MarketScript.Text.Blank
import MarketScript.Text.Digit
import MarketScript.Text.Fold

/-!
# What letter case leaves alone

Only the letters `A` to `Z` have another form, and that is a letter as well.  So writing a text in
small letters changes no digit, no blank, and no other mark that a reader of the text looks for.
-/

namespace MarketScript

/-! ## Single characters -/

/-- Only a capital letter has another form, a letter thirty-two places further. -/
theorem toLower_cases (c : Char) :
    ((c.toNat < 65 ∨ 90 < c.toNat) ∧ c.toLower = c) ∨
      65 ≤ c.toNat ∧ c.toNat ≤ 90 ∧ c.toLower.toNat = c.toNat + 32 := by
  have same : c.val.toNat = c.toNat := rfl
  unfold Char.toLower
  split
  · rename_i letter
    have low : 65 ≤ c.toNat := UInt32.le_iff_toNat_le.mp letter.1
    have high : c.toNat ≤ 90 := UInt32.le_iff_toNat_le.mp letter.2
    refine .inr ⟨low, high, ?_⟩
    show (c.val + 32).toNat = c.val.toNat + 32
    rw [UInt32.toNat_add]
    apply Nat.mod_eq_of_lt
    rw [same]
    show c.toNat + 32 < 2 ^ 32
    omega
  · rename_i other
    refine .inl ⟨?_, rfl⟩
    simp only [UInt32.le_iff_toNat_le, UInt32.reduceToNat, Char.reduceVal, same] at other
    omega

/-- A character that is no letter is the small form of itself only. -/
theorem toLower_eq_iff {c d : Char} (mark : d.isAlpha = false) : c.toLower = d ↔ c = d := by
  obtain ⟨noCapital, noSmall⟩ := Bool.or_eq_false_iff.mp mark
  have apart : ¬ (65 ≤ d.toNat ∧ d.toNat ≤ 90) := by
    rintro ⟨low, high⟩
    exact of_decide_eq_false noCapital
      ⟨UInt32.le_iff_toNat_le.mpr low, UInt32.le_iff_toNat_le.mpr high⟩
  have apart' : ¬ (97 ≤ d.toNat ∧ d.toNat ≤ 122) := by
    rintro ⟨low, high⟩
    rcases Bool.and_eq_false_iff.mp noSmall with below | above
    · exact of_decide_eq_false below (UInt32.le_iff_toNat_le.mpr low)
    · exact of_decide_eq_false above (UInt32.le_iff_toNat_le.mpr high)
  rcases toLower_cases c with ⟨-, same⟩ | ⟨low, high, further⟩
  · rw [same]
  · constructor
    · rintro rfl
      omega
    · rintro rfl
      omega

/-- A letter is the small form of what is thirty-two places before it, and of itself if it is
    small. -/
theorem toLower_eq_letter {c small capital : Char} (low : 65 ≤ capital.toNat)
    (high : capital.toNat ≤ 90) (further : small.toNat = capital.toNat + 32) :
    c.toLower = small ↔ c = small ∨ c = capital := by
  rw [← Char.toNat_inj, ← Char.toNat_inj, ← Char.toNat_inj]
  rcases toLower_cases c with ⟨apart, same⟩ | ⟨_, _, moved⟩
  · rw [same]
    omega
  · omega

/-- Nothing is a capital letter in small letters. -/
theorem toLower_ne_capital (c : Char) {capital : Char} (low : 65 ≤ capital.toNat)
    (high : capital.toNat ≤ 90) : c.toLower ≠ capital := by
  rintro rfl
  rcases toLower_cases c with ⟨apart, same⟩ | ⟨_, _, moved⟩
  · rw [same] at low high
    omega
  · omega

@[simp] theorem isDigit_toLower (c : Char) : c.toLower.isDigit = c.isDigit := by
  rcases toLower_cases c with ⟨-, same⟩ | ⟨low, high, further⟩
  · rw [same]
  · rw [Bool.eq_iff_iff, Char.isDigit_iff_toNat, Char.isDigit_iff_toNat]
    simp only [Char.reduceToNat]
    omega

@[simp] theorem isBlank_toLower (c : Char) : isBlank c.toLower = isBlank c := by
  rcases toLower_cases c with ⟨-, same⟩ | ⟨low, high, further⟩
  · rw [same]
  · rw [isBlank_of_visible (by omega) (by omega), isBlank_of_visible (by omega) (by omega)]

/-- The digits of base sixteen, by their places among all characters. -/
theorem hexDigit?_eq (c : Char) :
    hexDigit? c =
      if 48 ≤ c.toNat ∧ c.toNat ≤ 57 then some (c.toNat - 48)
      else if 97 ≤ c.toNat ∧ c.toNat ≤ 102 then some (c.toNat - 87)
      else if 65 ≤ c.toNat ∧ c.toNat ≤ 70 then some (c.toNat - 55)
      else none := by
  have places : ∀ d e : Char, d ≤ e ↔ d.toNat ≤ e.toNat := by
    intro d e
    rw [Char.le_def, UInt32.le_iff_toNat_le]
    rfl
  simp only [hexDigit?, Char.isDigit_iff_toNat, places, Char.reduceToNat]

/-- The digits of base sixteen can be written in either case. -/
@[simp] theorem hexDigit?_toLower (c : Char) : hexDigit? c.toLower = hexDigit? c := by
  rcases toLower_cases c with ⟨-, same⟩ | ⟨low, high, further⟩
  · rw [same]
  · rw [hexDigit?_eq, hexDigit?_eq, further]
    grind

/-! ## Texts -/

section Texts

variable (cs : List Char)

@[simp] theorem numeral_map_toLower (base : Nat) :
    numeral base (cs.map Char.toLower) = numeral base cs := by
  simp [numeral, List.foldl_map]

theorem trimBlanks_map_toLower : trimBlanks (cs.map Char.toLower) = (trimBlanks cs).map Char.toLower := by
  have blank : isBlank ∘ Char.toLower = isBlank := funext isBlank_toLower
  unfold trimBlanks
  rw [List.dropWhile_map, blank, ← List.map_reverse, List.dropWhile_map, blank, ← List.map_reverse]

end Texts

theorem toList_foldCase (text : String) : (foldCase text).toList = text.toList.map Char.toLower := by
  rw [foldCase, String.toList_ofList]

end MarketScript
