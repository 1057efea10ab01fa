/-!
# Digits

Numerals as lists of digit characters, the highest first.
-/

namespace MarketScript

/-- The value of a digit of base sixteen, of either case. -/
def hexDigit? (c : Char) : Option Nat :=
  if c.isDigit then some (c.toNat - 48)
  else if 'a' ≤ c ∧ c ≤ 'f' then some (c.toNat - 87)
  else if 'A' ≤ c ∧ c ≤ 'F' then some (c.toNat - 55)
  else none

/-- The value of a numeral: each digit counts for the base times as much as the one after it.
    A character that is no digit counts as zero. -/
def numeral (base : Nat) (cs : List Char) : Nat :=
  cs.foldl (fun n c => n * base + (hexDigit? c).getD 0) 0

@[simp] theorem numeral_nil (base : Nat) : numeral base [] = 0 := rfl

/-- One more digit at the end. -/
theorem numeral_concat (base : Nat) (cs : List Char) (c : Char) :
    numeral base (cs ++ [c]) = numeral base cs * base + (hexDigit? c).getD 0 := by
  simp [numeral]

/-- A digit of base sixteen is less than sixteen. -/
theorem hexDigit?_lt {c : Char} {n : Nat} (h : hexDigit? c = some n) : n < 16 := by
  unfold hexDigit? at h
  split at h
  · rename_i hc
    have : c.toNat ≤ 57 := by
      have := (Char.isDigit_iff_toNat.mp hc).2
      simpa using this
    simp at h; omega
  · split at h
    · rename_i hc
      have : c.toNat ≤ 102 := by simpa [Char.le_def, UInt32.le_iff_toNat_le] using hc.2
      simp at h; omega
    · split at h
      · rename_i hc
        have : c.toNat ≤ 70 := by simpa [Char.le_def, UInt32.le_iff_toNat_le] using hc.2
        simp at h; omega
      · simp at h

end MarketScript
