/-!
# Blank characters

The blanks of a script are the characters with the Unicode property `White_Space`.  The lexer
separates words at them and a numeral is read without those at its two ends.
-/

namespace MarketScript

/-- The Unicode property `White_Space`. -/
def isBlank (c : Char) : Bool :=
  let n := c.toNat
  (9 ≤ n && n ≤ 13) || n == 0x20 || n == 0x85 || n == 0xA0 || n == 0x1680 ||
    (0x2000 ≤ n && n ≤ 0x200A) || n == 0x2028 || n == 0x2029 || n == 0x202F || n == 0x205F ||
    n == 0x3000

/-- Every blank of the core library is a blank here. -/
theorem isBlank_of_isWhitespace {c : Char} (h : c.isWhitespace = true) : isBlank c = true := by
  simp only [Char.isWhitespace, Bool.or_eq_true, decide_eq_true_eq] at h
  rcases h with (((rfl | rfl) | rfl) | rfl) <;> decide

/-- The visible characters of ASCII are no blanks. -/
theorem isBlank_of_visible {c : Char} (low : 33 ≤ c.toNat) (high : c.toNat ≤ 126) :
    isBlank c = false := by
  simp only [isBlank, Bool.or_eq_false_iff, Bool.and_eq_false_iff, decide_eq_false_iff_not,
    beq_eq_false_iff_ne]
  omega

/-- The characters without the blanks before the first and after the last of the others. -/
def trimBlanks (cs : List Char) : List Char :=
  ((cs.dropWhile isBlank).reverse.dropWhile isBlank).reverse

@[simp] theorem trimBlanks_nil : trimBlanks [] = [] := rfl

/-- Text whose first and last characters are no blanks stays as it is. -/
theorem trimBlanks_of_ends {cs : List Char} (hd : cs.head?.all (! isBlank ·))
    (hl : cs.getLast?.all (! isBlank ·)) : trimBlanks cs = cs := by
  have drop (ds : List Char) (h : ds.head?.all (! isBlank ·)) : ds.dropWhile isBlank = ds := by
    cases ds with
    | nil => rfl
    | cons d ds => simp_all
  simp only [trimBlanks, drop cs hd]
  rw [drop cs.reverse (by simpa [List.head?_reverse] using hl), List.reverse_reverse]

/-- Text without blanks stays as it is. -/
theorem trimBlanks_of_plain {cs : List Char} (plain : ∀ c ∈ cs, isBlank c = false) :
    trimBlanks cs = cs := by
  refine trimBlanks_of_ends ?_ ?_ <;> rw [Option.all_eq_true]
  · intro c first
    simpa using plain c (List.mem_of_mem_head? first)
  · intro c last
    simpa using plain c (List.mem_of_getLast? last)

end MarketScript
