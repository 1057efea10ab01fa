/-!
# Letter case

Keywords, names and index paths are compared without regard to the case of the letters `A` to
`Z`; every other character stands for itself.
-/

namespace MarketScript

/-- The text with `A` to `Z` written small. -/
def foldCase (text : String) : String :=
  String.ofList (text.toList.map Char.toLower)

/-- Two texts that differ at most in the case of the letters `A` to `Z`. -/
def sameWord (a b : String) : Bool :=
  foldCase a == foldCase b

theorem sameWord_iff {a b : String} : sameWord a b = true ↔ foldCase a = foldCase b := by
  simp [sameWord]

@[simp] theorem sameWord_self (a : String) : sameWord a a = true := by
  simp [sameWord]

theorem sameWord_comm (a b : String) : sameWord a b = sameWord b a := by
  rw [Bool.eq_iff_iff, sameWord_iff, sameWord_iff, eq_comm]

theorem sameWord_trans {a b c : String} (hab : sameWord a b = true) (hbc : sameWord b c = true) :
    sameWord a c = true := by
  rw [sameWord_iff] at *
  exact hab.trans hbc

end MarketScript
