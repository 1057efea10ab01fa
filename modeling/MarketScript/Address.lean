import MarketScript.Sha256
import MarketScript.Text.Digit
import MarketScript.Text.Fold

/-!
# Addresses

The addresses of accounts and contracts: twenty bytes, written as `0x` and forty digits of base
sixteen in small letters.
-/

namespace MarketScript

/-- The address of an account or of a contract. -/
structure Address where
  bits : BitVec 160
deriving DecidableEq, Repr, Inhabited

namespace Address

instance : Ord Address := ⟨compareOn bits⟩

instance : Std.TransOrd Address := inferInstanceAs (Std.TransCmp (compareOn bits))

instance : Std.LawfulEqOrd Address where
  compare_self {a} := show compare a.bits a.bits = .eq from Std.ReflCmp.compare_self
  eq_of_compare {a b} h := by
    have h : compare a.bits b.bits = .eq := h
    cases a; cases b
    cases Std.LawfulEqCmp.eq_of_compare h
    rfl

/-- The address that stands for none. -/
def zero : Address := ⟨0⟩

def isZero (a : Address) : Bool := a == zero

/-- The forty digits of an address. -/
def digits (a : Address) : List Char :=
  let ds := Nat.toDigits 16 a.bits.toNat
  List.replicate (40 - ds.length) '0' ++ ds

/-- The written form of an address. -/
def text (a : Address) : String := String.ofList ('0' :: 'x' :: a.digits)

/-- Reads an address: `0x` or `0X` and forty digits of either case. -/
def ofChars? : List Char → Option Address
  | '0' :: 'x' :: ds | '0' :: 'X' :: ds =>
    if ds.length = 40 && ds.all (hexDigit? · |>.isSome) then some ⟨BitVec.ofNat 160 (numeral 16 ds)⟩
    else none
  | _ => none

/-- Reads an address. -/
def ofString? (text : String) : Option Address := ofChars? text.toList

/-- The twenty bytes of an address, the highest first. -/
def bytes (a : Address) : List UInt8 := Sha256.bigEndian 20 a.bits.toNat

/-- The address drawn from a seed: the last twenty bytes of its hash. -/
def derive (seed : List UInt8) : Address := ⟨BitVec.ofNat 160 (Sha256.hash seed)⟩

/-- The address of the account of a given name, whatever the case of its letters. -/
def ofAccount (name : String) : Address :=
  derive ("account:" ++ foldCase name).toUTF8.data.toList

end Address

end MarketScript
