import MarketScript.Decimal.Numeral

/-!
# Numbers of a script

A number is the mantissa that contracts are given, with an optional scale that says how to show it.
`0.2` at scale 18 has the mantissa `200000000000000000` and is shown as `0.2e18`.
-/

namespace MarketScript

/-- The largest amount of a contract, two hundred and fifty-six bits all set, which allowances use for
    "no limit". -/
def maxUint : Int := 0xffffffffffffffffffffffffffffffffffffffffffffffffffffffffffffffff

/-- The scale of contract fractions: `10 ^ 18` stands for one. -/
def expScale : Nat := 18

/-- A mantissa and the scale at which it is shown. -/
structure Number where
  mantissa : Decimal
  scale : Option Nat := none
deriving Repr, Inhabited

namespace Number

/-- Numbers are the same when their mantissas are, whatever their scales. -/
def same (a b : Number) : Bool := a.mantissa == b.mantissa

theorem same_iff {a b : Number} : a.same b = true ↔ a.mantissa = b.mantissa := by
  simp [same]

def ofDecimal (d : Decimal) : Number := { mantissa := d }

def ofInt (n : Int) : Number := ofDecimal (.ofInt n)

def zero : Number := ofDecimal .zero

/-- The number that is `expressed` at a scale. -/
def scaled (expressed : Decimal) (scale : Nat) : Number :=
  { mantissa := expressed.scaleUp scale, scale }

/-- The number that is `expressed` at the scale of contract fractions. -/
def exp (expressed : Decimal) : Number := scaled expressed expScale

/-- The same mantissa at another scale. -/
def withScale (n : Number) (scale : Nat) : Number := { n with scale }

/-- The value that is shown: the mantissa over ten to the scale. -/
def expressed (n : Number) : Decimal := n.mantissa.scaleDown (n.scale.getD 0)

/-- The mantissa as a contract is given it. -/
def encode (n : Number) : String := n.mantissa.text

/-- The number as a reader sees it. -/
def text (n : Number) : String :=
  match n.scale with
  | none | some 0 => n.encode
  | some scale => s!"{n.expressed.text}e{scale}"

/-- Reads a numeral as a mantissa without a scale. -/
def ofString? (text : String) : Option Number := (Decimal.ofString? text).map ofDecimal

/-- Reads a mantissa that has the given scale. -/
def decode? (encoded : String) (scale : Option Nat) : Option Number :=
  (Decimal.ofString? encoded).map ({ mantissa := ·, scale })

/-- The mantissa, if it is whole. -/
def toInt? (n : Number) : Option Int := n.mantissa.toInt?

@[simp] theorem toInt?_ofInt (n : Int) : (ofInt n).toInt? = some n := rfl

end Number

end MarketScript
