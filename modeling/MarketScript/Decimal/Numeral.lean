import MarketScript.Decimal.Basic
import MarketScript.Text.Blank
import MarketScript.Text.Digit

/-!
# Reading decimals

A decimal numeral is an optional sign and digits with an optional point, an optional exponent and
an optional percent sign at the end.  After `0x` or `0X` it is whole and in base sixteen.  Blanks
around it are left out.
-/

namespace MarketScript.Decimal

/-- The largest exponent a numeral may have, of either sign. -/
def exponentLimit : Int64 := 512

/-- The text without a sign, and whether the sign was a minus. -/
def splitSign : List Char → Bool × List Char
  | '-' :: cs => (true, cs)
  | '+' :: cs => (false, cs)
  | cs => (false, cs)

/-- A text cut at the first character of a class, without that character. -/
def splitAtFirst (p : Char → Bool) (cs : List Char) : Option (List Char × List Char) :=
  match cs.dropWhile (! p ·) with
  | [] => none
  | _ :: after => some (cs.takeWhile (! p ·), after)

/-- Reads an exponent: a whole number with an optional sign that fits in a word of 64 bits. -/
def exponent? (cs : List Char) : Option Int64 :=
  let (negative, ds) := splitSign cs
  if ds.isEmpty || ! ds.all Char.isDigit then none
  else
    let n : Int := if negative then - numeral 10 ds else numeral 10 ds
    if Int64.minValue.toInt ≤ n ∧ n ≤ Int64.maxValue.toInt then some (Int64.ofInt n) else none

/-- Reads the digits of a whole number in base sixteen.  Underscores may separate digits, and a
    sign of its own may come first; a sign that another follows is taken for a digit. -/
def hexInteger? (cs : List Char) : Option Int :=
  let (negative, cs) : Bool × List Char :=
    match cs with
    | '-' :: '+' :: _ => (true, cs)
    | '-' :: rest => (true, rest)
    | _ => (false, cs)
  let cs :=
    match cs with
    | '+' :: '+' :: _ => cs
    | '+' :: rest => rest
    | _ => cs
  if cs.isEmpty || cs.head? == some '_' then none
  else
    let ds := cs.filter (· != '_')
    if ds.all (hexDigit? · |>.isSome) then
      some (if negative then - numeral 16 ds else numeral 16 ds)
    else none

/-- The low half of a word of 64 bits. -/
def lowHalf (n : Int) : Nat := (n % 0x100000000).toNat

/-- The decimal places of a numeral with so many digits after its point.  The exponent is turned round
    in its word and added to them, and a percent sign stands for two more. -/
def placesOf (digits : Nat) (exponent : Int64) (percent : Bool) : Int :=
  digits + (-exponent).toInt + if percent then 2 else 0

/-- The number with the given digits, sign and places, where fewer places than none are zeros to
    write after the digits.  The zeros are counted in a word of 32 bits. -/
def ofDigits (negative : Bool) (ds : List Char) (places : Int) : Decimal :=
  let magnitude : Int := numeral 10 ds
  let magnitude := if places < 0 then magnitude * tenPow (lowHalf (-places)) else magnitude
  ofPlaces (if negative then - magnitude else magnitude) places.toNat

/-- A numeral of base ten taken apart at its exponent, which has been read. -/
structure Draft where
  negative : Bool
  percent : Bool
  /-- What stands before the exponent. -/
  mantissa : List Char
  exponent : Int64
deriving DecidableEq

namespace Draft

/-- The digits before and after the point, of which there must be any. -/
def digits? (d : Draft) : Option (List Char × List Char) :=
  let (whole, part) := (splitAtFirst (· == '.') d.mantissa).getD (d.mantissa, [])
  if whole.isEmpty && part.isEmpty then none
  else if (whole ++ part).all Char.isDigit then some (whole, part)
  else none

/-- Reads a numeral whose exponent is within the limit. -/
def decimal? (d : Draft) : Option Decimal :=
  if d.exponent.abs > exponentLimit then none
  else d.digits?.map fun (whole, part) =>
    ofDigits d.negative (whole ++ part) (placesOf part.length d.exponent d.percent)

end Draft

/-- A text without its sign and its percent sign. -/
structure Unsigned where
  negative : Bool
  percent : Bool
  body : List Char
deriving DecidableEq

namespace Unsigned

/-- Takes a sign off the front and a percent sign off the end. -/
def ofChars (cs : List Char) : Unsigned :=
  let percent := cs.getLast? == some '%'
  let (negative, body) := splitSign (if percent then cs.dropLast else cs)
  ⟨negative, percent, body⟩

/-- Takes a numeral of base ten apart, unless its exponent cannot be read. -/
def draft? (u : Unsigned) : Option Draft :=
  match splitAtFirst (fun c => c == 'e' || c == 'E') u.body with
  | none => some ⟨u.negative, u.percent, u.body, 0⟩
  | some (mantissa, digits) => (exponent? digits).map (⟨u.negative, u.percent, mantissa, ·⟩)

end Unsigned

/-- What follows the sign of base sixteen. -/
def hexDigits? : List Char → Option (List Char)
  | '0' :: 'x' :: ds => some ds
  | '0' :: 'X' :: ds => some ds
  | _ => none

/-- Reads a numeral without blanks around it. -/
def ofChars? (cs : List Char) : Option Decimal :=
  let u := Unsigned.ofChars cs
  match hexDigits? u.body with
  | some ds =>
    if u.percent then none
    else (hexInteger? ds).map fun n => ofInt (if u.negative then - n else n)
  | none => u.draft?.bind Draft.decimal?

/-- Reads a numeral. -/
def ofString? (text : String) : Option Decimal := ofChars? (trimBlanks text.toList)

end MarketScript.Decimal
