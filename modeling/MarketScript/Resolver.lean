import MarketScript.Dispatch
import MarketScript.Family

/-!
# Resolving arguments

What an expression means where an argument of a certain kind is asked for.  The kinds other than
`Resolver.value` are told in terms of that one, which `value` stands for below.
-/

namespace MarketScript

namespace Scene

/-- What an expression denotes: a quoted text denotes itself, a word a literal, a name or a reading
    without arguments, an empty list nothing, and any other list a reading, which `fetch` makes. -/
def valueOf (fetch : Event → Eval Value) (s : Scene) (e : Event) : Eval Value :=
  match e.unwrapSingle with
  | .quoted text => pure (.string text)
  | .word w =>
    match s.world.resolveWord? w with
    | some v => pure v
    | none => do
      match ← (fetch (.list [.word w])).attempt with
      | .ok v => return v
      | .error (.noMatchingCommand _ _ _) => throw (.unresolvedValue w)
      | .error error => throw error
  | .list [] => pure .nothing
  | nested => fetch nested

end Scene

namespace Resolver

/-- A literal or a name. -/
def literalOf (w : World) (e : Event) : Except ScenarioError Value :=
  match e.unwrapSingle with
  | .quoted text => .ok (.string text)
  | .word word =>
    match w.resolveWord? word with
    | some v => .ok v
    | none => .error (.unresolvedValue word)
  | nested => .error (.unresolvedValue nested.text)

/-- The decimal that an expression is the numeral of. -/
def decimalOf? (e : Event) : Option Decimal := e.unwrapSingle.asWord?.bind Decimal.ofString?

/-- The fraction that an expression gives in percent, with or without the sign. -/
def percentOf? (e : Event) : Option Decimal := do
  let word ← e.unwrapSingle.asWord?
  if word.toList.getLast? == some '%' then Decimal.ofString? word
  else (Decimal.ofString? word).map (·.scaleDown 2)

section

variable (value : Event → Eval Value) (w : World)

def numberOf (e : Event) : Eval Value := do
  let v ← value e
  let _ ← Eval.ofExcept v.asNumber
  return v

/-- A word or a quoted text is a text by itself. -/
def stringOf (e : Event) : Eval Value :=
  match e.unwrapSingle with
  | .quoted text | .word text => pure (.string text)
  | nested => do
    let v ← value nested
    let _ ← Eval.ofExcept v.asString
    return v

def boolOf (e : Event) : Eval Value := do
  let v ← value e
  let _ ← Eval.ofExcept v.asBool
  return v

/-- An address; the word `Zero` is the zero address here and never the number. -/
def addressOf (e : Event) : Eval Address :=
  match e.unwrapSingle with
  | .word word =>
    if word = "Zero" then pure .zero
    else
      match w.resolveWord? word with
      | some v => Eval.ofExcept v.addressIn
      | none => do Eval.ofExcept (← value (.word word)).addressIn
  | nested => do Eval.ofExcept (← value nested).addressIn

/-- The address of a contract that has a role: by its name in the role, or by any address. -/
def contractOf (family : Family) (e : Event) : Eval Value := do
  let inner := e.unwrapSingle
  let indexed := inner.asWord?.bind fun name => w.index.get? [family.shelf, name, "address"]
  let address ←
    match indexed with
    | some v => Eval.ofExcept v.addressIn
    | none => addressOf value w inner
  let h ← Eval.ofExcept (w.contract address)
  if family.kinds.contains h.kind then return .address address
  else throw (.typeMismatch family.keyword s!"{h.name} ({h.kind})")

/-- Resolves an expression. -/
def run (r : Resolver) (e : Event) : Eval Value :=
  match r with
  | .value => value e
  | .literal => Eval.ofExcept (literalOf w e)
  | .event => pure (.event e.unwrapSingle)
  | .number => numberOf value e
  | .exp =>
    match decimalOf? e with
    | some d => pure (.number (.exp d))
    | none => numberOf value e
  | .percent =>
    match percentOf? e with
    | some d => pure (.number (.exp d))
    | none => numberOf value e
  | .string => stringOf value e
  | .bool => boolOf value e
  | .address => do return .address (← addressOf value w e)
  | .market => contractOf value w .market e
  | .token => contractOf value w .token e
  | .rateModel => contractOf value w .rateModel e

end

end Resolver

end MarketScript
