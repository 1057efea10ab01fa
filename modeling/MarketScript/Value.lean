import MarketScript.Error
import MarketScript.Event
import MarketScript.Number

/-!
# Values

What the expressions of a script denote.  `Value.encode` gives a value to a contract and
`Value.ofAbi` takes one back.
-/

namespace MarketScript

/-- What an expression denotes. -/
inductive Value where
  | number (value : Number)
  | string (value : String)
  | bool (value : Bool)
  | address (value : Address)
  | list (elements : List Value)
  /-- Named fields in a given order. -/
  | map (fields : List (String × Value))
  /-- An expression that is yet to be given a meaning. -/
  | event (value : Event)
  | nothing
deriving Inhabited

namespace Value

/-- The name of the kind of a value. -/
def typeName : Value → String
  | number _ => "Number"
  | string _ => "String"
  | bool _ => "Bool"
  | address _ => "Address"
  | list _ => "List"
  | map _ => "Map"
  | event _ => "Event"
  | nothing => "Nothing"

mutual

/-- A value as a reader sees it. -/
def text : Value → String
  | number value => value.text
  | string value => value
  | bool value => boolText value
  | address value => value.text
  | list elements => "[" ++ String.intercalate ", " (texts elements) ++ "]"
  | map fields => "\x7b" ++ String.intercalate ", " (fieldTexts fields) ++ "\x7d"
  | event value => value.text
  | nothing => "Nothing"

/-- The texts of several values. -/
def texts : List Value → List String
  | [] => []
  | v :: vs => v.text :: texts vs

/-- The texts of several fields. -/
def fieldTexts : List (String × Value) → List String
  | [] => []
  | (name, v) :: rest => (name ++ ": " ++ v.text) :: fieldTexts rest

end

mutual

/-- Whether two values are equal; numbers are compared without their scales. -/
def same : Value → Value → Bool
  | number a, number b => a.same b
  | string a, string b => a == b
  | bool a, bool b => a == b
  | address a, address b => a == b
  | list as, list bs => sameElements as bs
  | map as, map bs => sameFields as bs
  | event a, event b => a == b
  | nothing, nothing => true
  | _, _ => false

/-- Whether two lists are equal element by element. -/
def sameElements : List Value → List Value → Bool
  | [], [] => true
  | a :: as, b :: bs => same a b && sameElements as bs
  | _, _ => false

/-- Whether two lists of fields are equal field by field. -/
def sameFields : List (String × Value) → List (String × Value) → Bool
  | [], [] => true
  | (m, a) :: as, (n, b) :: bs => m == n && same a b && sameFields as bs
  | _, _ => false

end

mutual

/-- A value in a report. -/
def toJson : Value → Json
  | number value => .string value.text
  | string value => .string value
  | bool value => .bool value
  | address value => .string value.text
  | list elements => .array (toJsons elements)
  | map fields => .ofMembers (toMembers fields)
  | event value => .string value.text
  | nothing => .null

/-- The reports of several values. -/
def toJsons : List Value → List Json
  | [] => []
  | v :: vs => v.toJson :: toJsons vs

/-- The reports of several fields. -/
def toMembers : List (String × Value) → List (String × Json)
  | [] => []
  | (name, v) :: rest => (name, v.toJson) :: toMembers rest

end

mutual

/-- A value as a contract takes it.  Only whole numbers, texts, truth values, addresses and lists
    of these can be given to contracts. -/
def encode : Value → Except ScenarioError Abi
  | number value =>
    match value.toInt? with
    | some n => .ok (.number n)
    | none => .error (.typeMismatch "integer mantissa" value.text)
  | string value => .ok (.string value)
  | bool value => .ok (.bool value)
  | address value => .ok (.address value)
  | list elements => (encodes elements).map .array
  | map _ => .error (.typeMismatch "encodable value" "Map")
  | event _ => .error (.typeMismatch "encodable value" "Event")
  | nothing => .error (.typeMismatch "encodable value" "Nothing")

/-- Several values as a contract takes them; the first that cannot be given is the error. -/
def encodes : List Value → Except ScenarioError (List Abi)
  | [] => .ok []
  | v :: vs => do
    let a ← v.encode
    let as ← encodes vs
    return a :: as

end

mutual

/-- What a contract gives back. -/
def ofAbi : Abi → Value
  | .number value => number (.ofInt value)
  | .string value => string value
  | .bool value => bool value
  | .address value => address value
  | .array elements => list (ofAbis elements)
  | .unit => nothing

/-- What a contract gives back in an array. -/
def ofAbis : List Abi → List Value
  | [] => []
  | a :: as => ofAbi a :: ofAbis as

end

/-- The error of a value that should be of another kind. -/
def mismatch (v : Value) (expected : String) : ScenarioError :=
  .typeMismatch expected s!"{v.typeName}({v.text})"

def asNumber : Value → Except ScenarioError Number
  | number value => .ok value
  | v => .error (v.mismatch "Number")

/-- The mantissa of a number, which must be whole. -/
def asInt (v : Value) : Except ScenarioError Int := do
  let n ← v.asNumber
  match n.toInt? with
  | some i => return i
  | none => throw (.typeMismatch "integer" n.text)

def asAddress : Value → Except ScenarioError Address
  | address value => .ok value
  | v => .error (v.mismatch "Address")

def asString : Value → Except ScenarioError String
  | string value => .ok value
  | v => .error (v.mismatch "String")

def asBool : Value → Except ScenarioError Bool
  | bool value => .ok value
  | v => .error (v.mismatch "Bool")

def asList : Value → Except ScenarioError (List Value)
  | list elements => .ok elements
  | v => .error (v.mismatch "List")

def asEvent : Value → Except ScenarioError Event
  | event value => .ok value
  | v => .error (v.mismatch "Event")

/-- The first field of a map with a name, whatever the case of its letters. -/
def field? (v : Value) (name : String) : Option Value :=
  match v with
  | map fields => (fields.find? fun f => sameWord f.1 name).map (·.2)
  | _ => none

def isNothing : Value → Bool
  | nothing => true
  | _ => false

/-- The address that a value stands for: itself, or the `address` field of contract data. -/
def addressIn (v : Value) : Except ScenarioError Address :=
  match v with
  | map _ =>
    match v.field? "address" with
    | some entry => entry.asAddress
    | none => .error (.typeMismatch "Address" v.text)
  | v => v.asAddress

/-- What a word means by itself: a truth value, one of the words `Zero`, `Max` and `Nothing`, an
    address, or a number. -/
def ofLiteral? (word : String) : Option Value :=
  if sameWord word "true" then some (bool true)
  else if sameWord word "false" then some (bool false)
  else if word = "Zero" then some (number .zero)
  else if word = "Max" then some (number (.ofInt maxUint))
  else if word = "Nothing" then some nothing
  else
    match Address.ofString? word with
    | some a => some (address a)
    | none => (Number.ofString? word).map number

end Value

end MarketScript
