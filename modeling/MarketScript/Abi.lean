import MarketScript.Address
import MarketScript.Json
import MarketScript.Text.Quoted

/-!
# Contract values

What contracts take as arguments and give back: whole numbers, texts, truth values, addresses,
arrays of these, and the unit.
-/

namespace MarketScript

/-- An argument or a result of a contract method. -/
inductive Abi where
  | number (value : Int)
  | string (value : String)
  | bool (value : Bool)
  | address (value : Address)
  | array (elements : List Abi)
  | unit
deriving Inhabited

/-- How a truth value is written. -/
def boolText (b : Bool) : String := if b then "true" else "false"

namespace Abi

mutual

/-- A contract value as it stands in the description of a call. -/
def text : Abi → String
  | number value => toString value
  | string value => quotedText value
  | bool value => boolText value
  | address value => value.text
  | array elements => "[" ++ String.intercalate "," (texts elements) ++ "]"
  | unit => "()"

/-- The texts of several values. -/
def texts : List Abi → List String
  | [] => []
  | a :: as => a.text :: texts as

end

mutual

/-- A contract value in a report: numbers and addresses as strings, the unit as null. -/
def toJson : Abi → Json
  | number value => .string (toString value)
  | string value => .string value
  | bool value => .bool value
  | address value => .string value.text
  | array elements => .array (toJsons elements)
  | unit => .null

/-- The reports of several values. -/
def toJsons : List Abi → List Json
  | [] => []
  | a :: as => a.toJson :: toJsons as

end

def asNumber? : Abi → Option Int
  | number value => some value
  | _ => none

def asString? : Abi → Option String
  | string value => some value
  | _ => none

def asBool? : Abi → Option Bool
  | bool value => some value
  | _ => none

def asAddress? : Abi → Option Address
  | address value => some value
  | _ => none

end Abi

/-- Something that a contract reports during a transaction. -/
structure Log where
  /-- The contract that reports. -/
  source : Address
  event : String
  fields : List (String × Abi)

/-- The value of the first field with a name. -/
def Log.field? (log : Log) (name : String) : Option Abi :=
  (log.fields.find? (·.1 == name)).map (·.2)

/-- What a transaction did. -/
structure Receipt where
  txHash : String
  sender : Address
  /-- The contract that a message went to. -/
  target : Option Address
  /-- The contract that a deployment made. -/
  contractAddress : Option Address
  returnValue : Abi
  logs : List Log

/-- The first log with a given event name. -/
def Receipt.log? (receipt : Receipt) (event : String) : Option Log :=
  receipt.logs.find? (·.event == event)

end MarketScript
