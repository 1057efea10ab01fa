import MarketScript.Store
import MarketScript.Value

/-!
# The contract index

Data about deployed contracts under paths such as `pTokens.pZRX.address`.  The case of letters in a
path does not matter.  Data with fields stands at its path, and each field one step below it.
-/

namespace MarketScript

/-- Values under paths. -/
structure ContractIndex where
  entries : Store (List String) Value := .empty

namespace ContractIndex

instance : Inhabited ContractIndex := ⟨{}⟩

/-- A path with `A` to `Z` written small. -/
def foldPath (path : List String) : List String := path.map foldCase

/-- A path as it is written in messages. -/
def pathText (path : List String) : String := String.intercalate "." path

/-- The fields of a value, each with its path below the value's own. -/
def fieldEntries (path : List String) : Value → List (List String × Value)
  | .map fields => fields.map fun f => (path ++ [foldCase f.1], f.2)
  | _ => []

/-- The index with a value and its fields under a path. -/
def insert (index : ContractIndex) (path : List String) (value : Value) : ContractIndex :=
  let path := foldPath path
  let fields := (fieldEntries path value).foldl (fun s e => s.insert e.1 e.2) index.entries
  ⟨fields.insert path value⟩

/-- The value under a path. -/
def get? (index : ContractIndex) (path : List String) : Option Value :=
  index.entries.get? (foldPath path)

/-- The value under the first of several paths that has one, or else the paths that were tried. -/
def firstMatch (index : ContractIndex) (paths : List (List String)) : Except (List String) Value :=
  match paths.findSome? index.get? with
  | some value => .ok value
  | none => .error (paths.map pathText)

def size (index : ContractIndex) : Nat := index.entries.size

def isEmpty (index : ContractIndex) : Bool := index.size == 0

/-- Whether a value is data with fields, whose fields stand in the index on their own. -/
def isData : Value → Bool
  | .map _ => true
  | _ => false

/-- The index in a report: the values under their written paths, without those that have fields. -/
def toJson (index : ContractIndex) : Json :=
  .ofMembers ((index.entries.toList.filter (! isData ·.2)).map fun e =>
    (pathText e.1, e.2.toJson))

end ContractIndex

end MarketScript
