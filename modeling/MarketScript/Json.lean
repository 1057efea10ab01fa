import MarketScript.Text.Digit

/-!
# JSON documents

The documents in which a run reports its world, and their printed form: two spaces for each level,
one member or element on a line, the members of an object in the order of their names.
-/

namespace MarketScript

/-- A JSON document.  The members of an object stand in the order of their names, each name once;
    `Json.ofMembers` builds such objects. -/
inductive Json where
  | null
  | bool (value : Bool)
  | number (value : Nat)
  | string (value : String)
  | array (elements : List Json)
  | object (members : List (String × Json))
deriving Inhabited

namespace Json

/-- Puts a member in its place; a member of the same name gives way. -/
def insertMember (name : String) (value : Json) :
    List (String × Json) → List (String × Json)
  | [] => [(name, value)]
  | (other, document) :: rest =>
    match compare name other with
    | .lt => (name, value) :: (other, document) :: rest
    | .eq => (name, value) :: rest
    | .gt => (other, document) :: insertMember name value rest

/-- The object with the given members; of two with one name the later stays. -/
def ofMembers (members : List (String × Json)) : Json :=
  object (members.foldl (fun done (name, value) => insertMember name value done) [])

/-- A text or nothing. -/
def ofOption (text : Option String) : Json := (text.map string).getD null

/-- A character inside a JSON string. -/
def escapeChar (c : Char) : List Char :=
  match c with
  | '"' => ['\\', '"']
  | '\\' => ['\\', '\\']
  | '\n' => ['\\', 'n']
  | '\r' => ['\\', 'r']
  | '\t' => ['\\', 't']
  | c =>
    if c.toNat = 8 then ['\\', 'b']
    else if c.toNat = 12 then ['\\', 'f']
    else if c.toNat < 16 then ['\\', 'u', '0', '0', '0'] ++ Nat.toDigits 16 c.toNat
    else if c.toNat < 32 then ['\\', 'u', '0', '0'] ++ Nat.toDigits 16 c.toNat
    else [c]

/-- A JSON string. -/
def quote (text : String) : String :=
  String.ofList ('"' :: text.toList.flatMap escapeChar ++ ['"'])

/-- The start of a line at a level. -/
def newLine (level : Nat) : String :=
  String.ofList ('\n' :: List.replicate (2 * level) ' ')

/-- Lines between two brackets, separated by commas; nothing stands between the brackets if there
    are no lines. -/
def block (opening closing : String) (level : Nat) (lines : List String) : String :=
  if lines.isEmpty then opening ++ closing
  else
    opening ++ newLine (level + 1) ++ String.intercalate ("," ++ newLine (level + 1)) lines ++
      newLine level ++ closing

mutual

/-- The printed form of a document that stands at a level. -/
def printAt (level : Nat) : Json → String
  | null => "null"
  | bool value => if value then "true" else "false"
  | number value => toString value
  | string value => quote value
  | array elements => block "[" "]" level (elementLines (level + 1) elements)
  | object members => block "\x7b" "\x7d" level (memberLines (level + 1) members)

/-- The printed elements of an array. -/
def elementLines (level : Nat) : List Json → List String
  | [] => []
  | e :: es => e.printAt level :: elementLines level es

/-- The printed members of an object. -/
def memberLines (level : Nat) : List (String × Json) → List String
  | [] => []
  | (name, value) :: ms =>
    (quote name ++ ": " ++ value.printAt level) :: memberLines level ms

end

/-- The printed form of a document. -/
def print (document : Json) : String := document.printAt 0

end Json

end MarketScript
