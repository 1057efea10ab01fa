import MarketScript.Manifest.Toml

/-!
# TOML documents

A document is read line by line: entries of the current table, headers of tables, and headers of
arrays of tables.  No table has two headers and no key two values.
-/

namespace MarketScript.Toml

/-- A document after some of its lines. -/
structure DocumentState where
  root : Draft := {}
  /-- The table that entries go to, and the path of its header. -/
  current : Draft := {}
  path : List String := []
  /-- The current table is an element of an array of tables. -/
  isRow : Bool := false

namespace DocumentState

/-- Puts the current table in its place. -/
def settle (s : DocumentState) : Option Draft :=
  match s.path.getLast? with
  | none => some s.current
  | some key =>
    Draft.change false (fun parent =>
      match s.isRow, parent.find? key with
      | true, none => some (parent.set key (.tables [s.current.entries]))
      | true, some (.tables rows) => some (parent.set key (.tables (s.current.entries :: rows)))
      | true, some _ => none
      | false, none => some (parent.set key s.current.toNode)
      | false, some (.table true _ _) => some (parent.set key s.current.toNode)
      | false, some _ => none) s.path.dropLast s.root

/-- The table in a given place, if a header may begin it: either none is there, or one that other
    headers only named on their way. -/
def tableFor (parent : Draft) (key : String) : Option Draft :=
  match parent.find? key with
  | none => some {}
  | some (.table true false entries) => some { entries }
  | some _ => none

/-- The table that a path leads to, where tables that are not there yet are taken as empty. -/
def tableAt : (path : List String) → Draft → Option Draft
  | [], t => some t
  | key :: path, t =>
    match t.find? key with
    | none => tableAt path { implicit := true }
    | some (.value _) => none
    | some (.tables []) => none
    | some (.tables (row :: _)) => tableAt path { entries := row }
    | some (.table implicit dotted entries) => tableAt path { implicit, dotted, entries }

/-- The header of a table. -/
def beginTable (s : DocumentState) (path : List String) : Option DocumentState := do
  let root ← s.settle
  let key ← path.getLast?
  let parent ← tableAt path.dropLast root
  let current ← tableFor parent key
  let root ← Draft.change false (fun parent => some (parent.remove key)) path.dropLast root
  return { root, current, path, isRow := false }

/-- The header of an element of an array of tables. -/
def beginRow (s : DocumentState) (path : List String) : Option DocumentState := do
  let root ← s.settle
  let key ← path.getLast?
  let parent ← tableAt path.dropLast root
  match parent.find? key with
  | none | some (.tables _) => return { root, current := {}, path, isRow := true }
  | some _ => none

end DocumentState

/-- Reads a header after its first bracket. -/
def readHeader (s : DocumentState) (cs : List Char) : Option (DocumentState × List Char) :=
  match cs with
  | '[' :: rest => do
    let (path, rest) ← readKey (skipBlanks rest)
    match rest with
    | ']' :: ']' :: rest => return (← s.beginRow path, ← endOfLine? rest)
    | _ => none
  | cs => do
    let (path, rest) ← readKey (skipBlanks cs)
    match rest with
    | ']' :: rest => return (← s.beginTable path, ← endOfLine? rest)
    | _ => none

/-- Reads an entry of the current table. -/
def readEntry (s : DocumentState) (cs : List Char) : Option (DocumentState × List Char) := do
  let (key, rest) ← readKey cs
  match rest with
  | '=' :: rest => do
    let (v, rest) ← readValue (rest.length + 1) 0 (skipBlanks rest)
    return ({ s with current := ← s.current.define key v }, ← endOfLine? rest)
  | _ => none

/-- Reads the lines of a document.  Every line takes at least one character, so a `fuel` of the
    length of the text is enough. -/
def readLines : (fuel : Nat) → DocumentState → List Char → Option DocumentState
  | 0, _, _ => none
  | fuel + 1, s, cs =>
    match skipBlanks cs with
    | [] => some s
    | '[' :: rest => do
      let (s, rest) ← readHeader s rest
      readLines fuel s rest
    | cs =>
      match endOfLine? cs with
      | some rest => readLines fuel s rest
      | none => do
        let (s, rest) ← readEntry s cs
        readLines fuel s rest

/-- Reads a document: the entries of its root table.  A byte order mark may come first. -/
def document? (text : String) : Option (List (String × Toml)) := do
  let cs := match text.toList with
    | '\uFEFF' :: rest => rest
    | cs => cs
  let s ← readLines (cs.length + 1) {} cs
  let root ← s.settle
  return ofEntries root.entries

end MarketScript.Toml
