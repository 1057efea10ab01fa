import MarketScript.Error
import MarketScript.Manifest.Basic
import MarketScript.Manifest.Document

/-!
# Reading manifests

A manifest is a TOML document with the tables `scenario`, `accounts` and `aliases`, each of which may
be left out.  Other keys do not matter.  The addresses of all accounts are looked at before those of
the aliases; no alias may have the name of an account, whatever the case of its letters.
-/

namespace MarketScript.Manifest

/-- The error of a document that is not of the expected shape. -/
def shapeError {α : Type} (reason : String) : Except ManifestError α := .error (.malformed reason)

def asString : Toml → Except ManifestError String
  | .string s => .ok s
  | _ => shapeError "expected a string"

def asBool : Toml → Except ManifestError Bool
  | .bool b => .ok b
  | _ => shapeError "expected a boolean"

/-- An entry of a table, or a default where there is none. -/
def entryOr {α : Type} (entries : List (String × Toml)) (key : String)
    (read : Toml → Except ManifestError α) (default : α) : Except ManifestError α :=
  match entries.find? (·.1 == key) with
  | some (_, v) => read v
  | none => .ok default

/-- The keys of the `scenario` table, in the order in which a list of values gives them. -/
def sectionKeys : List String := ["network", "dry_run", "default_from", "verbose"]

/-- The entries of a value that can stand for a table.  A date or time does: it has one entry, its
    normal form, under a key of its own. -/
def tableEntries : Toml → Except ManifestError (List (String × Toml))
  | .table entries => .ok entries
  | .datetime text => .ok [("$__toml_private_datetime", .string text)]
  | _ => shapeError "expected a table"

/-- The entries of the `scenario` table; values without keys are taken in the order of the keys. -/
def sectionEntries : Toml → Except ManifestError (List (String × Toml))
  | .array values => .ok (sectionKeys.zip values)
  | value => tableEntries value

/-- A table of names for addresses. -/
def names (entries : List (String × Toml)) (key : String) :
    Except ManifestError (Store String String) :=
  match entries.find? (·.1 == key) with
  | none => .ok .empty
  | some (_, value) => do
    return .ofList (← (← tableEntries value).mapM fun (name, v) => do return (name, ← asString v))

/-- What a document says, before its addresses are looked at. -/
def ofDocument (entries : List (String × Toml)) : Except ManifestError Manifest := do
  let scenario ← entryOr entries "scenario" sectionEntries []
  let defaults : Manifest := {}
  let network ← entryOr scenario "network" asString defaults.network
  let dryRun ← entryOr scenario "dry_run" asBool defaults.dryRun
  let defaultFrom ← entryOr scenario "default_from" asString defaults.defaultFrom
  let verbose ← entryOr scenario "verbose" asBool defaults.verbose
  let accounts ← names entries "accounts"
  let aliases ← names entries "aliases"
  return { network, dryRun, defaultFrom, verbose, accounts, aliases }

/-- Whether a text is an address: `0x` or `0X` and forty digits of base sixteen. -/
def isAddressText (text : String) : Bool :=
  match text.toList with
  | '0' :: 'x' :: ds | '0' :: 'X' :: ds => ds.length == 40 && ds.all (hexDigit? · |>.isSome)
  | _ => false

/-- An entry of a table must be an address. -/
def checkAddress (table name text : String) : Except ManifestError Unit :=
  if isAddressText text then .ok () else .error (.badAddress table name text)

/-- An alias must be an address and have no account's name. -/
def checkAlias (accounts : List String) (name text : String) : Except ManifestError Unit := do
  checkAddress "aliases" name text
  if accounts.any (sameWord · name) then throw (.duplicateName name)

/-- Looks at the names and addresses of a manifest, in the order of the names. -/
def check (m : Manifest) : Except ManifestError Unit := do
  m.accounts.toList.forM fun (name, text) => checkAddress "accounts" name text
  m.aliases.toList.forM fun (name, text) => checkAlias (m.accounts.toList.map (·.1)) name text

/-- Reads a manifest. -/
def parse (text : String) : Except ManifestError Manifest := do
  match Toml.document? text with
  | none => shapeError "not a TOML document"
  | some entries =>
    let m ← ofDocument entries
    m.check
    return m

end MarketScript.Manifest
