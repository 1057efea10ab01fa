import MarketScript.Index
import MarketScript.Invokation
import MarketScript.Manifest.Basic

/-!
# Worlds

Everything that a script can refer to: accounts, aliases, contracts by name, settings, and the log
of what was done.  A command makes a new world of an old one, so a command that fails leaves the old
one as it was.
-/

namespace MarketScript

/-- A named account. -/
structure Account where
  name : String
  address : Address
deriving DecidableEq

namespace Account

/-- The names of the accounts that every world has. -/
def defaultNames : List String :=
  ["Admin", "Root", "Geoff", "Torrey", "Coburn", "Jared", "Robert", "Bob"]

/-- The account of a name that every world has; `Root` is another name of `Admin`. -/
def wellKnown (name : String) : Account :=
  ⟨name, .ofAccount (if sameWord name "Root" then "Admin" else name)⟩

def toJson (a : Account) : Json :=
  .ofMembers [("name", .string a.name), ("address", .string a.address.text)]

end Account

/-- What a world knows of a contract. -/
structure Handle where
  name : String
  kind : String
  address : Address
deriving DecidableEq

namespace Handle

/-- What deployed contracts are indexed with: name, address, kind, description and further
    fields. -/
def data (h : Handle) (description : String) (fields : List (String × Value)) : Value :=
  .map ([("name", .string h.name), ("address", .address h.address), ("contract", .string h.kind),
    ("description", .string description)] ++ fields)

/-- The description of a call of a method. -/
def callText (h : Handle) (method : String) (args : List Abi) : String :=
  s!"{h.name}.{method}(" ++ String.intercalate ", " (args.map Abi.text) ++ ")"

end Handle

/-- How commands are carried out. -/
structure Settings where
  network : String := "development"
  dryRun : Bool := false
  /-- Failed invokations are logged instead of being errors. -/
  allowFailures : Bool := false
  defaultFrom : String := "Admin"
  /-- Names for addresses, as they were given, under their small-letter forms. -/
  aliases : Store String (String × Address) := .empty

namespace Settings

def alias? (s : Settings) (name : String) : Option Address :=
  (s.aliases.get? (foldCase name)).map (·.2)

def setAlias (s : Settings) (name : String) (address : Address) : Settings :=
  { s with aliases := s.aliases.insert (foldCase name) (name, address) }

/-- The aliases as they were given, in the order of their small-letter forms. -/
def aliasList (s : Settings) : List (String × Address) := s.aliases.values

end Settings

/-- One entry of the log of a run. -/
structure Action where
  description : String
  invokation : Option (Invokation Value) := none
  /-- The place of the line of the transcript that announced the entry.  No two entries made in one
      run of the transcript have the same place, so it tells them apart. -/
  place : Nat

/-- An action in a report. -/
def Action.toJson (a : Action) : Json :=
  .ofMembers [("description", .string a.description),
    ("invokation", (a.invokation.map Invokation.toJson).getD .null)]

/-- The state of a run. -/
structure World where
  /-- The name of the run in reports. -/
  runId : String
  accounts : List Account
  /-- The contracts by their addresses. -/
  contracts : Store Address Handle := .empty
  /-- The contracts by their names. -/
  index : ContractIndex := {}
  settings : Settings := {}
  actions : List Action := []
  lastInvokation : Option (Invokation Value) := none

namespace World

/-- The accounts with one more, which takes the place of any other of its name. -/
def addAccount (accounts : List Account) (account : Account) : List Account :=
  accounts.filter (fun a => ! sameWord a.name account.name) ++ [account]

/-- The address in an entry of a manifest. -/
def manifestAddress (table name text : String) : Except ScenarioError Address :=
  match Address.ofString? text with
  | some a => .ok a
  | none => .error (.manifest (.badAddress table name text))

/-- The world at the start of a run that a manifest sets up. -/
def ofManifest (runId : String) (m : Manifest) : Except ScenarioError World := do
  let accounts ← m.accounts.toList.foldlM (fun accounts (name, text) => do
    return addAccount accounts ⟨name, ← manifestAddress "accounts" name text⟩)
    (Account.defaultNames.map Account.wellKnown)
  let settings ← m.aliases.toList.foldlM (fun (settings : Settings) (name, text) => do
    return settings.setAlias name (← manifestAddress "aliases" name text))
    { network := m.network, dryRun := m.dryRun, defaultFrom := m.defaultFrom }
  return { runId, accounts, settings }

/-- The account of a name. -/
def account? (w : World) (name : String) : Option Account :=
  w.accounts.find? fun a => sameWord a.name name

/-- The address of an account or an alias. -/
def namedAddress? (w : World) (name : String) : Option Address :=
  ((w.account? name).map (·.address)).or (w.settings.alias? name)

/-- The best name of an address: of an account, of a contract, or its digits. -/
def nameOf (w : World) (address : Address) : String :=
  match w.accounts.find? (·.address == address) with
  | some a => a.name
  | none =>
    match w.contracts.get? address with
    | some h => h.name
    | none => address.text

/-- Who sends what a script asks for without saying from whom. -/
def defaultFrom (w : World) : Except ScenarioError Address :=
  let name := w.settings.defaultFrom
  match (w.namedAddress? name).or (Address.ofString? name) with
  | some a => .ok a
  | none => .error (.lookup name ["accounts", "aliases"])

/-- The contract at an address. -/
def contract (w : World) (address : Address) : Except ScenarioError Handle :=
  match w.contracts.get? address with
  | some h => .ok h
  | none => .error (.lookup address.text ["contracts by address"])

/-- The value in the index under the first of several paths that has one. -/
def lookup (w : World) (name : String) (paths : List (List String)) : Except ScenarioError Value :=
  match w.index.firstMatch paths with
  | .ok v => .ok v
  | .error tried => .error (.lookup name tried)

/-- The address that the index has under a path. -/
def indexedAddress (w : World) (name : String) (path : List String) : Except ScenarioError Value := do
  return .address (← (← w.lookup name [path]).addressIn)

/-- The controller that was bound last. -/
def controller (w : World) : Except ScenarioError Value := w.indexedAddress "Controller" ["Controller"]

/-- The registry that was bound last. -/
def registry (w : World) : Except ScenarioError Value := w.indexedAddress "Registry" ["Registry"]

/-- The registry that was bound last, or the zero address. -/
def registryOrZero (w : World) : Except ScenarioError Value :=
  match w.registry with
  | .ok v => .ok v
  | .error _ => .ok (.address .zero)

/-- What a name means: an account, an alias or a contract, in this order. -/
def lookupName? (w : World) (name : String) : Option Value :=
  match w.namedAddress? name with
  | some a => some (.address a)
  | none => (w.index.firstMatch [["Contracts", name], [name, "address"]]).toOption

/-- What a word means: a literal or a name. -/
def resolveWord? (w : World) (word : String) : Option Value :=
  (Value.ofLiteral? word).or (w.lookupName? word)

def withSettings (w : World) (update : Settings → Settings) : World :=
  { w with settings := update w.settings }

def withAlias (w : World) (name : String) (address : Address) : World :=
  w.withSettings (·.setAlias name address)

/-- The world with a contract: its address under its name, its data under further paths. -/
def register (w : World) (h : Handle) (paths : List (List String)) (data : Value) : World :=
  let index := w.index.insert ["Contracts", h.name] (.address h.address)
  { w with contracts := w.contracts.insert h.address h,
           index := paths.foldl (·.insert · data) index }

/-- Whether two worlds of a run have the same log, none of them having had an entry that the other
    has not. -/
def sharesLog (a b : World) : Bool :=
  a.actions.getLast?.map (·.place) == b.actions.getLast?.map (·.place)

/-- A world in a report. -/
def toJson (w : World) : Json :=
  .ofMembers [
    ("run_id", .string w.runId),
    ("network", .string w.settings.network),
    ("dry_run", .bool w.settings.dryRun),
    ("accounts", .array (w.accounts.map Account.toJson)),
    ("aliases", .ofMembers (w.settings.aliasList.map fun (name, a) => (name, .string a.text))),
    ("contracts", w.index.toJson),
    ("actions", .array (w.actions.map Action.toJson))]

end World

end MarketScript
