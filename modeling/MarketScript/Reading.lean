import MarketScript.Resolver

/-!
# Readings

The expressions that denote something other than a literal or a name: plain values, the state of the
world, and what contracts answer.  Each family of contracts has a table of its own below its
keyword.
-/

namespace MarketScript

/-- What the answer of a contract is taken for. -/
inductive Decoding where
  | number
  /-- A number at the scale of contract fractions. -/
  | exp
  | address
  | string
deriving DecidableEq, Repr

/-- Takes an answer for what it should be. -/
def Decoding.decode (d : Decoding) (answer : Abi) : Except ScenarioError Value :=
  match d, answer with
  | number, .number n => .ok (.number (.ofInt n))
  | exp, .number n => .ok (.number ((Number.ofInt n).withScale expScale))
  | address, .address a => .ok (.address a)
  | string, .string s => .ok (.string s)
  | number, other => .error (.typeMismatch "Number" other.text)
  | exp, other => .error (.typeMismatch "Number" other.text)
  | address, other => .error (.typeMismatch "Address" other.text)
  | string, other => .error (.typeMismatch "String" other.text)

/-- What a reading gives. -/
inductive Reading where
  /-- An argument as it is. -/
  | argument (name : String)
  /-- The address of an account. -/
  | account
  | network
  | lastInvokation
  /-- A reading of a family; the argument is its event. -/
  | inFamily (family : Family) (arg : String)
  /-- The answer of the contract in one argument to a question about the addresses in others. -/
  | view (contract method : String) (about : List String) (decoding : Decoding)
  /-- Whether a market is listed. -/
  | isListed
  /-- The collateral factor of a market. -/
  | collateralFactor
  /-- All plain readings of a market. -/
  | marketInfo
deriving DecidableEq, Repr

/-- The tables of readings. -/
inductive FetchTable where
  | topLevel
  | family (family : Family)
deriving DecidableEq, Repr

namespace Reading

abbrev Shape := Definition Reading

/-- A plain reading of a contract that stands before the keyword. -/
structure Plain where
  keyword : String
  description : String
  method : String
  decoding : Decoding

/-- The plain readings of a market, in the order in which they are told together. -/
def marketReadings : List Plain := [
  ⟨"Name", "Token name", "name", .string⟩,
  ⟨"Symbol", "Token symbol", "symbol", .string⟩,
  ⟨"Decimals", "Token decimals", "decimals", .number⟩,
  ⟨"Underlying", "Underlying Erc20 address", "underlying", .address⟩,
  ⟨"Controller", "The controller this market reports to", "controller", .address⟩,
  ⟨"InterestRateModel", "The market's interest rate model", "interestRateModel", .address⟩,
  ⟨"TotalSupply", "Market tokens outstanding", "totalSupply", .number⟩,
  ⟨"ExchangeRate", "Underlying per market token, as an Exp number", "exchangeRateStored", .exp⟩,
  ⟨"ReserveFactor", "Share of interest kept as reserves, as an Exp number",
    "reserveFactorMantissa", .exp⟩,
  ⟨"Cash", "Underlying held by the market", "getCash", .number⟩]

/-- A reading that is its only argument. -/
def plain (name description : String) (resolver : Resolver) : Shape :=
  { name, description, args := [⟨"value", .token resolver, none, false, false, false⟩],
    handler := .argument "value" }

/-- The argument of a family's keyword: everything after it. -/
def restEvent (name : String) : Arg :=
  { name, source := .token .event, variadic := true }

/-- A reading of a family below its keyword. -/
def inFamilyShape (family : Family) (description : String) : Shape :=
  { name := family.keyword, description, args := [restEvent "fetcher"],
    handler := .inFamily family "fetcher" }

def literalShape : Shape :=
  { name := "Default", description := "A literal, account, alias or contract name",
    args := [{ name := "value", source := .token .literal, variadic := true }],
    handler := .argument "value", catchall := true }

/-- The readings that can stand anywhere. -/
def topLevelShapes : List Shape := [
  plain "Address" "An address: account, alias, contract name or hex literal" .address,
  plain "Number" "A raw number, e.g. `Number 5e18`" .number,
  plain "Exp" "A number scaled by 1e18, e.g. `Exp 0.5`" .exp,
  plain "Percent" "A percentage as an Exp number, e.g. `Percent 5%`" .percent,
  plain "String" "A string" .string,
  plain "Bool" "True or False" .bool,
  { name := "List", description := "Resolve each element, e.g. `List (Address Geoff) 5`",
    args := [{ name := "value", source := .token .value, mapped := true }],
    handler := .argument "value" },
  { name := "Account", description := "The address of a named account",
    args := [{ name := "name", source := .token .string }], handler := .account },
  { name := "Network", description := "The configured network name", args := [],
    handler := .network },
  { name := "LastInvokation", description := "The most recent recorded invokation", args := [],
    handler := .lastInvokation },
  inFamilyShape .controller "Controller values, e.g. `Controller CloseFactor`",
  inFamilyShape .market "Market values, e.g. `PToken pZRX ExchangeRate`",
  inFamilyShape .token "Token values, e.g. `Erc20 ZRX TokenBalance Geoff`",
  inFamilyShape .registry "Registry values, e.g. `Registry Admin`",
  inFamilyShape .rateModel
    "Interest rate model values, e.g. `InterestRateModel IRM BorrowRate`",
  literalShape]

def controllerArg : Arg := { name := "controller", source := .implicit World.controller }

def registryArg : Arg := { name := "registry", source := .implicit World.registry }

def marketArg : Arg := { name := "pToken", source := .token .market }

def tokenArg : Arg := { name := "token", source := .token .token }

def modelArg : Arg := { name := "model", source := .token .rateModel }

def addressArg (name : String) : Arg := { name, source := .token .address }

/-- A reading of the controller. -/
def ofController (name description method : String) (decoding : Decoding) : Shape :=
  { name, description, args := [controllerArg],
    handler := .view "controller" method [] decoding }

def controllerShapes : List Shape := [
  { name := "Address", description := "The controller's address", args := [controllerArg],
    handler := .argument "controller" },
  ofController "Admin" "The controller's admin" "admin" .address,
  ofController "PendingAdmin" "The nominated admin, or the zero address" "pendingAdmin" .address,
  ofController "CloseFactor" "The close factor as an Exp number" "closeFactorMantissa" .exp,
  { name := "CollateralFactor",
    description := "A market's collateral factor, e.g. `Controller CollateralFactor pZRX`",
    args := [controllerArg, marketArg], handler := .collateralFactor },
  { name := "IsListed",
    description := "Whether a market is listed, e.g. `Controller IsListed pZRX`",
    args := [controllerArg, marketArg], handler := .isListed }]

def marketShapes : List Shape :=
  { name := "Address", description := "The market's address", args := [marketArg],
    handler := .argument "pToken", keywordAt := 1 } ::
  marketReadings.map (fun r =>
    { name := r.keyword, description := r.description, args := [marketArg],
      handler := .view "pToken" r.method [] r.decoding, keywordAt := 1 }) ++
  [{ name := "TokenBalance",
     description := "Market tokens held by an address, e.g. `PToken pZRX TokenBalance Geoff`",
     args := [marketArg, addressArg "owner"],
     handler := .view "pToken" "balanceOf" ["owner"] .number, keywordAt := 1 },
   { name := "Info", description := "Every market reading at once", args := [marketArg],
     handler := .marketInfo, keywordAt := 1 }]

/-- A reading of a token, about the addresses in further arguments. -/
def ofToken (name description method : String) (about : List String) (decoding : Decoding) :
    Shape :=
  { name, description, args := tokenArg :: about.map addressArg,
    handler := .view "token" method about decoding, keywordAt := 1 }

def tokenShapes : List Shape := [
  { name := "Address", description := "The token's address", args := [tokenArg],
    handler := .argument "token", keywordAt := 1 },
  ofToken "Name" "Token name" "name" [] .string,
  ofToken "Symbol" "Token symbol" "symbol" [] .string,
  ofToken "Decimals" "Token decimals" "decimals" [] .number,
  ofToken "TotalSupply" "Tokens outstanding" "totalSupply" [] .number,
  ofToken "TokenBalance" "Tokens held by an address, e.g. `Erc20 ZRX TokenBalance Geoff`"
    "balanceOf" ["owner"] .number,
  ofToken "Allowance" "Approved amount, e.g. `Erc20 ZRX Allowance Geoff pZRX`"
    "allowance" ["owner", "spender"] .number]

def registryShapes : List Shape := [
  { name := "Address", description := "The registry's address", args := [registryArg],
    handler := .argument "registry" },
  { name := "Admin", description := "The registry's admin", args := [registryArg],
    handler := .view "registry" "admin" [] .address }]

def rateModelShapes : List Shape := [
  { name := "Address", description := "The model's address", args := [modelArg],
    handler := .argument "model", keywordAt := 1 },
  { name := "BorrowRate", description := "Borrow rate per block, as an Exp number",
    args := [modelArg], handler := .view "model" "getBorrowRate" [] .exp, keywordAt := 1 }]

end Reading

/-- The shapes of a table. -/
def FetchTable.shapes : FetchTable → List Reading.Shape
  | topLevel => Reading.topLevelShapes
  | family .controller => Reading.controllerShapes
  | family .market => Reading.marketShapes
  | family .token => Reading.tokenShapes
  | family .registry => Reading.registryShapes
  | family .rateModel => Reading.rateModelShapes

namespace Scene

/-- What the last invokation came to. -/
def lastInvokation (s : Scene) : Value :=
  match s.world.lastInvokation with
  | none => .nothing
  | some i =>
    .map [("description", .string i.description), ("success", .bool i.succeeded),
      match i.outcome with
      | .ok v => ("value", v)
      | .error e => ("error", .string e.message)]

/-- The address of an account that the argument names. -/
def accountAddress (s : Scene) (args : Args) : Except ScenarioError Value := do
  let name ← args.string "name"
  match s.world.account? name with
  | some a => return .address a.address
  | none => throw (.lookup name ["accounts"])

/-- Whether a market is listed, and its collateral factor. -/
def marketOf (s : Scene) (args : Args) : Except ScenarioError (Value × Value) := do
  let controller ← args.address "controller"
  let market ← args.address "pToken"
  match Value.ofAbi (← s.view controller "markets" [.address market]) with
  | .list [listed, factor] => return (listed, factor)
  | other => throw (.typeMismatch "market tuple" other.text)

/-- The plain readings of a market, each under its keyword. -/
def marketInfo (s : Scene) (market : Address) : Except ScenarioError Value := do
  return .map (← Reading.marketReadings.mapM fun r => do
    return (r.keyword, ← r.decoding.decode (← s.view market r.method [])))

/-- The answer of a contract to a question about addresses. -/
def viewArgs (s : Scene) (args : Args) (contract method : String) (about : List String)
    (decoding : Decoding) : Except ScenarioError Value := do
  let about ← about.mapM fun name => do return Abi.address (← args.address name)
  decoding.decode (← s.view (← args.address contract) method about)

/-- What a reading gives; `fetch` makes the readings of a family. -/
def read (fetch : FetchTable → Event → Eval Value) (s : Scene) (r : Reading) (args : Args) :
    Eval Value :=
  match r with
  | .argument name => Eval.ofExcept (args.get name)
  | .account => Eval.ofExcept (s.accountAddress args)
  | .network => pure (.string s.world.settings.network)
  | .lastInvokation => pure s.lastInvokation
  | .inFamily family arg => do fetch (.family family) (← Eval.ofExcept (args.event arg))
  | .view contract method about decoding =>
    Eval.ofExcept (s.viewArgs args contract method about decoding)
  | .isListed => Eval.ofExcept do
    let (listed, _) ← s.marketOf args
    let _ ← listed.asBool
    return listed
  | .collateralFactor => Eval.ofExcept do
    let (_, factor) ← s.marketOf args
    return .number ((← factor.asNumber).withScale expScale)
  | .marketInfo => Eval.ofExcept do s.marketInfo (← args.address "pToken")

end Scene

/-- What can be asked in a scene. -/
inductive Query where
  /-- What an expression denotes. -/
  | value (e : Event)
  /-- What a reading of a table gives. -/
  | fetch (table : FetchTable) (e : Event)

/-- Answers a query with the help of the answers to others. -/
def Query.step (ask : Query → Eval Value) (s : Scene) : Query → Eval Value
  | value e => s.valueOf (fun e => ask (fetch .topLevel e)) e
  | fetch table e =>
    dispatchFetch (Resolver.run (fun e => ask (value e)) s.world) s.world
      (s.read fun table e => ask (fetch table e)) table.shapes e

/-- Answers a query with at most the given number of queries within each other. -/
def Scene.answer (s : Scene) : (depth : Nat) → Query → Eval Value
  | 0, _ => Eval.exhausted
  | depth + 1, q => q.step (s.answer depth) s

/-- How many queries and commands within each other an event can ask for. -/
def Event.depth (e : Event) : Nat := 4 * e.size + 4

namespace Scene

/-- What an expression is where an argument of some kind is asked for. -/
def resolve (s : Scene) (r : Resolver) (e : Event) : Except ScenarioError Value :=
  (r.run (fun e => s.answer e.depth (.value e)) s.world e).answerOr (.unresolvedValue e.text)

/-- What a reading gives. -/
def fetch (s : Scene) (e : Event) : Except ScenarioError Value :=
  (s.answer e.depth (.fetch .topLevel e)).answerOr (.unresolvedValue e.text)

end Scene

end MarketScript
