import MarketScript.Reading

/-!
# Commands

What the commands of a script do: to the world itself, to the chain through the families of
contracts, and to other commands that they carry out.  Every command that succeeds puts one action
into the log.
-/

namespace MarketScript

/-- The tables of commands. -/
inductive CommandTable where
  | topLevel
  /-- The conditions that can be asserted. -/
  | assertions
  /-- The commands of a family. -/
  | family (family : Family)
  /-- The ways to bind a contract of a family. -/
  | deploy (family : Family)
deriving DecidableEq, Repr

/-- What a command does. -/
inductive Command where
  | read
  | print
  | nameAddress
  /-- Carries out a command as another sender. -/
  | fromAccount
  /-- Carries out a command with dry runs on. -/
  | dryRun
  | allowFailures
  | inspect
  /-- Carries out a command of another table; the argument is its event. -/
  | inTable (table : CommandTable) (arg : String)
  | assertEqual
  | assertCondition (expected : Bool)
  | assertSuccess
  | assertFailure
  | assertRevert
  | deployController (kind : String)
  | deployRegistry
  | deployRateModel
  | deployToken
  | deployMarket (kind : String)
  /-- Binds a contract that is already on the chain. -/
  | bindExisting (family : Family) (nameArg : String)
  | setCloseFactor
  | supportMarket
  | setCollateralFactor
  | setPendingAdmin
  | acceptAdmin
  | mint
  | redeem
  /-- A message to a token about an amount and another account. -/
  | tokenMessage (method verb counterparty : String)
deriving DecidableEq, Repr

namespace Command

abbrev Shape := Definition Command

/-- The argument of a command that takes everything after its keyword. -/
def rest (name : String) : Arg := Reading.restEvent name

def arg (name : String) (resolver : Resolver) : Arg := { name, source := .token resolver }

/-- The commands of a family below its keyword. -/
def inFamily (family : Family) (description : String) : Shape :=
  { name := family.keyword, description, args := [rest "command"],
    handler := .inTable (.family family) "command" }

/-- The commands that can stand anywhere. -/
def topLevelShapes : List Shape := [
  { name := "Read", description := "Resolve a value and print it, e.g. `Read (Controller CloseFactor)`",
    args := [{ name := "value", source := .token .value, variadic := true }], handler := .read },
  { name := "Print", description := "Print a message", args := [arg "message" .string],
    handler := .print },
  { name := "Alias", description := "Name an address for later commands, e.g. `Alias Oracle 0x...`",
    args := [arg "name" .string, arg "address" .address], handler := .nameAddress },
  { name := "From",
    description := "Run a command as another account, e.g. `From Geoff (PToken pZRX Mint 10e18)`",
    args := [arg "account" .address, rest "command"], handler := .fromAccount },
  { name := "DryRun", description := "Run a command with state-changing steps skipped",
    args := [rest "command"], handler := .dryRun },
  { name := "AllowFailures", description := "Record failed invokations instead of stopping",
    args := [], handler := .allowFailures },
  { name := "Inspect", description := "Print the World as JSON", args := [], handler := .inspect },
  { name := "Assert",
    description := "Check a condition, e.g. `Assert Equal (Controller CloseFactor) 0.2e18`",
    args := [rest "assertion"], handler := .inTable .assertions "assertion" },
  inFamily .controller "Controller commands, e.g. `Controller SetCloseFactor 0.2`",
  inFamily .market "Market commands, e.g. `PToken pZRX Mint 10e18`",
  inFamily .token "Token commands, e.g. `Erc20 ZRX Faucet Geoff 100e18`",
  inFamily .registry "Registry commands, e.g. `Registry Deploy`",
  inFamily .rateModel
    "Interest rate model commands, e.g. `InterestRateModel Deploy Fixed IRM 0.05`"]

def assertionShapes : List Shape := [
  { name := "Equal", description := "Two values are equal; numbers compare by mantissa",
    args := [arg "given" .value, arg "expected" .value], handler := .assertEqual },
  { name := "True", description := "A condition holds", args := [arg "condition" .bool],
    handler := .assertCondition true },
  { name := "False", description := "A condition does not hold", args := [arg "condition" .bool],
    handler := .assertCondition false },
  { name := "Success", description := "The last invokation succeeded", args := [],
    handler := .assertSuccess },
  { name := "Failure",
    description :=
      "The last invokation failed with a protocol error, e.g. `Assert Failure UNAUTHORIZED`",
    args := [arg "error" .string, { arg "info" .string with nullable := true },
      { arg "detail" .string with nullable := true }],
    handler := .assertFailure },
  { name := "Revert", description := "The last invokation reverted",
    args := [{ arg "message" .string with nullable := true }], handler := .assertRevert }]

/-- The command that binds a contract of a family. -/
def deployShape (family : Family) (description : String) : Shape :=
  { name := "Deploy", description, args := [rest "params"],
    handler := .inTable (.deploy family) "params" }

def controllerShapes : List Shape := [
  { deployShape .controller
      "Deploy a controller: `Controller Deploy [Scenario|Standard|Existing <address>] [name]`" with
    args := [{ rest "params" with default := some (.event (.list [])) }] },
  { name := "SetCloseFactor",
    description := "Set the close factor, e.g. `Controller SetCloseFactor 0.2`",
    args := [Reading.controllerArg, arg "closeFactor" .exp], handler := .setCloseFactor },
  { name := "SupportMarket", description := "List a market, e.g. `Controller SupportMarket pZRX`",
    args := [Reading.controllerArg, Reading.marketArg], handler := .supportMarket,
    skipOnDryRun := true },
  { name := "SetCollateralFactor",
    description :=
      "Set a market's collateral factor, e.g. `Controller SetCollateralFactor pZRX 0.5`",
    args := [Reading.controllerArg, Reading.marketArg, arg "collateralFactor" .exp],
    handler := .setCollateralFactor },
  { name := "SetPendingAdmin", description := "Nominate a new admin",
    args := [Reading.controllerArg, arg "newPendingAdmin" .address], handler := .setPendingAdmin },
  { name := "AcceptAdmin", description := "Accept a pending admin nomination",
    args := [Reading.controllerArg], handler := .acceptAdmin }]

def marketShapes : List Shape := [
  deployShape .market
    "Deploy a market: `PToken Deploy Scenario|Standard <symbol> <name> <underlying> [registry] <controller> <irm> <exchangeRate> <reserveFactor> <decimals>`",
  { name := "Mint", description := "Supply underlying, e.g. `From Geoff (PToken pZRX Mint 10e18)`",
    args := [Reading.marketArg, arg "amount" .number], handler := .mint, keywordAt := 1 },
  { name := "Redeem",
    description := "Redeem market tokens for underlying, e.g. `PToken pZRX Redeem 500e18`",
    args := [Reading.marketArg, arg "tokens" .number], handler := .redeem, keywordAt := 1 }]

/-- A message to a token. -/
def tokenShape (name description counterparty method verb : String) : Shape :=
  { name, description, args := [Reading.tokenArg, arg counterparty .address, arg "amount" .number],
    handler := .tokenMessage method verb counterparty, keywordAt := 1 }

def tokenShapes : List Shape := [
  deployShape .token
    "Deploy a token: `Erc20 Deploy Standard <symbol> <name> [decimals]` or `Erc20 Deploy Existing <symbol> <address>`",
  tokenShape "Faucet" "Mint test tokens to an address, e.g. `Erc20 ZRX Faucet Geoff 100e18`"
    "recipient" "allocateTo" "dripped",
  tokenShape "Approve" "Approve a spender, e.g. `From Geoff (Erc20 ZRX Approve pZRX 100e18)`"
    "spender" "approve" "approved",
  tokenShape "Transfer" "Transfer tokens, e.g. `From Geoff (Erc20 ZRX Transfer Torrey 1e18)`"
    "recipient" "transfer" "transferred"]

def registryShapes : List Shape := [
  { name := "Deploy", description := "Deploy the protocol registry", args := [],
    handler := .deployRegistry }]

def rateModelShapes : List Shape := [
  deployShape .rateModel
    "Deploy a model: `InterestRateModel Deploy Fixed <name> <rate>` or `... Existing <name> <address>`"]

/-- The name of a controller, which may be left out. -/
def controllerName : Arg :=
  { arg "name" .string with default := some (.string "Controller") }

def controllerDeployShapes : List Shape := [
  { name := "Scenario", description := "A controller with scenario test hooks",
    args := [controllerName], handler := .deployController "ControllerScenario" },
  { name := "Standard", description := "A production controller", args := [controllerName],
    handler := .deployController "Controller" },
  { name := "Existing", description := "Bind to a controller already on chain",
    args := [arg "address" .address, controllerName], handler := .bindExisting .controller "name" },
  { name := "Default", description := "A production controller, optionally named",
    args := [{ controllerName with variadic := true }],
    handler := .deployController "Controller", catchall := true }]

/-- The arguments of a market.  The registry may be given after the underlying token; otherwise it
    is the one that was bound last, or the zero address. -/
def marketArgs (explicitRegistry : Bool) : List Arg :=
  [arg "symbol" .string, arg "name" .string, arg "underlying" .token] ++
  (if explicitRegistry then [arg "registry" .address] else []) ++
  [arg "controller" .address, arg "interestRateModel" .rateModel, arg "initialExchangeRate" .exp,
    arg "reserveFactor" .exp, arg "decimals" .number] ++
  (if explicitRegistry then []
    else [{ name := "registry", source := .implicit World.registryOrZero }])

/-- A way to make a market. -/
def marketDeployShape (name description kind : String) (explicitRegistry : Bool) : Shape :=
  { name, description, args := marketArgs explicitRegistry, handler := .deployMarket kind }

/-- The command that binds a contract that is already on the chain. -/
def existingShape (family : Family) (nameArg description : String) : Shape :=
  { name := "Existing", description, args := [arg nameArg .string, arg "address" .address],
    handler := .bindExisting family nameArg }

def marketDeployShapes : List Shape := [
  marketDeployShape "Scenario" "A market with scenario test hooks" "PTokenScenario" false,
  marketDeployShape "Scenario" "A market with scenario test hooks" "PTokenScenario" true,
  marketDeployShape "Standard" "A production Erc20 market" "PErc20" false,
  marketDeployShape "Standard" "A production Erc20 market" "PErc20" true,
  existingShape .market "symbol" "Bind to a market already on chain"]

def tokenDeployShapes : List Shape := [
  { name := "Standard", description := "A test token with a public faucet",
    args := [arg "symbol" .string, arg "name" .string,
      { arg "decimals" .number with default := some (.number (.ofInt 18)) }],
    handler := .deployToken },
  existingShape .token "symbol" "Bind to a token already on chain"]

def rateModelDeployShapes : List Shape := [
  { name := "Fixed", description := "A constant borrow rate, given per block as an Exp number",
    args := [arg "name" .string, arg "rate" .exp], handler := .deployRateModel },
  existingShape .rateModel "name" "Bind to a model already on chain"]

end Command

/-- The shapes of a table. -/
def CommandTable.shapes : CommandTable → List Command.Shape
  | topLevel => Command.topLevelShapes
  | assertions => Command.assertionShapes
  | family .controller => Command.controllerShapes
  | family .market => Command.marketShapes
  | family .token => Command.tokenShapes
  | family .registry => Command.registryShapes
  | family .rateModel => Command.rateModelShapes
  | deploy .controller => Command.controllerDeployShapes
  | deploy .market => Command.marketDeployShapes
  | deploy .token => Command.tokenDeployShapes
  | deploy .registry => []
  | deploy .rateModel => Command.rateModelDeployShapes

namespace World

/-- Deploys a contract under a name and indexes it if the chain made it. -/
def deploy (w : World) (sender : Address) (family : Family) (name kind : String) (args : List Abi)
    (fields : List (String × Value)) : Act World := do
  let made ← Act.onChain (·.deploy sender kind args)
  let outcome : Except InvokationError (Address × Receipt) :=
    match made with
    | .error e => .error e.toInvokationError
    | .ok receipt =>
      match receipt.contractAddress with
      | some address => .ok (address, receipt)
      | none => .error (.client "receipt has no contract address")
  let receipt := made.toOption
  let description := s!"Deployed {name} ({kind})"
  let w ← w.record description
    { description := s!"deploy {kind} as {name}", outcome := outcome.map (.address ·.1), receipt }
  match outcome with
  | .ok (address, _) =>
    let h : Handle := { name, kind, address }
    return w.register h (family.paths name) (h.data description fields)
  | .error _ => return w

/-- Binds a name to a contract that is already on the chain and has the role of a family. -/
def bindExisting (w : World) (family : Family) (name : String) (address : Address) : Act World := do
  let kind ←
    match (← get).chain.kindAt address with
    | some kind => pure kind
    | none => throw (.chain (.noContract address))
  if ! family.kinds.contains kind then throw (.typeMismatch family.keyword kind)
  let h : Handle := { name, kind, address }
  let description := s!"Added existing {name} ({kind}) at {address.text}"
  (w.register h (family.paths name) (h.data description [])).addAction description

/-- Sends a message to a contract that the world knows, and logs what came of it. -/
def send (w : World) (sender target : Address) (family : Family) (method : String)
    (args : List Abi) (description : String) : Act World := do
  let h ← Act.ofExcept (w.contract target)
  let sent ← Act.onChain (·.send sender h.address method args)
  let outcome : Except InvokationError Value :=
    match sent with
    | .error e => .error e.toInvokationError
    | .ok receipt =>
      match receipt.log? "Failure" with
      | some log => .error (.ofLog family.failures log)
      | none => .ok (.ofAbi receipt.returnValue)
  w.record description
    { description := h.callText method args, outcome, receipt := sent.toOption }

/-- The error of the last invokation, if it failed; there must have been one. -/
def lastError (w : World) : Except ScenarioError (Option InvokationError) :=
  match w.lastInvokation with
  | some i => .ok i.error?
  | none => .error (.assertion "no invokation has been recorded")

end World

namespace Command

/-- What an outcome is called in the error of an assertion. -/
def outcomeText (error : Option InvokationError) : String :=
  (error.map InvokationError.message).getD "success"

/-- Whether a failure has the expected names, as far as they are given. -/
def isExpectedFailure (error : Option InvokationError) (expected : String)
    (info detail : Option String) : Bool :=
  match error with
  | some (.failure e i d) => e == expected && info.all (· == i) && detail.all (· == d)
  | _ => false

/-- Whether a revert has the expected reason, if one is given. -/
def isExpectedRevert (error : Option InvokationError) (reason : Option String) : Bool :=
  match error with
  | some (.revert r) => reason.all (· == r)
  | _ => false

section Assertions

variable (w : World) (args : Args)

def assertEqualTo : Act World := do
  let given ← Act.ofExcept (args.get "given")
  let expected ← Act.ofExcept (args.get "expected")
  if ! given.same expected then
    throw (.assertion s!"expected {given.text} to equal {expected.text}")
  w.addAction s!"Asserted {given.text} equals {expected.text}"

def assertBool (expected : Bool) : Act World := do
  if (← Act.ofExcept (args.bool "condition")) != expected then
    throw (.assertion s!"expected condition to be {boolText expected}")
  w.addAction s!"Asserted {boolText expected}"

def assertSucceeded : Act World := do
  match ← Act.ofExcept w.lastError with
  | some e => throw (.assertion s!"expected success, last invokation failed with {e.message}")
  | none => w.addAction "Asserted success"

def assertFailed : Act World := do
  let expected ← Act.ofExcept (args.string "error")
  let info := (args.optional? "info").map Value.text
  let detail := (args.optional? "detail").map Value.text
  let error ← Act.ofExcept w.lastError
  if ! isExpectedFailure error expected info detail then
    throw (.assertion s!"expected failure {expected}, got {outcomeText error}")
  w.addAction s!"Asserted failure {expected}"

def assertReverted : Act World := do
  let reason := (args.optional? "message").map Value.text
  let error ← Act.ofExcept w.lastError
  if ! isExpectedRevert error reason then
    throw (.assertion s!"expected revert, got {outcomeText error}")
  w.addAction "Asserted revert"

end Assertions

section Messages

variable (w : World) (sender : Address) (args : Args)

def sendSetCloseFactor : Act World := do
  let controller ← Act.ofExcept (args.address "controller")
  let factor ← Act.ofExcept (args.number "closeFactor")
  let encoded ← Act.ofExcept (Value.number factor).encode
  w.send sender controller .controller "_setCloseFactor" [encoded]
    s!"Set close factor to {factor.text}"

def sendSupportMarket : Act World := do
  let controller ← Act.ofExcept (args.address "controller")
  let market ← Act.ofExcept (args.address "pToken")
  w.send sender controller .controller "_supportMarket" [.address market]
    s!"Supported market {w.nameOf market}"

def sendSetCollateralFactor : Act World := do
  let controller ← Act.ofExcept (args.address "controller")
  let market ← Act.ofExcept (args.address "pToken")
  let factor ← Act.ofExcept (args.number "collateralFactor")
  let encoded ← Act.ofExcept (Value.number factor).encode
  w.send sender controller .controller "_setCollateralFactor" [.address market, encoded]
    s!"Set collateral factor for {w.nameOf market} to {factor.text}"

def sendSetPendingAdmin : Act World := do
  let controller ← Act.ofExcept (args.address "controller")
  let pending ← Act.ofExcept (args.address "newPendingAdmin")
  w.send sender controller .controller "_setPendingAdmin" [.address pending]
    s!"Set pending admin to {w.nameOf pending}"

def sendAcceptAdmin : Act World := do
  let controller ← Act.ofExcept (args.address "controller")
  w.send sender controller .controller "_acceptAdmin" [] s!"{w.nameOf sender} accepted admin"

def sendMint : Act World := do
  let market ← Act.ofExcept (args.address "pToken")
  let amount ← Act.ofExcept (args.number "amount")
  let encoded ← Act.ofExcept (Value.number amount).encode
  w.send sender market .market "mint" [encoded]
    s!"{w.nameOf sender} minted {amount.text} in {w.nameOf market}"

def sendRedeem : Act World := do
  let market ← Act.ofExcept (args.address "pToken")
  let tokens ← Act.ofExcept (args.number "tokens")
  let encoded ← Act.ofExcept (Value.number tokens).encode
  w.send sender market .market "redeem" [encoded]
    s!"{w.nameOf sender} redeemed {tokens.text} from {w.nameOf market}"

def sendTokenMessage (method verb counterparty : String) : Act World := do
  let token ← Act.ofExcept (args.address "token")
  let other ← Act.ofExcept (args.address counterparty)
  let amount ← Act.ofExcept (args.number "amount")
  let encoded ← Act.ofExcept (Value.number amount).encode
  w.send sender token .token method [.address other, encoded]
    s!"{w.nameOf sender} {verb} {amount.text} {w.nameOf token} to {w.nameOf other}"

def makeRateModel : Act World := do
  let name ← Act.ofExcept (args.string "name")
  let rate ← Act.ofExcept (args.get "rate")
  let encoded ← Act.ofExcept rate.encode
  w.deploy sender .rateModel name "FixedInterestRateModel" [encoded] [("borrowRate", rate)]

def makeToken : Act World := do
  let symbol ← Act.ofExcept (args.string "symbol")
  let name ← Act.ofExcept (args.string "name")
  let decimals ← Act.ofExcept (args.get "decimals")
  let encoded ← Act.ofExcept decimals.encode
  w.deploy sender .token symbol "FaucetToken" [.string name, .string symbol, encoded]
    [("symbol", .string symbol), ("fullName", .string name), ("decimals", decimals)]

def makeMarket (kind : String) : Act World := do
  let symbol ← Act.ofExcept (args.string "symbol")
  let name ← Act.ofExcept (args.string "name")
  let underlying ← Act.ofExcept (args.address "underlying")
  let decimals ← Act.ofExcept (args.get "decimals")
  let registry ← Act.ofExcept (args.address "registry")
  let controller ← Act.ofExcept (args.address "controller")
  let model ← Act.ofExcept (args.address "interestRateModel")
  let rate ← Act.ofExcept (do (← args.get "initialExchangeRate").encode)
  let reserve ← Act.ofExcept (do (← args.get "reserveFactor").encode)
  let encoded ← Act.ofExcept decimals.encode
  w.deploy sender .market symbol kind
    [.address underlying, .address registry, .address controller, .address model, rate, reserve,
      .string name, .string symbol, encoded]
    [("symbol", .string symbol), ("fullName", .string name), ("underlying", .address underlying),
      ("decimals", decimals)]

end Messages

/-- Carries out a command; `run` carries out the commands within it. -/
def perform (run : World → Address → CommandTable → Event → Act World) (c : Command) (w : World)
    (sender : Address) (args : Args) : Act World :=
  match c with
  | read => do w.addAction (← Act.ofExcept (args.get "value")).text
  | print => do w.addAction (← Act.ofExcept (args.string "message"))
  | nameAddress => do
    let name ← Act.ofExcept (args.string "name")
    let address ← Act.ofExcept (args.address "address")
    (w.withAlias name address).addAction s!"Aliased {name} to {address.text}"
  | fromAccount => do
    let account ← Act.ofExcept (args.address "account")
    run w account .topLevel (← Act.ofExcept (args.event "command"))
  | dryRun => do
    let event ← Act.ofExcept (args.event "command")
    let after ← run (w.withSettings ({ · with dryRun := true })) sender .topLevel event
    return after.withSettings ({ · with dryRun := w.settings.dryRun })
  | allowFailures => (w.withSettings ({ · with allowFailures := true })).addAction "Allowing failures"
  | inspect => do
    Act.announce w.toJson.print
    w.addAction "Inspected world"
  | inTable table arg => do run w sender table (← Act.ofExcept (args.event arg))
  | assertEqual => assertEqualTo w args
  | assertCondition expected => assertBool w args expected
  | assertSuccess => assertSucceeded w
  | assertFailure => assertFailed w args
  | assertRevert => assertReverted w args
  | deployController kind => do
    w.deploy sender .controller (← Act.ofExcept (args.string "name")) kind [] []
  | deployRegistry => w.deploy sender .registry "Registry" "Registry" [] []
  | deployRateModel => makeRateModel w sender args
  | deployToken => makeToken w sender args
  | deployMarket kind => makeMarket w sender args kind
  | bindExisting family nameArg => do
    let name ← Act.ofExcept (args.string nameArg)
    w.bindExisting family name (← Act.ofExcept (args.address "address"))
  | setCloseFactor => sendSetCloseFactor w sender args
  | supportMarket => sendSupportMarket w sender args
  | setCollateralFactor => sendSetCollateralFactor w sender args
  | setPendingAdmin => sendSetPendingAdmin w sender args
  | acceptAdmin => sendAcceptAdmin w sender args
  | mint => sendMint w sender args
  | redeem => sendRedeem w sender args
  | tokenMessage method verb counterparty => sendTokenMessage w sender args method verb counterparty

end Command

/-- Carries out an event as a command of a table, with at most the given number of commands and
    queries within each other. -/
def World.carryOut : (depth : Nat) → World → Address → CommandTable → Event → Act World
  | 0, _, _, _, _ => Act.exhausted
  | depth + 1, w, sender, table, e => do
    let scene : Scene := { world := w, chain := (← get).chain }
    dispatchCommand (Resolver.run (fun e => scene.answer depth (.value e)) w) w
      (fun c args => c.perform (World.carryOut depth) w sender args) table.shapes e

/-- Carries out an event as a command of the top level: the world after it, or the error, and the
    stage in either case. -/
def World.command (w : World) (sender : Address) (e : Event) (stage : Stage) :
    Except ScenarioError World × Stage :=
  ((w.carryOut e.depth sender .topLevel e).run.run stage).getD
    (.error (.unresolvedValue e.text), stage)

end MarketScript
