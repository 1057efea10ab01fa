import MarketScript.Chain.Params
import MarketScript.Store

/-!
# Controllers

A controller lists markets and sets the protocol's factors.  Its admin alone may change them; a new
admin is first named by the old one and then accepts.
-/

namespace MarketScript

/-- The state of a controller contract. -/
structure Controller where
  /-- A controller with hooks for tests. -/
  scenario : Bool
  admin : Address
  pendingAdmin : Address := .zero
  closeFactor : Int := 0
  /-- The listed markets and their collateral factors. -/
  markets : Store Address Int := .empty

namespace Controller

/-- The kind of a controller contract. -/
def kind (c : Controller) : String := if c.scenario then "ControllerScenario" else "Controller"

/-- The least close factor, 0.05. -/
def closeFactorMin : Int := expUnit / 20

/-- The largest close factor, 0.9. -/
def closeFactorMax : Int := expUnit * 9 / 10

/-- The largest collateral factor, 0.9. -/
def collateralFactorMax : Int := expUnit * 9 / 10

def isListed (c : Controller) (market : Address) : Bool := c.markets.contains market

/-- The code with which a controller answers whether a market may be used: zero if it is listed. -/
def listingCode (c : Controller) (market : Address) : Int :=
  if c.isListed market then 0
  else ((FailureFamily.controller.errorCode? "MARKET_NOT_LISTED").getD InvokationError.maxCode)

/-- The answer to a question. -/
def read (c : Controller) (p : Params) : Except ChainError Abi :=
  match p.method with
  | "admin" => return .address c.admin
  | "pendingAdmin" => return .address c.pendingAdmin
  | "closeFactorMantissa" => return .number c.closeFactor
  | "markets" => do
    let factor := c.markets.get? (← p.address 0)
    return .array [.bool factor.isSome, .number (factor.getD 0)]
  | "mintAllowed" => do return .number (c.listingCode (← p.address 0))
  | "redeemAllowed" => do return .number (c.listingCode (← p.address 0))
  | "isController" => return .bool true
  | method => throw (.unknownMethod c.kind method)

/-- Refuses with codes of this family. -/
def refuse (c : Controller) (f : Frame) (error info : String) :
    Except ChainError (Outcome Controller) :=
  Outcome.refused c f .controller error info

/-- Carries out a message with the result zero and one log. -/
def succeed (c : Controller) (f : Frame) (event : String) (fields : List Outcome.Field) :
    Outcome Controller :=
  .done c (.number 0) f event fields

def setCloseFactor (c : Controller) (f : Frame) (factor : Int) :
    Except ChainError (Outcome Controller) :=
  if factor < closeFactorMin ∨ closeFactorMax < factor then
    c.refuse f "INVALID_CLOSE_FACTOR" "SET_CLOSE_FACTOR_VALIDATION"
  else
    .ok (succeed { c with closeFactor := factor } f "NewCloseFactor"
      [("oldCloseFactorMantissa", .number c.closeFactor), ("newCloseFactorMantissa", .number factor)])

/-- Lists a market.  `isMarket` asks the contract at the address whether it is one. -/
def supportMarket (c : Controller) (f : Frame) (isMarket : Address → Except ChainError Abi)
    (market : Address) : Except ChainError (Outcome Controller) :=
  if c.isListed market then c.refuse f "MARKET_ALREADY_LISTED" "SUPPORT_MARKET_EXISTS"
  else do
    if (← isMarket market).asBool? ≠ some true then
      throw (.revert s!"{market.text} is not a pToken")
    return succeed { c with markets := c.markets.insert market 0 } f "MarketListed"
      [("pToken", .address market)]

def setCollateralFactor (c : Controller) (f : Frame) (market : Address) (factor : Int) :
    Except ChainError (Outcome Controller) :=
  if collateralFactorMax < factor then
    c.refuse f "INVALID_COLLATERAL_FACTOR" "SET_COLLATERAL_FACTOR_VALIDATION"
  else
    match c.markets.get? market with
    | none => c.refuse f "MARKET_NOT_LISTED" "SET_COLLATERAL_FACTOR_NO_EXISTS"
    | some old =>
      .ok (succeed { c with markets := c.markets.insert market factor } f "NewCollateralFactor"
        [("pToken", .address market), ("oldCollateralFactorMantissa", .number old),
          ("newCollateralFactorMantissa", .number factor)])

def setPendingAdmin (c : Controller) (f : Frame) (pending : Address) : Outcome Controller :=
  succeed { c with pendingAdmin := pending } f "NewPendingAdmin"
    [("newPendingAdmin", .address pending)]

def acceptAdmin (c : Controller) (f : Frame) : Except ChainError (Outcome Controller) :=
  if f.sender ≠ c.pendingAdmin ∨ f.sender.isZero then
    c.refuse f "UNAUTHORIZED" "ACCEPT_ADMIN_PENDING_ADMIN_CHECK"
  else
    .ok (succeed { c with admin := c.pendingAdmin, pendingAdmin := .zero } f "NewAdmin"
      [("newAdmin", .address c.pendingAdmin)])

/-- Carries out what only the admin may ask for.  Who asks is looked at before what is asked. -/
def guarded (c : Controller) (f : Frame) (info : String)
    (act : Except ChainError (Outcome Controller)) : Except ChainError (Outcome Controller) :=
  if f.sender ≠ c.admin then c.refuse f "UNAUTHORIZED" info else act

/-- Carries out a message. -/
def execute (c : Controller) (f : Frame) (isMarket : Address → Except ChainError Abi)
    (p : Params) : Except ChainError (Outcome Controller) :=
  match p.method with
  | "_setCloseFactor" => c.guarded f "SET_CLOSE_FACTOR_OWNER_CHECK" do
    c.setCloseFactor f (← p.number 0)
  | "_supportMarket" => c.guarded f "SUPPORT_MARKET_OWNER_CHECK" do
    c.supportMarket f isMarket (← p.address 0)
  | "_setCollateralFactor" => c.guarded f "SET_COLLATERAL_FACTOR_OWNER_CHECK" do
    c.setCollateralFactor f (← p.address 0) (← p.number 1)
  | "_setPendingAdmin" => c.guarded f "SET_PENDING_ADMIN_OWNER_CHECK" do
    return c.setPendingAdmin f (← p.address 0)
  | "_acceptAdmin" => c.acceptAdmin f
  | method => throw (.unknownMethod c.kind method)

end Controller

end MarketScript
