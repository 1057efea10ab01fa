import MarketScript.Chain.Controller
import MarketScript.Chain.Market
import MarketScript.Chain.Erc20

/-!
# Contracts

The contracts that a chain can hold, and what each answers from its own state.
-/

namespace MarketScript

/-- The protocol's registry, which knows its admin only. -/
structure Registry where
  admin : Address

/-- An interest rate model with one rate for all. -/
structure RateModel where
  borrowRate : Int

namespace Registry

def kind : String := "Registry"

/-- The answer to a question. -/
def read (r : Registry) (p : Params) : Except ChainError Abi :=
  match p.method with
  | "admin" => return .address r.admin
  | "isRegistry" => return .bool true
  | method => throw (.unknownMethod kind method)

end Registry

namespace RateModel

def kind : String := "FixedInterestRateModel"

/-- The answer to a question; the state of the market that asks makes no difference to the rate. -/
def read (r : RateModel) (p : Params) : Except ChainError Abi :=
  match p.method with
  | "getBorrowRate" => return .number r.borrowRate
  | "isInterestRateModel" => return .bool true
  | method => throw (.unknownMethod kind method)

end RateModel

/-- A contract on a chain. -/
inductive Contract where
  | controller (state : Controller)
  | market (state : Market)
  | token (state : Erc20)
  | registry (state : Registry)
  | rateModel (state : RateModel)

namespace Contract

/-- The kind of a contract. -/
def kind : Contract → String
  | controller c => c.kind
  | market m => m.kind
  | token t => t.kind
  | registry _ => Registry.kind
  | rateModel _ => RateModel.kind

/-- A new contract of a given kind. -/
def create (kind : String) (deployer : Address) (p : Params) : Except ChainError Contract :=
  match kind with
  | "Controller" => return controller { scenario := false, admin := deployer }
  | "ControllerScenario" => return controller { scenario := true, admin := deployer }
  | "PErc20" => do return market (← Market.ofParams false deployer p)
  | "PTokenScenario" => do return market (← Market.ofParams true deployer p)
  | "Erc20" => do return token (← Erc20.ofParams false p)
  | "FaucetToken" => do return token (← Erc20.ofParams true p)
  | "Registry" => return registry ⟨deployer⟩
  | "FixedInterestRateModel" => do return rateModel ⟨← p.number 0⟩
  | other => throw (.unknownContract other)

/-- The answer to a question that needs no other contract. -/
def read (c : Contract) (p : Params) : Except ChainError Abi :=
  match c with
  | controller c => c.read p
  | market m => m.read p
  | token t => t.read p
  | registry r => r.read p
  | rateModel r => r.read p

/-- The error of a contract that does not know a method. -/
def unknownMethod {α : Type} (c : Contract) (method : String) : Except ChainError α :=
  .error (.unknownMethod c.kind method)

end Contract

end MarketScript
