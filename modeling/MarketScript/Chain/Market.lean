import MarketScript.Chain.Params
import MarketScript.Store

/-!
# Markets

The state of a lending market over a token, and the arithmetic of its exchange rate.  What a market
does with the contracts around it is in `MarketScript.Chain.Ledger`.
-/

namespace MarketScript

/-- The state of a market contract. -/
structure Market where
  /-- A market with hooks for tests. -/
  scenario : Bool
  admin : Address
  underlying : Address
  registry : Address
  controller : Address
  interestRateModel : Address
  /-- What a market token is worth, as a contract fraction. -/
  exchangeRate : Int
  reserveFactor : Int
  name : String
  symbol : String
  decimals : Int
  totalSupply : Int := 0
  balances : Store Address Int := .empty

namespace Market

/-- The kind of a market contract. -/
def kind (m : Market) : String := if m.scenario then "PTokenScenario" else "PErc20"

/-- A new market.  The arguments are the underlying token, the registry, the controller, the
    interest rate model, the exchange rate, the reserve factor, the name, the symbol and the
    decimals; the exchange rate is looked at first. -/
def ofParams (scenario : Bool) (admin : Address) (p : Params) : Except ChainError Market := do
  let exchangeRate ← p.number 4
  if exchangeRate ≤ 0 then throw (.revert "initial exchange rate must be greater than zero")
  let underlying ← p.address 0
  let registry ← p.address 1
  let controller ← p.address 2
  let interestRateModel ← p.address 3
  let reserveFactor ← p.number 5
  let name ← p.string 6
  let symbol ← p.string 7
  let decimals ← p.number 8
  return { scenario, admin, underlying, registry, controller, interestRateModel, exchangeRate,
           reserveFactor, name, symbol, decimals }

/-- What an owner holds. -/
def balanceOf (m : Market) (owner : Address) : Int := (m.balances.get? owner).getD 0

/-- The market tokens for an amount of the underlying token, cut towards zero. -/
def tokensFor (m : Market) (amount : Int) : Int := (amount * expUnit).tdiv m.exchangeRate

/-- The amount of the underlying token for market tokens, cut towards zero. -/
def amountFor (m : Market) (tokens : Int) : Int := (tokens * m.exchangeRate).tdiv expUnit

/-- The market with more in one balance and as much more in the supply. -/
def credit (m : Market) (owner : Address) (tokens : Int) : Market :=
  { m with balances := m.balances.insert owner (m.balanceOf owner + tokens),
           totalSupply := m.totalSupply + tokens }

/-- The answer to a question that needs no other contract. -/
def read (m : Market) (p : Params) : Except ChainError Abi :=
  match p.method with
  | "name" => return .string m.name
  | "symbol" => return .string m.symbol
  | "decimals" => return .number m.decimals
  | "admin" => return .address m.admin
  | "underlying" => return .address m.underlying
  | "registry" => return .address m.registry
  | "controller" => return .address m.controller
  | "interestRateModel" => return .address m.interestRateModel
  | "totalSupply" => return .number m.totalSupply
  | "balanceOf" => do return .number (m.balanceOf (← p.address 0))
  | "exchangeRateStored" => return .number m.exchangeRate
  | "exchangeRateCurrent" => return .number m.exchangeRate
  | "reserveFactorMantissa" => return .number m.reserveFactor
  | "isPToken" => return .bool true
  | method => throw (.unknownMethod m.kind method)

/-- Refuses with codes of this family. -/
def refuse (m : Market) (f : Frame) (error info : String) (detail : Int := 0) :
    Except ChainError (Outcome Market) :=
  Outcome.refused m f .market error info detail

end Market

end MarketScript
