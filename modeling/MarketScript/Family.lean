import MarketScript.Failure

/-!
# Families of contracts

Commands and readings come in families, one for each role that a contract has in the protocol.
-/

namespace MarketScript

/-- The roles of contracts. -/
inductive Family where
  | controller
  | market
  | token
  | registry
  | rateModel
deriving DecidableEq, Repr

namespace Family

/-- The keyword of a family. -/
def keyword : Family → String
  | controller => "Controller"
  | market => "PToken"
  | token => "Erc20"
  | registry => "Registry"
  | rateModel => "InterestRateModel"

/-- The kinds of contracts that can have the role. -/
def kinds : Family → List String
  | controller => ["Controller", "ControllerScenario"]
  | market => ["PErc20", "PTokenScenario"]
  | token => ["Erc20", "FaucetToken"]
  | registry => ["Registry"]
  | rateModel => ["FixedInterestRateModel"]

/-- The first step of the paths under which the contracts of a family are indexed by name. -/
def shelf : Family → String
  | controller => "Controllers"
  | market => "pTokens"
  | token => "Tokens"
  | registry => "Registry"
  | rateModel => "InterestRateModel"

/-- The paths under which a contract of a family is indexed: markets, tokens and rate models by
    their names, the registry by its role, and a controller by both. -/
def paths : Family → (name : String) → List (List String)
  | controller, name => [["Controller"], [controller.shelf, name]]
  | registry, _ => [["Registry"]]
  | family, name => [[family.shelf, name]]

/-- The names of the failure codes of a family's contracts. -/
def failures : Family → FailureFamily
  | controller => .controller
  | market => .market
  | _ => .silent

end Family

end MarketScript
