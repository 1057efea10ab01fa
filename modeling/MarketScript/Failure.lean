import MarketScript.Abi

/-!
# Failures and their codes

A contract of the lending protocol that refuses a request says why in a log with three numbers: an
error, an info and a detail.  Each family of contracts has its own names for the numbers.  The
detail of some errors is itself an error number of another family.
-/

namespace MarketScript

/-- The families of contracts by the names of their failure codes. -/
inductive FailureFamily where
  /-- Contracts that never refuse with codes. -/
  | silent
  | controller
  | market
deriving DecidableEq, Repr

namespace FailureFamily

/-- All families. -/
def all : List FailureFamily := [silent, controller, market]

/-- The name of a family. -/
def name : FailureFamily → String
  | silent => "None"
  | controller => "Controller"
  | market => "PToken"

/-- The names of the error codes, from zero on. -/
def errors : FailureFamily → List String
  | silent => []
  | controller => [
    "NO_ERROR", "UNAUTHORIZED", "CONTROLLER_MISMATCH", "INSUFFICIENT_SHORTFALL",
    "INSUFFICIENT_LIQUIDITY", "INVALID_CLOSE_FACTOR", "INVALID_COLLATERAL_FACTOR",
    "INVALID_LIQUIDATION_INCENTIVE", "MARKET_NOT_ENTERED", "MARKET_NOT_LISTED",
    "MARKET_ALREADY_LISTED", "MATH_ERROR", "NONZERO_BORROW_BALANCE", "PRICE_ERROR", "REJECTION",
    "SNAPSHOT_ERROR", "TOO_MANY_ASSETS", "TOO_MUCH_REPAY"]
  | market => [
    "NO_ERROR", "UNAUTHORIZED", "BAD_INPUT", "CONTROLLER_REJECTION",
    "CONTROLLER_CALCULATION_ERROR", "INTEREST_RATE_MODEL_ERROR", "INVALID_ACCOUNT_PAIR",
    "INVALID_CLOSE_AMOUNT_REQUESTED", "INVALID_COLLATERAL_FACTOR", "MATH_ERROR",
    "MARKET_NOT_FRESH", "MARKET_NOT_LISTED", "TOKEN_INSUFFICIENT_ALLOWANCE",
    "TOKEN_INSUFFICIENT_BALANCE", "TOKEN_INSUFFICIENT_CASH", "TOKEN_TRANSFER_IN_FAILED",
    "TOKEN_TRANSFER_OUT_FAILED"]

/-- The names of the info codes, from zero on. -/
def infos : FailureFamily → List String
  | silent => []
  | controller => [
    "ACCEPT_ADMIN_PENDING_ADMIN_CHECK", "ACCEPT_PENDING_IMPLEMENTATION_ADDRESS_CHECK",
    "EXIT_MARKET_BALANCE_OWED", "EXIT_MARKET_REJECTION", "SET_CLOSE_FACTOR_OWNER_CHECK",
    "SET_CLOSE_FACTOR_VALIDATION", "SET_COLLATERAL_FACTOR_OWNER_CHECK",
    "SET_COLLATERAL_FACTOR_NO_EXISTS", "SET_COLLATERAL_FACTOR_VALIDATION",
    "SET_COLLATERAL_FACTOR_WITHOUT_PRICE", "SET_IMPLEMENTATION_OWNER_CHECK",
    "SET_LIQUIDATION_INCENTIVE_OWNER_CHECK", "SET_LIQUIDATION_INCENTIVE_VALIDATION",
    "SET_MAX_ASSETS_OWNER_CHECK", "SET_PENDING_ADMIN_OWNER_CHECK",
    "SET_PENDING_IMPLEMENTATION_OWNER_CHECK", "SET_PRICE_ORACLE_OWNER_CHECK",
    "SUPPORT_MARKET_EXISTS", "SUPPORT_MARKET_OWNER_CHECK"]
  | market => [
    "ACCEPT_ADMIN_PENDING_ADMIN_CHECK", "MINT_CONTROLLER_REJECTION",
    "MINT_EXCHANGE_CALCULATION_FAILED", "MINT_FRESHNESS_CHECK",
    "MINT_NEW_ACCOUNT_BALANCE_CALCULATION_FAILED", "MINT_NEW_TOTAL_SUPPLY_CALCULATION_FAILED",
    "MINT_TRANSFER_IN_FAILED", "MINT_TRANSFER_IN_NOT_POSSIBLE", "REDEEM_CONTROLLER_REJECTION",
    "REDEEM_EXCHANGE_TOKENS_CALCULATION_FAILED", "REDEEM_NEW_ACCOUNT_BALANCE_CALCULATION_FAILED",
    "REDEEM_NEW_TOTAL_SUPPLY_CALCULATION_FAILED", "REDEEM_TRANSFER_OUT_NOT_POSSIBLE",
    "SET_CONTROLLER_OWNER_CHECK", "SET_INTEREST_RATE_MODEL_OWNER_CHECK",
    "SET_PENDING_ADMIN_OWNER_CHECK", "SET_RESERVE_FACTOR_ADMIN_CHECK",
    "SET_RESERVE_FACTOR_BOUNDS_CHECK", "TRANSFER_NOT_ALLOWED"]

/-- The family whose error the detail of an error is. -/
def forward? : FailureFamily → (error : String) → Option FailureFamily
  | market, "CONTROLLER_REJECTION" => some controller
  | _, _ => none

/-- The name of a code in a table, or the code itself where the table ends before it. -/
def nameOf (table : List String) (code : Nat) : String := table[code]?.getD (toString code)

def errorName (f : FailureFamily) (code : Nat) : String := nameOf f.errors code

def infoName (f : FailureFamily) (code : Nat) : String := nameOf f.infos code

/-- A detail by its name in the family that the error refers to, or else as a number.  Only one
    reference is followed. -/
def detailName (f : FailureFamily) (error : String) (detail : Nat) : String :=
  match f.forward? error with
  | some other => other.errorName detail
  | none => toString detail

def errorCode? (f : FailureFamily) (name : String) : Option Nat := f.errors.findIdx? (· == name)

def infoCode? (f : FailureFamily) (name : String) : Option Nat := f.infos.findIdx? (· == name)

end FailureFamily

/-- Why a deployment or a transaction failed. -/
inductive InvokationError where
  /-- The contract refused with codes. -/
  | failure (error info detail : String)
  /-- The transaction was undone. -/
  | revert (reason : String)
  /-- The chain did not carry the request out. -/
  | client (message : String)
deriving DecidableEq, Repr

namespace InvokationError

def message : InvokationError → String
  | failure error info detail => s!"Error={info} Reason={error} Detail={detail}"
  | revert reason => s!"Revert: {reason}"
  | client message => message

/-- The failure that three codes stand for. -/
def ofCodes (f : FailureFamily) (error info detail : Nat) : InvokationError :=
  let name := f.errorName error
  failure name (f.infoName info) (f.detailName name detail)

/-- The largest code; it stands for a field that is no code. -/
def maxCode : Nat := UInt64.size - 1

/-- A code in a field of a log. -/
def codeIn (log : Log) (field : String) : Nat :=
  match (log.field? field).bind Abi.asNumber? with
  | some n => if 0 ≤ n ∧ n ≤ maxCode then n.toNat else maxCode
  | none => maxCode

/-- The failure that a log reports. -/
def ofLog (f : FailureFamily) (log : Log) : InvokationError :=
  ofCodes f (codeIn log "error") (codeIn log "info") (codeIn log "detail")

end InvokationError

end MarketScript
