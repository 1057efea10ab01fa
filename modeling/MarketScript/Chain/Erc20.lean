import MarketScript.Chain.Params
import MarketScript.Store

/-!
# Tokens

A fungible token: balances, allowances to spend from another's balance, and the sum of what was
made.  A faucet token also lets anyone make new tokens.
-/

namespace MarketScript

/-- Who may spend from whose balance. -/
structure Grant where
  owner : Address
  spender : Address
deriving DecidableEq

namespace Grant

instance : Ord Grant := ⟨compareLex (compareOn owner) (compareOn spender)⟩

instance : Std.TransOrd Grant :=
  inferInstanceAs (Std.TransCmp (compareLex (compareOn owner) (compareOn spender)))

instance : Std.LawfulEqOrd Grant where
  compare_self {a} :=
    show compareLex (compareOn owner) (compareOn spender) a a = .eq from Std.ReflCmp.compare_self
  eq_of_compare {a b} h := by
    have h : (compare a.owner b.owner).then (compare a.spender b.spender) = .eq := h
    obtain ⟨ho, hs⟩ := Ordering.then_eq_eq.mp h
    cases a; cases b
    cases Std.LawfulEqCmp.eq_of_compare ho
    cases Std.LawfulEqCmp.eq_of_compare hs
    rfl

end Grant

/-- The state of a token contract. -/
structure Erc20 where
  faucet : Bool
  name : String
  symbol : String
  decimals : Int
  totalSupply : Int := 0
  balances : Store Address Int := .empty
  allowances : Store Grant Int := .empty

namespace Erc20

/-- The kind of a token contract. -/
def kind (t : Erc20) : String := if t.faucet then "FaucetToken" else "Erc20"

/-- A new token; the arguments are its name, its symbol and its decimals. -/
def ofParams (faucet : Bool) (p : Params) : Except ChainError Erc20 := do
  let name ← p.string 0
  let symbol ← p.string 1
  let decimals ← p.number 2
  return { faucet, name, symbol, decimals }

/-- What an owner holds. -/
def balanceOf (t : Erc20) (owner : Address) : Int := (t.balances.get? owner).getD 0

/-- What a spender may still take from an owner. -/
def allowance (t : Erc20) (owner spender : Address) : Int :=
  (t.allowances.get? ⟨owner, spender⟩).getD 0

/-- The token with more in one balance. -/
def credit (t : Erc20) (owner : Address) (amount : Int) : Erc20 :=
  { t with balances := t.balances.insert owner (t.balanceOf owner + amount) }

/-- The token with another allowance. -/
def allow (t : Erc20) (owner spender : Address) (amount : Int) : Erc20 :=
  { t with allowances := t.allowances.insert ⟨owner, spender⟩ amount }

/-- Moves an amount that the first owner holds. -/
def move (t : Erc20) (source target : Address) (amount : Int) : Except ChainError Erc20 :=
  if t.balanceOf source < amount then .error (.revert "Insufficient balance")
  else .ok ((t.credit source (-amount)).credit target amount)

/-- What a transfer reports. -/
def transferLog (f : Frame) (source target : Address) (amount : Int) : Log :=
  ⟨f.this, "Transfer",
    [("from", .address source), ("to", .address target), ("amount", .number amount)]⟩

/-- The answer to a question. -/
def read (t : Erc20) (p : Params) : Except ChainError Abi :=
  match p.method with
  | "name" => return .string t.name
  | "symbol" => return .string t.symbol
  | "decimals" => return .number t.decimals
  | "totalSupply" => return .number t.totalSupply
  | "balanceOf" => do return .number (t.balanceOf (← p.address 0))
  | "allowance" => do return .number (t.allowance (← p.address 0) (← p.address 1))
  | method => throw (.unknownMethod t.kind method)

/-- The sender's tokens move. -/
def transfer (t : Erc20) (f : Frame) (target : Address) (amount : Int) :
    Except ChainError (Outcome Erc20) := do
  let t ← t.move f.sender target amount
  return { state := t, result := .bool true, logs := [transferLog f f.sender target amount] }

/-- Another's tokens move, as far as the sender is allowed. -/
def transferFrom (t : Erc20) (f : Frame) (source target : Address) (amount : Int) :
    Except ChainError (Outcome Erc20) := do
  let allowed := t.allowance source f.sender
  if allowed < amount then throw (.revert "Insufficient allowance")
  let t ← t.move source target amount
  return { state := t.allow source f.sender (allowed - amount), result := .bool true,
           logs := [transferLog f source target amount] }

/-- The sender lets another spend an amount. -/
def approve (t : Erc20) (f : Frame) (spender : Address) (amount : Int) : Outcome Erc20 :=
  .done (t.allow f.sender spender amount) (.bool true) f "Approval"
    [("owner", .address f.sender), ("spender", .address spender), ("amount", .number amount)]

/-- New tokens come into a balance. -/
def allocateTo (t : Erc20) (f : Frame) (owner : Address) (amount : Int) : Outcome Erc20 :=
  { state := { t.credit owner amount with totalSupply := t.totalSupply + amount },
    result := .unit, logs := [transferLog f .zero owner amount] }

/-- Carries out a message. -/
def execute (t : Erc20) (f : Frame) (p : Params) : Except ChainError (Outcome Erc20) :=
  match p.method with
  | "transfer" => do t.transfer f (← p.address 0) (← p.number 1)
  | "transferFrom" => do t.transferFrom f (← p.address 0) (← p.address 1) (← p.number 2)
  | "approve" => do return t.approve f (← p.address 0) (← p.number 1)
  | "allocateTo" =>
    if t.faucet then do return t.allocateTo f (← p.address 0) (← p.number 1)
    else throw (.unknownMethod t.kind "allocateTo")
  | method => throw (.unknownMethod t.kind method)

end Erc20

end MarketScript
