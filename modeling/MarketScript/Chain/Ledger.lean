import MarketScript.Chain.Contract

/-!
# Ledgers

The contracts of a chain by their addresses, and what they do together.  While a contract carries
out a message it is off the ledger, so that it cannot be reached from within.  A message that fails
leaves no ledger at all: the sender keeps the one there was.
-/

namespace MarketScript

/-- The contracts of a chain. -/
abbrev Ledger := Store Address Contract

namespace Ledger

/-- The contract at an address. -/
def contractAt (l : Ledger) (address : Address) : Except ChainError Contract :=
  match l.get? address with
  | some c => .ok c
  | none => .error (.noContract address)

/-- The answer of a contract from its own state. -/
def readAt (l : Ledger) (address : Address) (p : Params) : Except ChainError Abi := do
  (← l.contractAt address).read p

/-- The answer of a contract to a question.  A market looks up its cash with the underlying token;
    every other answer comes from the contract's own state. -/
def view (l : Ledger) (address : Address) (p : Params) : Except ChainError Abi := do
  match ← l.contractAt address with
  | .market m =>
    if p.method = "getCash" then l.readAt m.underlying ⟨"balanceOf", [.address address]⟩
    else m.read p
  | c => c.read p

/-- Carries out what a market asks of its underlying contract.  Only tokens know such a message. -/
def deliver (l : Ledger) (sender target : Address) (p : Params) :
    Except ChainError (Ledger × List Log) := do
  match ← l.contractAt target with
  | .token t =>
    let o ← t.execute ⟨target, sender⟩ p
    return ((l.erase target).insert target (.token o.state), o.logs)
  | c => c.unknownMethod p.method

end Ledger

namespace Market

/-- What a market's controller says to a request: zero, or an error code. -/
def controllerCode (m : Market) (peers : Ledger) (f : Frame) (method : String) (amount : Int) :
    Except ChainError Int := do
  let answer ← peers.view m.controller
    ⟨method, [.address f.this, .address f.sender, .number amount]⟩
  match answer.asNumber? with
  | some code => return code
  | none => throw (.revert "controller returned a non-numeric code")

/-- The sender pays in an amount of the underlying token and gets market tokens for it. -/
def mint (m : Market) (peers : Ledger) (f : Frame) (amount : Int) :
    Except ChainError (Outcome Market × Ledger) := do
  let code ← m.controllerCode peers f "mintAllowed" amount
  if code ≠ 0 then
    return (← m.refuse f "CONTROLLER_REJECTION" "MINT_CONTROLLER_REJECTION" code, peers)
  let (peers, logs) ← peers.deliver f.this m.underlying
    ⟨"transferFrom", [.address f.sender, .address f.this, .number amount]⟩
  let minted := m.tokensFor amount
  let log : Log := ⟨f.this, "Mint",
    [("minter", .address f.sender), ("mintAmount", .number amount), ("mintTokens", .number minted)]⟩
  return ({ state := m.credit f.sender minted, result := .number 0, logs := logs ++ [log] }, peers)

/-- The sender gives back market tokens and is paid out the underlying token. -/
def redeem (m : Market) (peers : Ledger) (f : Frame) (tokens : Int) :
    Except ChainError (Outcome Market × Ledger) := do
  let code ← m.controllerCode peers f "redeemAllowed" tokens
  if code ≠ 0 then
    return (← m.refuse f "CONTROLLER_REJECTION" "REDEEM_CONTROLLER_REJECTION" code, peers)
  if m.balanceOf f.sender < tokens then
    return (← m.refuse f "MATH_ERROR" "REDEEM_NEW_ACCOUNT_BALANCE_CALCULATION_FAILED", peers)
  let amount := m.amountFor tokens
  let cash ← peers.view m.underlying ⟨"balanceOf", [.address f.this]⟩
  if cash.asNumber?.getD 0 < amount then
    return (← m.refuse f "TOKEN_INSUFFICIENT_CASH" "REDEEM_TRANSFER_OUT_NOT_POSSIBLE", peers)
  let (peers, logs) ← peers.deliver f.this m.underlying
    ⟨"transfer", [.address f.sender, .number amount]⟩
  let log : Log := ⟨f.this, "Redeem",
    [("redeemer", .address f.sender), ("redeemAmount", .number amount),
      ("redeemTokens", .number tokens)]⟩
  return ({ state := m.credit f.sender (-tokens), result := .number 0, logs := logs ++ [log] },
    peers)

/-- Carries out a message; the contracts around the market may change with it. -/
def execute (m : Market) (peers : Ledger) (f : Frame) (p : Params) :
    Except ChainError (Outcome Market × Ledger) :=
  match p.method with
  | "mint" => do m.mint peers f (← p.number 0)
  | "redeem" => do m.redeem peers f (← p.number 0)
  | method => throw (.unknownMethod m.kind method)

end Market

namespace Contract

/-- Carries out a message; the contracts around may change with it. -/
def execute (c : Contract) (peers : Ledger) (f : Frame) (p : Params) :
    Except ChainError (Outcome Contract × Ledger) :=
  match c with
  | controller c => do
    let isMarket (a : Address) := peers.view a ⟨"isPToken", []⟩
    let o ← c.execute f isMarket p
    return ({ o with state := controller o.state }, peers)
  | market m => do
    let (o, peers) ← m.execute peers f p
    return ({ o with state := market o.state }, peers)
  | token t => do
    let o ← t.execute f p
    return ({ o with state := token o.state }, peers)
  | c => c.unknownMethod p.method

end Contract

namespace Ledger

/-- Carries out a message: the ledger after it, its result and its logs. -/
def send (l : Ledger) (sender target : Address) (p : Params) :
    Except ChainError (Ledger × Abi × List Log) := do
  let c ← l.contractAt target
  let (o, peers) ← c.execute (l.erase target) ⟨target, sender⟩ p
  return (peers.insert target o.state, o.result, o.logs)

end Ledger

end MarketScript
