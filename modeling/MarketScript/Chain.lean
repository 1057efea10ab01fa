import MarketScript.Chain.Ledger

/-!
# Simulated chains

A chain in memory.  Each account counts the deployments and messages it has sent; the count gives
every transaction a hash and every contract an address of its own.  A message uses up a number even
if it fails, a deployment only if the contract can be made.
-/

namespace MarketScript

/-- A chain. -/
structure Chain where
  network : String := "development"
  contracts : Ledger := .empty
  /-- How many transactions each account has sent. -/
  nonces : Store Address Nat := .empty

namespace Chain

/-- The number of the next transaction of an account. -/
def nonceOf (c : Chain) (sender : Address) : Nat := (c.nonces.get? sender).getD 0

/-- The chain after an account has used up a number. -/
def useNonce (c : Chain) (sender : Address) : Chain :=
  { c with nonces := c.nonces.insert sender (c.nonceOf sender + 1) }

/-- What the hash and the address of a transaction are drawn from. -/
def seed (sender : Address) (nonce : Nat) : List UInt8 :=
  sender.bytes ++ Sha256.bigEndian 8 nonce

/-- The hash of a transaction. -/
def txHash (sender : Address) (nonce : Nat) : String :=
  let ds := Nat.toDigits 16 (Sha256.hash (seed sender nonce))
  String.ofList ('0' :: 'x' :: List.replicate (64 - ds.length) '0' ++ ds)

/-- The address of the contract that a transaction makes. -/
def contractAddress (sender : Address) (nonce : Nat) : Address := .derive (seed sender nonce)

/-- Makes a contract. -/
def deploy (c : Chain) (sender : Address) (kind : String) (args : List Abi) :
    Except ChainError Receipt × Chain :=
  match Contract.create kind sender ⟨"constructor", args⟩ with
  | .error e => (.error e, c)
  | .ok contract =>
    let nonce := c.nonceOf sender
    let address := contractAddress sender nonce
    (.ok { txHash := txHash sender nonce, sender, target := none, contractAddress := some address,
           returnValue := .unit, logs := [] },
      { c.useNonce sender with contracts := c.contracts.insert address contract })

/-- Asks a contract; nothing changes. -/
def call (c : Chain) (target : Address) (method : String) (args : List Abi) :
    Except ChainError Abi :=
  c.contracts.view target ⟨method, args⟩

/-- Sends a message to a contract. -/
def send (c : Chain) (sender target : Address) (method : String) (args : List Abi) :
    Except ChainError Receipt × Chain :=
  let nonce := c.nonceOf sender
  let after := c.useNonce sender
  match c.contracts.send sender target ⟨method, args⟩ with
  | .error e => (.error e, after)
  | .ok (contracts, returnValue, logs) =>
    (.ok { txHash := txHash sender nonce, sender, target := some target, contractAddress := none,
           returnValue, logs },
      { after with contracts })

/-- The kind of the contract at an address. -/
def kindAt (c : Chain) (address : Address) : Option String :=
  (c.contracts.get? address).map Contract.kind

end Chain

end MarketScript
