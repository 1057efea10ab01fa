import MarketScript.Error
import MarketScript.Number

/-!
# Messages to contracts

A message names a method and gives its arguments by position.  A contract that carries one out knows
its own address and the sender's, and answers with its next state, a result and logs.
-/

namespace MarketScript

/-- The arguments of a method. -/
structure Params where
  method : String
  values : List Abi

namespace Params

/-- The error of an argument that is not as it should be. -/
def bad {α : Type} (p : Params) (reason : String) : Except ChainError α :=
  .error (.badArguments p.method reason)

/-- An argument by its position. -/
def get (p : Params) (i : Nat) : Except ChainError Abi :=
  match p.values[i]? with
  | some value => .ok value
  | none => p.bad s!"missing argument {i}"

def number (p : Params) (i : Nat) : Except ChainError Int := do
  match (← p.get i).asNumber? with
  | some n => return n
  | none => p.bad s!"argument {i} is not a number"

def address (p : Params) (i : Nat) : Except ChainError Address := do
  match (← p.get i).asAddress? with
  | some a => return a
  | none => p.bad s!"argument {i} is not an address"

def string (p : Params) (i : Nat) : Except ChainError String := do
  match (← p.get i).asString? with
  | some s => return s
  | none => p.bad s!"argument {i} is not a string"

end Params

/-- Where a message is carried out and who sent it. -/
structure Frame where
  this : Address
  sender : Address

/-- What carrying out a message makes of a contract. -/
structure Outcome (σ : Type) where
  state : σ
  result : Abi
  logs : List Log := []

namespace Outcome

variable {σ : Type}

/-- One field of a log. -/
abbrev Field := String × Abi

/-- The message is carried out. -/
def done (state : σ) (result : Abi) (f : Frame) (event : String) (fields : List Field) :
    Outcome σ :=
  { state, result, logs := [⟨f.this, event, fields⟩] }

/-- The message is refused with codes: the contract stays as it is, the error code is the result,
    and a log gives all three codes. -/
def refused (state : σ) (f : Frame) (family : FailureFamily) (error info : String)
    (detail : Int := 0) : Except ChainError (Outcome σ) :=
  match family.errorCode? error, family.infoCode? info with
  | none, _ => .error (.transport s!"unknown error name {error}")
  | some _, none => .error (.transport s!"unknown failure info {info}")
  | some e, some i =>
    .ok (done state (.number e) f "Failure"
      [("error", .number e), ("info", .number i), ("detail", .number detail)])

end Outcome

/-- The unit of contract fractions. -/
def expUnit : Int := tenPow expScale

end MarketScript
