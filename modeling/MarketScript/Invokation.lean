import MarketScript.Value

/-!
# Invokations

The outcome of one deployment or of one message to a contract, as the log of a run keeps it.
-/

namespace MarketScript

/-- What a deployment or a message came to.  The receipt is there whenever the chain carried the
    request out, a refusal with codes included. -/
structure Invokation (α : Type) where
  description : String
  outcome : Except InvokationError α
  receipt : Option Receipt := none

namespace Invokation

variable {α β : Type}

def value? (i : Invokation α) : Option α := i.outcome.toOption

def error? (i : Invokation α) : Option InvokationError :=
  match i.outcome with
  | .ok _ => none
  | .error e => some e

def succeeded (i : Invokation α) : Bool := i.value?.isSome

/-- The invokation with another view of its value. -/
def map (f : α → β) (i : Invokation α) : Invokation β :=
  { description := i.description, outcome := i.outcome.map f, receipt := i.receipt }

@[simp] theorem error?_map (f : α → β) (i : Invokation α) : (i.map f).error? = i.error? := by
  unfold map error? Except.map
  cases i.outcome <;> rfl

/-- Either a value or an error is there, never both. -/
theorem value?_isSome_iff (i : Invokation α) : i.value?.isSome ↔ i.error? = none := by
  unfold value? error? Except.toOption
  cases i.outcome <;> simp

/-- An invokation in a report. -/
def toJson (i : Invokation Value) : Json :=
  .ofMembers [
    ("description", .string i.description),
    ("value", (i.value?.map Value.toJson).getD .null),
    ("error", .ofOption (i.error?.map InvokationError.message)),
    ("tx", .ofOption (i.receipt.map (·.txHash)))]

end Invokation

end MarketScript
