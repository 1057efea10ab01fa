import MarketScript.Failure

/-!
# Errors

What can go wrong when a manifest is read, when a chain is asked, and when a command of a script is
carried out.  Each error is its cause; `message` is its wording.
-/

namespace MarketScript

/-- Why a chain did not carry out a request. -/
inductive ChainError where
  /-- The transaction was undone. -/
  | revert (reason : String)
  | noContract (address : Address)
  | unknownContract (kind : String)
  | unknownMethod (contract method : String)
  | badArguments (method reason : String)
  | transport (message : String)
deriving DecidableEq, Repr

namespace ChainError

def message : ChainError → String
  | revert reason => s!"revert {reason}"
  | noContract address => s!"no contract deployed at {address.text}"
  | unknownContract kind => s!"unknown contract kind '{kind}'"
  | unknownMethod contract method => s!"{contract} has no method '{method}'"
  | badArguments method reason => s!"bad arguments to {method}: {reason}"
  | transport message => message

/-- A chain error as the outcome of an invokation. -/
def toInvokationError : ChainError → InvokationError
  | revert reason => .revert reason
  | e => .client e.message

end ChainError

/-- Why a manifest is refused. -/
inductive ManifestError where
  /-- There is a manifest that cannot be read. -/
  | unreadable (reason : String)
  /-- The text is no document of the expected shape. -/
  | malformed (reason : String)
  /-- An entry of a section is no address. -/
  | badAddress (table name value : String)
  /-- An alias has the name of an account. -/
  | duplicateName (name : String)
deriving DecidableEq, Repr

def ManifestError.message : ManifestError → String
  | unreadable reason => s!"failed to read Scenario.toml: {reason}"
  | malformed reason => s!"invalid Scenario.toml: {reason}"
  | badAddress table name value =>
    s!"invalid Scenario.toml: [{table}] entry '{name}' has malformed address '{value}'"
  | duplicateName name =>
    s!"invalid Scenario.toml: name '{name}' is declared both as an account and an alias"

/-- Why a value cannot be resolved or a command not be carried out. -/
inductive ScenarioError where
  | typeMismatch (expected found : String)
  | unresolvedValue (text : String)
  | missingArgument (command arg : String)
  | tooManyArguments (command extra : String)
  | noMatchingCommand (keyword : String) (tokenCount : Nat) (attempts : List String)
  | lookup (name : String) (tried : List String)
  | invokation (error : InvokationError)
  | assertion (text : String)
  | invalidDefinition (command reason : String)
  | chain (error : ChainError)
  | parse (text : String)
  | manifest (error : ManifestError)
deriving DecidableEq, Repr

namespace ScenarioError

/-- The attempts at a command, each on a line of its own. -/
def attemptsText (attempts : List String) : String :=
  if attempts.isEmpty then ""
  else "; attempted:" ++ String.join (attempts.map ("\n  " ++ ·))

def message : ScenarioError → String
  | typeMismatch expected found => s!"type mismatch: expected {expected}, found {found}"
  | unresolvedValue text => s!"cannot resolve value from `{text}`"
  | missingArgument command arg => s!"{command}: missing required argument '{arg}'"
  | tooManyArguments command extra => s!"{command}: too many arguments, unexpected `{extra}`"
  | noMatchingCommand keyword tokenCount attempts =>
    s!"no command matches `{keyword}` with {tokenCount} argument(s)" ++ attemptsText attempts
  | lookup name tried => s!"lookup failed for `{name}`, tried " ++ String.intercalate ", " tried
  | invokation error => error.message
  | assertion text => s!"assertion failed: {text}"
  | invalidDefinition command reason => s!"invalid definition of {command}: {reason}"
  | chain error => s!"client error: {error.message}"
  | parse text => s!"parse error: {text}"
  | manifest error => error.message

/-- The failed invokation behind an error. -/
def invokation? : ScenarioError → Option InvokationError
  | invokation error => some error
  | _ => none

end ScenarioError

end MarketScript
