import MarketScript.Chain
import MarketScript.World

/-!
# Scenes and stages

An expression is read in a scene: a world and the chain its contracts live on.  A command acts on a
stage: the chain, and the transcript of what the run has said.  What a command does on the stage
stays even if the command fails; the world it would have made does not.
-/

namespace MarketScript

/-- What expressions are read in. -/
structure Scene where
  world : World
  chain : Chain

/-- Asks a contract that the world knows. -/
def Scene.view (s : Scene) (address : Address) (method : String) (args : List Abi) :
    Except ScenarioError Abi := do
  let h ← s.world.contract address
  match s.chain.call h.address method args with
  | .ok answer => return answer
  | .error e => throw (.chain e)

/-- One line of a transcript. -/
inductive Line where
  /-- What a command says. -/
  | note (text : String)
  /-- That a command failed. -/
  | complaint (text : String)
deriving DecidableEq

def Line.text : Line → String
  | note text => text
  | complaint text => text

/-- What commands act on. -/
structure Stage where
  chain : Chain
  transcript : List Line := []

/-- The reading of an expression, which may fail.  There is no answer if the reading needs more
    steps within each other than it was given. -/
abbrev Eval (α : Type) := ExceptT ScenarioError Option α

/-- The carrying out of a command, which may fail; what was done on the stage stays. -/
abbrev Act (α : Type) := ExceptT ScenarioError (StateT Stage Option) α

namespace Eval

variable {α : Type}

/-- No steps are left. -/
def exhausted : Eval α := ExceptT.mk none

def ofExcept (x : Except ScenarioError α) : Eval α := ExceptT.mk (some x)

/-- The reading with its failure as an answer. -/
def attempt (x : Eval α) : Eval (Except ScenarioError α) := ExceptT.mk (x.run.map Except.ok)

/-- The answer, or the given error if there is none. -/
def answerOr (x : Eval α) (e : ScenarioError) : Except ScenarioError α := x.run.getD (.error e)

end Eval

namespace Act

variable {α : Type}

/-- Reads an expression; the stage stays as it is. -/
def ofEval (x : Eval α) : Act α := ExceptT.mk fun stage => x.run.map (·, stage)

def ofExcept (x : Except ScenarioError α) : Act α := ExceptT.mk fun stage => some (x, stage)

/-- No steps are left. -/
def exhausted : Act α := ExceptT.mk fun _ => none

/-- Says a line. -/
def announce (text : String) : Act Unit :=
  modify fun stage => { stage with transcript := stage.transcript ++ [.note text] }

/-- Lets the chain do something. -/
def onChain {β : Type} (f : Chain → β × Chain) : Act β := do
  let stage ← get
  let (b, chain) := f stage.chain
  set { stage with chain }
  return b

end Act

namespace World

/-- Announces an action and puts it into the log. -/
def log (w : World) (description : String) (invokation : Option (Invokation Value)) : Act World := do
  let place := (← get).transcript.length
  Act.announce description
  return { w with actions := w.actions ++ [{ description, invokation, place }] }

/-- Logs an action without an invokation. -/
def addAction (w : World) (description : String) : Act World := w.log description none

/-- Logs an invokation, which becomes the last one.  A failed invokation is an error unless failures
    are allowed. -/
def record (w : World) (description : String) (i : Invokation Value) : Act World := do
  let description ←
    match i.error? with
    | none => pure description
    | some e =>
      if w.settings.allowFailures then pure s!"{description} (failed: {e.message})"
      else throw (.invokation e)
  let w ← w.log description (some i)
  return { w with lastInvokation := some i }

end World

end MarketScript
