import MarketScript.Stage

/-!
# Dispatch

A keyword may have several shapes, each with its own arguments.  The shapes that bear the keyword
are tried in the order in which they are declared, and the first whose arguments can all be resolved
is taken.  The catchall is used only for an event that no shape recognises; it is given the whole
event, keyword included.
-/

namespace MarketScript

/-- The ways in which an argument can be resolved. -/
inductive Resolver where
  /-- Whatever the expression denotes. -/
  | value
  /-- A literal or a name. -/
  | literal
  /-- The expression itself. -/
  | event
  | number
  /-- A number at the scale of contract fractions. -/
  | exp
  /-- The same, given in percent. -/
  | percent
  | string
  | bool
  | address
  /-- The address of a market. -/
  | market
  /-- The address of a token. -/
  | token
  /-- The address of an interest rate model. -/
  | rateModel
deriving DecidableEq, Repr

/-- Where an argument comes from. -/
inductive ArgSource where
  /-- From the event. -/
  | token (resolver : Resolver)
  /-- From the world; no token is used. -/
  | implicit (get : World → Except ScenarioError Value)

/-- A declared argument. -/
structure Arg where
  name : String
  source : ArgSource
  /-- The value where no token is left. -/
  default : Option Value := none
  /-- Where no token is left and there is no default, the value is nothing. -/
  nullable : Bool := false
  /-- All remaining tokens are one list. -/
  variadic : Bool := false
  /-- All remaining tokens, or those of one group, are resolved one by one. -/
  mapped : Bool := false

namespace Arg

def isImplicit (a : Arg) : Bool :=
  match a.source with
  | .implicit _ => true
  | .token _ => false

def isOptional (a : Arg) : Bool := a.default.isSome || a.nullable

/-- Whether the argument takes all remaining tokens. -/
def takesRest (a : Arg) : Bool := a.variadic || a.mapped

/-- The value where no token is left. -/
def fallback (a : Arg) (command : String) : Except ScenarioError Value :=
  match a.default with
  | some v => .ok v
  | none => if a.nullable then .ok .nothing else .error (.missingArgument command a.name)

/-- An argument in a usage line. -/
def usage (a : Arg) : String :=
  let rest := if a.takesRest then "..." else ""
  if a.isOptional then s!"[{a.name}{rest}]" else s!"<{a.name}{rest}>"

end Arg

/-- The resolved arguments of a shape. -/
structure Args where
  /-- The name of the shape. -/
  keyword : String
  values : List (String × Value)

namespace Args

def get (args : Args) (name : String) : Except ScenarioError Value :=
  match args.values.find? (·.1 == name) with
  | some (_, v) => .ok v
  | none => .error (.invalidDefinition "handler" s!"no argument named '{name}'")

/-- The argument, unless it is nothing. -/
def optional? (args : Args) (name : String) : Option Value :=
  (args.get name).toOption.filter (! ·.isNothing)

def number (args : Args) (name : String) : Except ScenarioError Number := do
  (← args.get name).asNumber

def int (args : Args) (name : String) : Except ScenarioError Int := do (← args.get name).asInt

def address (args : Args) (name : String) : Except ScenarioError Address := do
  (← args.get name).asAddress

def string (args : Args) (name : String) : Except ScenarioError String := do
  (← args.get name).asString

def bool (args : Args) (name : String) : Except ScenarioError Bool := do (← args.get name).asBool

def event (args : Args) (name : String) : Except ScenarioError Event := do
  (← args.get name).asEvent

def list (args : Args) (name : String) : Except ScenarioError (List Value) := do
  (← args.get name).asList

end Args

/-- A shape: a keyword, arguments, and what is to be done with them. -/
structure Definition (η : Type) where
  name : String
  description : String
  args : List Arg
  handler : η
  catchall : Bool := false
  /-- Which token of an event is the keyword. -/
  keywordAt : Nat := 0
  /-- In a dry run the shape is not carried out. -/
  skipOnDryRun : Bool := false

namespace Definition

variable {η : Type}

/-- The arguments that are taken from the event. -/
def tokenArgs (d : Definition η) : List Arg := d.args.filter (! ·.isImplicit)

/-- The first argument that takes all remaining tokens although others follow it. -/
def misplaced? : List Arg → Option Arg
  | [] => none
  | [_] => none
  | a :: as => if a.takesRest then some a else misplaced? as

/-- Only the last argument taken from the event may take all remaining tokens. -/
def validate (d : Definition η) : Except ScenarioError Unit :=
  match misplaced? d.tokenArgs with
  | none => .ok ()
  | some a =>
    .error (.invalidDefinition d.name s!"argument '{a.name}' consumes the rest and must be last")

/-- A line that shows how an event of this shape is written. -/
def usage (d : Definition η) : String :=
  let usages := d.tokenArgs.map Arg.usage
  let before := (List.range d.keywordAt).map fun i => (usages[i]?).getD ""
  String.intercalate " " (before ++ d.name :: usages.drop d.keywordAt)

/-- Whether an event has the keyword of this shape in its place. -/
def recognizes (d : Definition η) (e : Event) : Bool :=
  ! d.catchall &&
    match e.items[d.keywordAt]?.bind Event.asWord? with
    | some w => sameWord w d.name
    | none => false

/-- The tokens of an event without the keyword. -/
def argTokens (d : Definition η) (e : Event) : List Event :=
  if d.catchall then e.items else e.items.eraseIdx d.keywordAt

end Definition

section Resolving

variable (resolve : Resolver → Event → Eval Value) (world : World)

/-- Resolves tokens one by one; the first failure is the failure of all. -/
def resolveEach (r : Resolver) : List Event → Eval (List Value)
  | [] => pure []
  | e :: es => do
    let v ← resolve r e
    let vs ← resolveEach r es
    return v :: vs

/-- Resolves the tokens of an argument that takes them one by one.  A lone group that is not empty
    is first taken as one token: `(Address Geoff)` is one, `(1 2 3)` are three. -/
def resolveMapped (a : Arg) (command : String) (r : Resolver) (tokens : List Event) : Eval Value :=
  match tokens with
  | [.list (e :: es)] => do
    match ← (resolve r (.list (e :: es))).attempt with
    | .ok v => return .list [v]
    | .error single =>
      match ← (resolveEach resolve r (e :: es)).attempt with
      | .ok vs => return .list vs
      | .error _ => throw single
  | [.list []] =>
    if a.isOptional then Eval.ofExcept (a.fallback command) else return .list []
  | [] => if a.isOptional then Eval.ofExcept (a.fallback command) else return .list []
  | tokens => do return .list (← resolveEach resolve r tokens)

/-- Resolves an argument with the tokens that are left; gives the tokens that are left after it. -/
def resolveArg (command : String) (a : Arg) (tokens : List Event) : Eval (Value × List Event) :=
  match a.source with
  | .implicit get => do return (← Eval.ofExcept (get world), tokens)
  | .token r =>
    if a.variadic then do
      if tokens.isEmpty then return (← Eval.ofExcept (a.fallback command), [])
      else return (← resolve r (.list tokens), [])
    else if a.mapped then do return (← resolveMapped resolve a command r tokens, [])
    else
      match tokens with
      | [] => do return (← Eval.ofExcept (a.fallback command), [])
      | token :: rest => do return (← resolve r token, rest)

/-- Resolves arguments in the order of their declaration. -/
def resolveInOrder (command : String) :
    List Arg → List Event → Eval (List (String × Value) × List Event)
  | [], tokens => pure ([], tokens)
  | a :: as, tokens => do
    let (v, tokens) ← resolveArg resolve world command a tokens
    let (vs, tokens) ← resolveInOrder command as tokens
    return ((a.name, v) :: vs, tokens)

/-- Resolves the arguments of a shape; no token may be left over. -/
def resolveArgs {η : Type} (d : Definition η) (tokens : List Event) : Eval Args := do
  Eval.ofExcept d.validate
  let (values, rest) ← resolveInOrder resolve world d.name d.args tokens
  match rest with
  | [] => return { keyword := d.name, values }
  | extra :: _ => throw (.tooManyArguments d.name extra.text)

/-- The error of an event that no shape takes. -/
def noMatch {η : Type} (definitions : List (Definition η)) (e : Event) (attempts : List String) :
    ScenarioError :=
  let place := (definitions.head?.map (·.keywordAt)).getD 0
  .noMatchingCommand ((e.items[place]?.map Event.text).getD "") (e.items.length - 1) attempts

/-- The first of several shapes whose arguments can be resolved, or else why none can. -/
def firstFitting {η : Type} (e : Event) :
    List (Definition η) → Eval (Except (List ScenarioError) (Definition η × Args))
  | [] => return .error []
  | d :: ds => do
    match ← (resolveArgs resolve world d (d.argTokens e)).attempt with
    | .ok args => return .ok (d, args)
    | .error error =>
      match ← firstFitting e ds with
      | .ok found => return .ok found
      | .error errors => return .error (error :: errors)

/-- Takes a shape for an event.  The failure of the only shape that recognises the event is the
    failure of all; where several do, all their failures are told. -/
def select {η : Type} (definitions : List (Definition η)) (e : Event) :
    Eval (Definition η × Args) := do
  match definitions.filter (·.recognizes e) with
  | [] =>
    match definitions.find? (·.catchall) with
    | some d => return (d, ← resolveArgs resolve world d e.items)
    | none => throw (noMatch definitions e [])
  | candidates =>
    match ← firstFitting resolve world e candidates with
    | .ok found => return found
    | .error [error] => throw error
    | .error errors =>
      throw (noMatch definitions e
        ((candidates.zip errors).map fun (d, error) => s!"{d.usage}: {error.message}"))

/-- Dispatches an event to the reading of a value. -/
def dispatchFetch {η : Type} (run : η → Args → Eval Value) (definitions : List (Definition η))
    (e : Event) : Eval Value := do
  let (d, args) ← select resolve world definitions e
  run d.handler args

/-- Dispatches an event to a command.  In a dry run a shape that is to be skipped is only logged. -/
def dispatchCommand {η : Type} (run : η → Args → Act World) (definitions : List (Definition η))
    (e : Event) : Act World := do
  let (d, args) ← Act.ofEval (select resolve world definitions e)
  if d.skipOnDryRun && world.settings.dryRun then
    world.addAction s!"Dry run: skipped {e.text}"
  else run d.handler args

end Resolving

end MarketScript
