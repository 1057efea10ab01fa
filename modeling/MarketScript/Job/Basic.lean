/-!
# Jobs

What the program can be asked to do, and how its command line is read.

The command line names a job and its operands.  Switches may stand anywhere after the job's name:
long ones after two hyphens, their values after an equals sign or as the next word, and short ones,
which have no values, together after one hyphen.  After two lone hyphens every word is an operand.
No switch may be given twice.
-/

namespace MarketScript

/-- Settings that take the place of those of a manifest. -/
structure Overrides where
  network : Option String := none
  defaultFrom : Option String := none
  dryRun : Bool := false
deriving DecidableEq

/-- How scripts are run and what is told of the runs. -/
structure RunOptions where
  overrides : Overrides := {}
  /-- Statements after a failed one are carried out. -/
  goOn : Bool := false
  /-- The report of the run is told instead of its transcript. -/
  asJson : Bool := false
  /-- Of the transcript, only complaints are told. -/
  quiet : Bool := false
deriving DecidableEq

/-- What the program is asked to do. -/
inductive Job where
  /-- Runs scripts in order, each in a world of its own. -/
  | run (paths : List String) (options : RunOptions)
  /-- Looks for syntax errors in scripts. -/
  | check (paths : List String)
  /-- Lists the commands and readings that can stand anywhere. -/
  | listCommands
deriving DecidableEq

namespace Job

/-- The switches of a job. -/
structure Switches where
  /-- Switches without values, with their letters. -/
  flags : List (String × Option Char)
  /-- Switches with values. -/
  valued : List String := []

/-- What the words of a command line give. -/
structure Given where
  operands : List String := []
  flags : List String := []
  values : List (String × String) := []

namespace Given

def hasFlag (g : Given) (name : String) : Bool := g.flags.contains name

def value? (g : Given) (name : String) : Option String := g.values.lookup name

def addOperand (g : Given) (text : String) : Option Given :=
  if text.isEmpty then none else some { g with operands := g.operands ++ [text] }

def addFlag (g : Given) (name : String) : Option Given :=
  if g.hasFlag name then none else some { g with flags := name :: g.flags }

def addValue (g : Given) (name value : String) : Option Given :=
  if (g.value? name).isSome then none else some { g with values := (name, value) :: g.values }

end Given

/-- One word of a command line. -/
inductive Word where
  | operand (text : String)
  /-- The end of the switches. -/
  | end
  | long (name : String) (value : Option String)
  | short (letters : List Char)

/-- What a word is.  A lone hyphen is an operand. -/
def Word.ofString (text : String) : Word :=
  match text.toList with
  | ['-', '-'] => .end
  | '-' :: '-' :: cs =>
    let name := String.ofList (cs.takeWhile (· != '='))
    match cs.dropWhile (· != '=') with
    | [] => .long name none
    | _ :: value => .long name (some (String.ofList value))
  | '-' :: c :: letters => .short (c :: letters)
  | _ => .operand text

/-- A word that can be a value on its own. -/
def isOperand (text : String) : Bool :=
  match Word.ofString text with
  | .operand _ => true
  | _ => false

/-- Adds the flag with a letter. -/
def addLetter (s : Switches) (g : Given) (letter : Char) : Option Given := do
  let (name, _) ← s.flags.find? (·.2 == some letter)
  g.addFlag name

/-- Reads the words of a command line. -/
def readWords (s : Switches) : List String → Given → Option Given
  | [], g => some g
  | word :: rest, g =>
    match Word.ofString word with
    | .end => rest.foldlM Given.addOperand g
    | .operand text => do readWords s rest (← g.addOperand text)
    | .short letters => do readWords s rest (← letters.foldlM (addLetter s) g)
    | .long name (some value) => do
      if s.valued.contains name then readWords s rest (← g.addValue name value) else none
    | .long name none => do
      if s.valued.contains name then
        match rest with
        | value :: rest =>
          if isOperand value then readWords s rest (← g.addValue name value) else none
        | [] => none
      else if s.flags.any (·.1 == name) then readWords s rest (← g.addFlag name)
      else none

/-- The switch of every job; it asks for details that the program has none of. -/
def verbose : String × Option Char := ("verbose", some 'v')

/-- The switches of `run`. -/
def runSwitches : Switches :=
  { flags := [verbose, ("quiet", some 'q'), ("json", none), ("continue", none), ("dry-run", none)],
    valued := ["network", "from"] }

/-- The switches of the other jobs. -/
def plainSwitches : Switches := { flags := [verbose] }

/-- What the words after `run` ask for. -/
def runOptions (g : Given) : RunOptions :=
  { overrides := { network := g.value? "network", defaultFrom := g.value? "from",
                   dryRun := g.hasFlag "dry-run" },
    goOn := g.hasFlag "continue", asJson := g.hasFlag "json", quiet := g.hasFlag "quiet" }

/-- The job that a name and the words after it ask for. -/
def ofWords? (name : String) (words : List String) : Option Job :=
  match name with
  | "run" => do
    let g ← readWords runSwitches words {}
    if g.operands.isEmpty then none else some (run g.operands (runOptions g))
  | "check" => do
    let g ← readWords plainSwitches words {}
    if g.operands.isEmpty then none else some (check g.operands)
  | "commands" => do
    let g ← readWords plainSwitches words {}
    if g.operands.isEmpty then some listCommands else none
  | _ => none

/-- The job that a command line asks for.  The switch of every job may stand before its name. -/
def ofArgs? : List String → Option Job
  | "-v" :: name :: words | "--verbose" :: name :: words => ofWords? name words
  | name :: words => ofWords? name words
  | [] => none

/-- What is told where a command line asks for no job. -/
def usage : String :=
  "usage: run <script>... [--network <name>] [--from <account>] [--dry-run] [--continue]\n" ++
  "           [--json] [--quiet]\n" ++
  "       check <script>...\n" ++
  "       commands"

end Job

end MarketScript
