import MarketScript.Job.Basic
import MarketScript.Job.Host
import MarketScript.Run

/-!
# Carrying out jobs

What the program tells, line by line, and whether it succeeds.  Every script of a job is dealt with,
also after one that failed.
-/

namespace MarketScript

/-- A line that the program tells. -/
inductive Told where
  | out (text : String)
  | err (text : String)
deriving DecidableEq

/-- What a job comes to. -/
structure JobResult where
  told : List Told
  success : Bool

namespace JobResult

/-- A failure that is told in lines of errors. -/
def failure (texts : List String) : JobResult := { told := texts.map .err, success := false }

/-- What two jobs come to, one after the other. -/
def append (a b : JobResult) : JobResult :=
  { told := a.told ++ b.told, success := a.success && b.success }

/-- What several jobs come to. -/
def join : List JobResult → JobResult
  | [] => { told := [], success := true }
  | o :: os => o.append (join os)

/-- The texts for the standard output. -/
def outLines (o : JobResult) : List String :=
  o.told.filterMap fun
    | .out text => some text
    | .err _ => none

/-- The texts for the standard error output. -/
def errLines (o : JobResult) : List String :=
  o.told.filterMap fun
    | .out _ => none
    | .err text => some text

/-- The exit status. -/
def status (o : JobResult) : Nat := if o.success then 0 else 1

end JobResult

/-- A manifest with settings of the command line. -/
def Overrides.apply (o : Overrides) (m : Manifest) : Manifest :=
  { m with network := o.network.getD m.network, defaultFrom := o.defaultFrom.getD m.defaultFrom,
           dryRun := o.dryRun || m.dryRun }

namespace Job

/-- The last step of a path that names a file. -/
def fileName (path : String) : String :=
  (((path.splitOn "/").filter fun step => step != "" && step != ".").getLast?).getD ""

/-- The line that is told of one failure after a run. -/
def failureLine (path : String) (f : StatementFailure) : String :=
  s!"{fileName path}:{f.line}: {f.event.text} failed"

/-- How a line of a transcript is told. -/
def tell (quiet : Bool) : Line → Option Told
  | .note text => if quiet then none else some (.out text)
  | .complaint text => some (.err text)

/-- Runs the statements of a script in the world that a manifest sets up. -/
def runStatements (runId path : String) (options : RunOptions) (m : Manifest)
    (statements : List Statement) : JobResult :=
  match World.start runId m with
  | .error e => .failure [s!"error: {e.message}"]
  | .ok (w, stage) =>
    let greeting : List Line :=
      if m.verbose then [.note s!"Running {fileName path} on {m.network} (run {runId})"] else []
    let (report, stage) := w.run options.goOn statements stage
    let told : List Told :=
      if options.asJson then [.out report.toJson.print]
      else (greeting ++ stage.transcript).filterMap (tell options.quiet) ++
        report.failures.map fun f => .err (failureLine path f)
    { told, success := report.isSuccess }

/-- The outcome of a script that cannot be read. -/
def unreadable (path : String) (e : ReadError) : JobResult :=
  .failure [s!"error: could not read '{path}': {e.message}"]

/-- Reads the statements of a script; its syntax errors are a failure. -/
def statementsOf (source : String) : Except JobResult (List Statement) :=
  match Statement.parse source with
  | (statements, []) => .ok statements
  | (_, diagnostics) => .error (.failure (diagnostics.map Diagnostic.text))

/-- Looks for syntax errors in the text of a script. -/
def checkSource (path source : String) : JobResult :=
  match statementsOf source with
  | .error o => o
  | .ok statements =>
    { told := [.out s!"{path}: {statements.length} statement(s), no errors."], success := true }

/-- A text with blanks after it up to a width. -/
def padded (width : Nat) (text : String) : String :=
  text ++ String.ofList (List.replicate (width - text.length) ' ')

/-- A shape in a list of shapes. -/
def shapeLine {η : Type} (d : Definition η) : String :=
  s!"  {padded 40 d.usage} {d.description}"

/-- The list of commands and readings; the reading of bare literals has no keyword and is left
    out. -/
def commandList : List String :=
  "Commands:" :: CommandTable.topLevel.shapes.map shapeLine ++
  "" :: "Fetchers:" ::
    (FetchTable.topLevel.shapes.filter (fun d => ! d.catchall)).map shapeLine

section

variable {m : Type → Type} [Monad m] (host : Host m)

/-- Runs the script at the end of a path. -/
def runScript (options : RunOptions) (path : String) : m JobResult := do
  match ← host.read path with
  | .error e => return unreadable path e
  | .ok found =>
    match statementsOf found.content with
    | .error o => return o
    | .ok statements =>
      match ← host.manifestFor found.directory with
      | .error e => return .failure [s!"error: {e.message}"]
      | .ok manifest =>
        return runStatements (← host.newRunId) path options (options.overrides.apply manifest)
          statements

/-- Looks for syntax errors in the script at the end of a path. -/
def checkScript (path : String) : m JobResult := do
  match ← host.read path with
  | .error e => return unreadable path e
  | .ok found => return checkSource path found.content

/-- Carries out a job. -/
def perform : Job → m JobResult
  | run paths options => do return .join (← paths.mapM (runScript host options))
  | check paths => do return .join (← paths.mapM (checkScript host))
  | listCommands => return { told := commandList.map .out, success := true }

end

end Job

end MarketScript
