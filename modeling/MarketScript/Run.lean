import MarketScript.Command
import MarketScript.Statement

/-!
# Runs

A script is run statement by statement, each sent by the world's default sender.  A statement that
fails leaves the world as it was; the run stops there unless it is told to go on.
-/

namespace MarketScript

/-- A statement that was not carried out. -/
structure StatementFailure where
  line : Nat
  event : Event
  error : ScenarioError

/-- What a run came to: the world after the last statement that was carried out, and the failures
    in the order of their statements. -/
structure RunReport where
  world : World
  failures : List StatementFailure

namespace RunReport

def isSuccess (r : RunReport) : Bool := r.failures.isEmpty

/-- A failure in a report. -/
def failureJson (f : StatementFailure) : Json :=
  .ofMembers [("line", .number f.line), ("event", .string f.event.text),
    ("error", .string f.error.message)]

def toJson (r : RunReport) : Json :=
  .ofMembers [("success", .bool r.isSuccess),
    ("failures", .array (r.failures.map failureJson)), ("world", r.world.toJson)]

end RunReport

namespace World

/-- The world and the stage at the start of a run that a manifest sets up, on a new chain of the
    manifest's network. -/
def start (runId : String) (m : Manifest) : Except ScenarioError (World × Stage) := do
  return (← ofManifest runId m, { chain := { network := m.network } })

/-- Carries out one statement. -/
def runStatement (w : World) (s : Statement) (stage : Stage) : Except ScenarioError World × Stage :=
  match w.defaultFrom with
  | .ok sender => w.command sender s.event stage
  | .error e => (.error e, stage)

/-- The stage after a statement has failed: the transcript tells the line and the error. -/
def complain (s : Statement) (e : ScenarioError) (stage : Stage) : Stage :=
  { stage with transcript := stage.transcript ++ [.complaint s!"line {s.line}: {e.message}"] }

/-- Runs statements in order, also past a failure if `goOn` says so. -/
def run (goOn : Bool) : List Statement → World → Stage → RunReport × Stage
  | [], w, stage => ({ world := w, failures := [] }, stage)
  | s :: rest, w, stage =>
    match w.runStatement s stage with
    | (.ok w, stage) => run goOn rest w stage
    | (.error error, stage) =>
      let stage := complain s error stage
      let failure : StatementFailure := { line := s.line, event := s.event, error }
      if goOn then
        let (report, stage) := run goOn rest w stage
        ({ report with failures := failure :: report.failures }, stage)
      else ({ world := w, failures := [failure] }, stage)

/-- Reads and runs a script up to its first failure, which is the failure of all. -/
def runSource (w : World) (source : String) (stage : Stage) :
    Except ScenarioError World × Stage :=
  match Statement.parse source with
  | (statements, []) =>
    let (report, stage) := w.run false statements stage
    match report.failures with
    | [] => (.ok report.world, stage)
    | failure :: _ => (.error failure.error, stage)
  | (_, diagnostics) =>
    (.error (.parse (String.intercalate "; " (diagnostics.map Diagnostic.text))), stage)

end World

end MarketScript
