import MarketScript.Job

/-!
# The program

Reads the command line, carries out the job that it asks for on the machine's file system, and
tells what comes of it.
-/

namespace MarketScript

/-- What is found in the machine's file system. -/
def lookOnDisk (steps : List String) : IO Entry := do
  try
    let bytes ← IO.FS.readBinFile ("/" ++ String.intercalate "/" steps)
    match String.fromUTF8? bytes with
    | some content => return .text content
    | none => return .unreadable "stream did not contain valid UTF-8"
  catch
    | .noFileOrDirectory _ _ _ => return .absent
    | .inappropriateType _ _ _ => return .directory
    | e => return .unreadable (toString e)

/-- A random name for a run: thirty-two digits of base sixteen in five groups. -/
def randomRunId : IO String := do
  let bytes := (← IO.getRandomBytes 16).data.toList.map UInt8.toNat
  let marked := bytes.zipIdx.map fun (b, i) =>
    if i == 6 then 0x40 + b % 16 else if i == 8 then 0x80 + b % 64 else b
  let digits := marked.flatMap fun b => [Nat.digitChar (b / 16), Nat.digitChar (b % 16)]
  let group (start length : Nat) : String := String.ofList ((digits.drop start).take length)
  return String.intercalate "-" [group 0 8, group 8 4, group 12 4, group 16 4, group 20 12]

/-- The machine that the program runs on. -/
def machine : IO (Host IO) := do
  let here := toString (← IO.currentDir)
  let steps := (here.splitOn "/").filter (· != "")
  return { workingDirectory := steps.reverse, look := lookOnDisk, newRunId := randomRunId }

end MarketScript

open MarketScript in
/-- The program: its exit status is zero if the job succeeds, one if it fails, and two if the command
    line asks for none. -/
def main (args : List String) : IO UInt32 := do
  match Job.ofArgs? args with
  | none => do
    IO.eprintln Job.usage
    return 2
  | some job => do
    let outcome ← job.perform (← machine)
    for line in outcome.told do
      match line with
      | .out text => IO.println text
      | .err text => IO.eprintln text
    return outcome.status.toUInt32
