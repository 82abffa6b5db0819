import PlanScribe.Cli.Action

/-!
# The program

Reads the plan file, carries the action of the command out on disk, and prints the report.
-/
namespace PlanScribe.Cli

/-- The bytes of a file on disk. -/
def readDisk (path : Path) : IO (Option Bytes) := do
  try
    let bytes ← IO.FS.readBinFile path
    return some bytes.toList
  catch _ => return none

/-- There is something on disk at the path. -/
def onDisk (path : Path) : IO Bool := do
  try
    let _ ← IO.FS.Handle.mk path .read
    return true
  catch _ => return false

/-- Writes a file on disk under a rule for existing files; `none` if it cannot be written. -/
def writeDisk (path : Path) (overwrite : Overwrite) (content : Bytes) :
    IO (Option WriteResult) := do
  if overwrite = .ifMissing && (← onDisk path) then return some .skipped
  try
    for parent in path.parents do
      IO.FS.createDirAll parent
    IO.FS.writeBinFile path ⟨content.toArray⟩
    return some .written
  catch _ => return none

/-- Carries an action out on disk. -/
def Action.performOnDisk : Action → IO Outcome
  | write path overwrite text summary => do
    let result ← writeDisk path overwrite (encodeText text)
    return outcomeOfWrite path summary {} result
  | action => return action.perform {}

end PlanScribe.Cli

open PlanScribe.Cli in
/-- Runs a command line; the exit code tells whether it succeeded. -/
def main (arguments : List String) : IO UInt32 := do
  let outcome ← match readCommand arguments with
    | .error e => pure { exit := usageExit, stderr := printed [e.message], files := {} }
    | .ok command => do
      let content ← match command.plan? with
        | some path => readDisk path
        | none => pure none
      (command.action content).performOnDisk
  IO.print outcome.stdout
  IO.eprint outcome.stderr
  return UInt32.ofNat outcome.exit
