import PlanScribe.Cli.Command
import PlanScribe.Cli.Report
import PlanScribe.Cli.Demo
import PlanScribe.Plan.File

/-!
# Running commands

A command is first turned into an action, which says what to print and which file to write; only
then is anything touched. The action of a command depends on nothing but the content of its plan
file.
-/
namespace PlanScribe.Cli

/-- What is left to do once a command is understood and its plan is rendered. -/
inductive Action
  /-- Prints a text and succeeds. -/
  | print (text : String)
  /-- Writes a file and reports about it. -/
  | write (path : Path) (overwrite : Overwrite) (text : String) (summary : Summary)
  /-- Ends with an exit code and a message. -/
  | fail (exit : Nat) (message : String)

/-- The exit code for a plan or an output file that cannot be used. -/
def failureExit : Nat := 1

/-- The exit code for a command line that cannot be understood. -/
def usageExit : Nat := 2

def usageText : String :=
  printed
    ["Generate Python source files from TOML or JSON plans", "",
      "Usage: pygen <COMMAND>", "",
      "  render <PLAN> [-o <FILE>] [--dry-run] [--no-clobber]",
      "  check <PLAN>", "  demo [-o <FILE>] [--dry-run]",
      "  completions <bash|elvish|fish|powershell|zsh>"]

def versionText : String := printed ["pygen 0.1.0"]

/-- The words that a shell completes. -/
def completionWords : String := printed ["render check demo completions help"]

/-- The action of rendering a loaded plan. -/
def renderAction (file : PlanFile) (output : Option Path) (dryRun noClobber : Bool) : Action :=
  let plan := file.plan
  let summary : Summary :=
    { source := some file.path, classes := plan.classes.length,
      functions := plan.functions.length }
  match plan.render with
  | .error e => .fail failureExit e.message
  | .ok text =>
    if dryRun then .print (summary.preview text)
    else
      let overwrite := if noClobber then .ifMissing else plan.document.overwrite
      .write (output.getD file.defaultOutput) overwrite text summary

/-- The action of checking a loaded plan, which must also render. -/
def checkAction (file : PlanFile) : Action :=
  match file.plan.render with
  | .error e => .fail failureExit e.message
  | .ok _ => .print (checkReport file.path file.plan)

/-- The action of the demonstration. -/
def demoAction (output : Option Path) (dryRun : Bool) : Action :=
  let built := buildDemo (Document.create {} (some {}))
  let summary : Summary :=
    { source := none, classes := built.state.classes.length,
      functions := built.state.functions.length }
  match built.error, built.state.render.result with
  | some e, _ | none, .error e => .fail failureExit e.message
  | none, .ok text =>
    if dryRun then .print (summary.preview text)
    else .write (output.getD "demo.py") .always text summary

/-- What a command does with a loaded plan. -/
def withPlan (loaded : Except PlanError PlanFile) (action : PlanFile → Action) : Action :=
  match loaded with
  | .error e => .fail failureExit e.message
  | .ok file => action file

/-- The plan file that a command reads. -/
def Command.plan? : Command → Option Path
  | render plan .. | check plan => some plan
  | demo .. | completions _ | help | version => none

/-- The action of a command, given the content of its plan file. -/
def Command.action (content : Option Bytes) : Command → Action
  | render plan output dryRun noClobber =>
    withPlan (PlanFile.ofBytes plan content) fun file => renderAction file output dryRun noClobber
  | check plan => withPlan (PlanFile.ofBytes plan content) checkAction
  | demo output dryRun => demoAction output dryRun
  | completions _ => .print completionWords
  | help => .print usageText
  | version => .print versionText

/-- What came of a command. -/
structure Outcome where
  exit : Nat
  stdout : String := ""
  stderr : String := ""
  files : FileTree

/-- What is printed once a destination was written, kept or refused. -/
def outcomeOfWrite (path : Path) (summary : Summary) (files : FileTree) :
    Option WriteResult → Outcome
  | some .written => { exit := 0, stdout := summary.written path, files }
  | some .skipped => { exit := 0, stderr := Summary.kept path, files }
  | none => { exit := failureExit, stderr := printed ["Failed to write " ++ path], files }

/-- Carries an action out. -/
def Action.perform (files : FileTree) : Action → Outcome
  | print text => { exit := 0, stdout := text, files }
  | fail exit message => { exit, stderr := printed [message], files }
  | write path overwrite text summary =>
    match files.writeDestination path overwrite (encodeText text) with
    | (left, result) => outcomeOfWrite path summary left result

/-- Runs a command line in a directory. -/
def run (arguments : List String) (files : FileTree) : Outcome :=
  match readCommand arguments with
  | .error e => { exit := usageExit, stderr := printed [e.message], files }
  | .ok command => (command.action (command.plan?.bind files.read?)).perform files

end PlanScribe.Cli
