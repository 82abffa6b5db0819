import PlanScribe.Storage.Path

/-!
# Command lines

The commands and the options that each of them takes. Options may stand before or after the other
arguments; after two dashes alone everything is an argument. Help is given as soon as it is asked
for, while missing and conflicting arguments are noticed only at the end.
-/
namespace PlanScribe.Cli

/-- The shells that completion scripts are made for. -/
inductive Shell
  | bash
  | elvish
  | fish
  | powershell
  | zsh
deriving DecidableEq, Repr

def Shell.ofName? : String → Option Shell
  | "bash" => some .bash
  | "elvish" => some .elvish
  | "fish" => some .fish
  | "powershell" => some .powershell
  | "zsh" => some .zsh
  | _ => none

/-- What the program is asked to do. -/
inductive Command
  | render (plan : Path) (output : Option Path) (dryRun noClobber : Bool)
  | check (plan : Path)
  | demo (output : Option Path) (dryRun : Bool)
  | completions (shell : Shell)
  | help
  | version
deriving DecidableEq, Repr

/-- Why a command line is refused. -/
inductive UsageError
  | missingCommand
  | unknownCommand (name : String)
  | unknownOption (name : String)
  | unexpectedArgument (argument : String)
  | unexpectedValue (option : String)
  | missingArgument (name : String)
  | missingValue (option : String)
  | emptyValue (name : String)
  | invalidShell (name : String)
  | repeatedOption (option : String)
  | conflict (option other : String)
deriving DecidableEq, Repr

def UsageError.message : UsageError → String
  | missingCommand => "a command is required"
  | unknownCommand name => s!"unrecognized command '{name}'"
  | unknownOption name => s!"unexpected option '{name}'"
  | unexpectedArgument argument => s!"unexpected argument '{argument}'"
  | unexpectedValue option => s!"option '{option}' takes no value"
  | missingArgument name => s!"the argument '{name}' is required"
  | missingValue option => s!"a value is required for '{option}'"
  | emptyValue name => s!"the value of '{name}' must not be empty"
  | invalidShell name => s!"there are no completions for '{name}'"
  | repeatedOption option => s!"option '{option}' cannot be used more than once"
  | conflict option other => s!"option '{option}' cannot be used together with '{other}'"

/-- The commands by name. -/
inductive CommandName
  | render
  | check
  | demo
  | completions
deriving DecidableEq, Repr

namespace CommandName

def ofName? : String → Option CommandName
  | "render" => some render
  | "check" => some check
  | "demo" => some demo
  | "completions" => some completions
  | _ => none

def takesOutput : CommandName → Bool
  | render | demo => true
  | check | completions => false

def takesDryRun : CommandName → Bool := takesOutput

def takesNoClobber : CommandName → Bool
  | render => true
  | _ => false

/-- The name of the argument that the command takes. -/
def argument? : CommandName → Option String
  | render | check => some "plan"
  | completions => some "shell"
  | demo => none

end CommandName

/-- The arguments and options of a command that were read so far. -/
structure Given where
  argument : Option String := none
  output : Option Path := none
  dryRun : Bool := false
  noClobber : Bool := false
deriving DecidableEq, Repr

/-- An option as it is written on the command line. -/
inductive Flag
  | help
  | dryRun
  | noClobber
  /-- The output option, with the value that is attached to it. -/
  | output (attached : Option String)
deriving DecidableEq, Repr

/-- The argument looks like an option: a dash, and more after it. -/
def looksLikeOption (argument : String) : Bool :=
  match argument.toList with
  | '-' :: _ :: _ => true
  | _ => false

/-- A long option without its dashes: its name, and the value after the first equals sign. -/
def splitLong (text : List Char) : String × Option String :=
  match text.dropWhile (· != '=') with
  | [] => (String.ofList text, none)
  | _ :: value => (String.ofList (text.takeWhile (· != '=')), some (String.ofList value))

/-- The option that a command takes under a long name. -/
def longFlag (command : CommandName) (name : String) (value : Option String) :
    Except UsageError Flag :=
  let plain (flag : Flag) : Except UsageError Flag :=
    if value.isSome then .error (.unexpectedValue name) else .ok flag
  match name with
  | "help" => plain .help
  | "output" =>
    if command.takesOutput then .ok (.output value) else .error (.unknownOption name)
  | "dry-run" => if command.takesDryRun then plain .dryRun else .error (.unknownOption name)
  | "no-clobber" =>
    if command.takesNoClobber then plain .noClobber else .error (.unknownOption name)
  | _ => .error (.unknownOption name)

/-- The option that a command takes under a single letter. What follows the letter of the output
option is its value, which an equals sign may precede. -/
def shortFlag (command : CommandName) (letter : Char) (rest : List Char) :
    Except UsageError Flag :=
  if letter == 'h' then .ok .help
  else if letter == 'o' && command.takesOutput then
    match rest with
    | [] => .ok (.output none)
    | '=' :: value => .ok (.output (some (String.ofList value)))
    | value => .ok (.output (some (String.ofList value)))
  else .error (.unknownOption (String.singleton letter))

/-- The option that an argument stands for, if it looks like one. -/
def flag? (command : CommandName) (argument : String) : Option (Except UsageError Flag) :=
  match argument.toList with
  | '-' :: '-' :: rest =>
    let (name, value) := splitLong rest
    some (longFlag command name value)
  | '-' :: letter :: rest => some (shortFlag command letter rest)
  | _ => none

namespace Given

/-- Adds the argument of a command. -/
def addArgument (given : Given) (command : CommandName) (argument : String) :
    Except UsageError Given :=
  match command.argument?, given.argument with
  | none, _ | _, some _ => .error (.unexpectedArgument argument)
  | some name, none =>
    if argument = "" then .error (.emptyValue name)
    else if command = .completions && (Shell.ofName? argument).isNone then
      .error (.invalidShell argument)
    else .ok { given with argument := some argument }

def addOutput (given : Given) (path : Path) : Except UsageError Given :=
  if path = "" then .error (.emptyValue "output")
  else if given.output.isSome then .error (.repeatedOption "output")
  else .ok { given with output := some path }

def addDryRun (given : Given) : Except UsageError Given :=
  if given.dryRun then .error (.repeatedOption "dry-run") else .ok { given with dryRun := true }

def addNoClobber (given : Given) : Except UsageError Given :=
  if given.noClobber then .error (.repeatedOption "no-clobber")
  else .ok { given with noClobber := true }

/-- The command with all its arguments. -/
def finish (given : Given) (command : CommandName) : Except UsageError Command :=
  if given.dryRun && given.output.isSome then .error (.conflict "output" "dry-run")
  else match command, given.argument with
    | .demo, _ => .ok (.demo given.output given.dryRun)
    | .render, some plan => .ok (.render plan given.output given.dryRun given.noClobber)
    | .check, some plan => .ok (.check plan)
    | .completions, some name =>
      match Shell.ofName? name with
      | some shell => .ok (.completions shell)
      | none => .error (.invalidShell name)
    | .render, none | .check, none => .error (.missingArgument "plan")
    | .completions, none => .error (.missingArgument "shell")

end Given

/-- Reads what follows the name of a command. After `plainOnly` there are no more options. -/
def readArguments (command : CommandName) :
    (plainOnly : Bool) → Given → List String → Except UsageError Command
  | _, given, [] => given.finish command
  | true, given, argument :: rest =>
    (given.addArgument command argument).bind fun given => readArguments command true given rest
  | false, given, argument :: rest =>
    if argument = "--" then readArguments command true given rest
    else match flag? command argument with
      | none =>
        (given.addArgument command argument).bind fun given =>
          readArguments command false given rest
      | some (.error e) => .error e
      | some (.ok .help) => .ok .help
      | some (.ok .dryRun) =>
        given.addDryRun.bind fun given => readArguments command false given rest
      | some (.ok .noClobber) =>
        given.addNoClobber.bind fun given => readArguments command false given rest
      | some (.ok (.output (some path))) =>
        (given.addOutput path).bind fun given => readArguments command false given rest
      | some (.ok (.output none)) =>
        match rest with
        | [] => .error (.missingValue "output")
        | path :: rest =>
          if looksLikeOption path then .error (.missingValue "output")
          else (given.addOutput path).bind fun given => readArguments command false given rest

/-- The option that may stand in the place of a command. -/
def globalOption (argument : String) : Except UsageError Command :=
  match argument.toList with
  | ['-', '-', 'h', 'e', 'l', 'p'] => .ok .help
  | ['-', '-', 'v', 'e', 'r', 's', 'i', 'o', 'n'] => .ok .version
  | '-' :: '-' :: _ => .error (.unknownOption argument)
  | '-' :: 'h' :: _ => .ok .help
  | '-' :: 'V' :: _ => .ok .version
  | _ => .error (.unknownOption argument)

/-- Reads a whole command line. -/
def readCommand : List String → Except UsageError Command
  | [] => .error .missingCommand
  | "help" :: rest =>
    match rest with
    | [] => .ok .help
    | [name] =>
      if name = "help" || (CommandName.ofName? name).isSome then .ok .help
      else .error (.unknownCommand name)
    | _ :: extra :: _ => .error (.unknownCommand extra)
  | name :: rest =>
    if looksLikeOption name then globalOption name
    else match CommandName.ofName? name with
      | some command => readArguments command false {} rest
      | none => .error (.unknownCommand name)

end PlanScribe.Cli
