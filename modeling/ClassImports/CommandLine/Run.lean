import ClassImports.Command
import ClassImports.CommandLine.Arguments

/-!
# The command line

Runs what the arguments ask for. The exit code is 0 on success, 1 when the command fails and 2 on a
usage error. The settings file is looked for in the working directory.
-/

namespace ClassImports.CommandLine

/-- What a run leaves behind. -/
structure Outcome where
  exit : Nat := 0
  stdout : String := ""
  stderr : String := ""
  deriving DecidableEq, Repr, Inhabited

/-- The program's name and version. -/
def versionText : String := "classdeps 0.1.0\n"

/-- How the program is used. -/
def helpText : String :=
  unlines [
    "List the types compiled JVM classes depend on",
    "",
    "Usage: classdeps [OPTIONS] <COMMAND>",
    "",
    "Commands:",
    "  imports [PATH]  List the imports of each class file",
    "  summary [PATH]  Aggregate classes, packages and imports",
    "  pool <PATH>     Dump a class file's constant pool and what each entry contributes",
    "",
    "Options:",
    "  --format <text|json|compact>  Output format",
    "  --include <GLOB>              Include only class files matching this glob",
    "  --exclude <GLOB>              Exclude class files matching this glob",
    "  --ignore <GLOB>               Leave out imports matching this glob",
    "  --config <FILE>               Path to config file",
    "  --keep-self                   Keep each class's own name in its imports",
    "  -h, --help                    Print help",
    "  -V, --version                 Print version"]

/-- A text whose last line is ended. -/
def ended (text : String) : String :=
  match text.toList.getLast? with
  | none => text
  | some '\n' => text
  | some _ => text ++ "\n"

/-- A text with all lines but the first indented. -/
def indented (text : String) : String :=
  String.ofList (text.toList.flatMap fun c => if c = '\n' then "\n    ".toList else [c])

/-- How a failure is told. -/
def failureText (failure : Failure) : String :=
  match failure.cause? with
  | some cause => "Error: " ++ failure.headline ++ "\n\nCaused by:\n    " ++ indented cause ++ "\n"
  | none => "Error: " ++ failure.headline ++ "\n"

/-- How files that could not be read are told. -/
def errorsText (errors : List String) : String :=
  if errors.isEmpty then ""
  else unlines ("" :: "Unreadable class files:" :: errors.map ("  " ++ ·))

/-- The output of a command. -/
def runCommand (fs : FileSystem) (invocation : Invocation) : Except Failure CommandOutput := do
  match invocation.verb with
  | .pool =>
    let output ← Command.pool fs invocation.path invocation.format
    return { output, errors := [] }
  | .imports =>
    let settings ← Settings.load fs fs.workPath invocation.settings
    Command.imports fs invocation.path settings invocation.format
  | .summary =>
    let settings ← Settings.load fs fs.workPath invocation.settings
    Command.summary fs invocation.path settings invocation.format

/-- Runs the program. -/
def run (fs : FileSystem) (arguments : List String) : Outcome :=
  match Request.ofArguments? arguments with
  | none => { exit := 2, stderr := "error: invalid arguments\n\n" ++ helpText }
  | some .version => { stdout := versionText }
  | some .help => { stdout := helpText }
  | some (.run invocation) =>
    match runCommand fs invocation with
    | .ok result => { stdout := ended result.output, stderr := errorsText result.errors }
    | .error failure => { exit := 1, stderr := failureText failure }

end ClassImports.CommandLine
