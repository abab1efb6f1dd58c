import ClassImports.Discovery
import ClassImports.Report

/-!
# Settings

What a command goes by: the settings file of the project, and the settings of the command line on
top of it. Patterns of the command line are added to those of the file. A settings file that is
named must exist; otherwise it is looked for in the project, and there need not be one.
-/

namespace ClassImports

/-- The settings of the command line. -/
structure CommandSettings where
  /-- The settings file to use. -/
  config : Option String := none
  includes : List String := []
  excludes : List String := []
  ignores : List String := []
  keepSelf : Bool := false
  deriving DecidableEq, Repr, Inhabited

/-- The settings that are in effect. -/
structure Settings where
  discovery : DiscoveryOptions := {}
  report : ReportOptions := {}

namespace Config

/-- Where a settings file is looked for, in this order. -/
def fileNames : List String := [".classdeps/config.toml", "classdeps.toml"]

/-- The settings file to use, if there is one: the given one, or the first that exists in the
project. -/
def find? (fs : FileSystem) (project : String) (given : Option String) : Option String :=
  match given with
  | some path => if fs.pathExists path then some path else none
  | none => (fileNames.map (Path.join project)).find? fs.pathExists

/-- Reads the settings file at a path. -/
def load (fs : FileSystem) (path : String) : Except Failure Config :=
  match fs.readText path with
  | .error error => .error (.configUnreadable path error)
  | .ok text => (ofToml text).mapError (.configInvalid path)

/-- The settings of a project. -/
def resolve (fs : FileSystem) (project : String) (given : Option String) :
    Except Failure Config :=
  match find? fs project given, given with
  | some path, _ => load fs path
  | none, some path => .error (.configNotFound path)
  | none, none => .ok {}

end Config

namespace Settings

/-- The settings of a project's file and of the command line together. -/
def merge (config : Config) (command : CommandSettings) : Except Failure Settings := do
  let filter ← (ImportFilter.ofPatterns (config.ignores ++ command.ignores)).mapError .badIgnore
  return {
    discovery := {
      includes := config.includes ++ command.includes
      excludes := config.excludes ++ command.excludes }
    report := { filter, dropSelf := config.dropSelf && !command.keepSelf } }

/-- The settings that are in effect for a project. -/
def load (fs : FileSystem) (project : String) (command : CommandSettings) :
    Except Failure Settings := do
  merge (← Config.resolve fs project command.config) command

end Settings

end ClassImports
