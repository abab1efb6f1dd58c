import ClassImports.Failure
import ClassImports.Report

/-!
# Analysis of class files

Reads class files and reports on each. A file that cannot be read or is no class file gives an
error message instead of a report and does not affect the others. Reports come in the order of
their paths, messages in the order of the files.
-/

namespace ClassImports

/-- Reads the class file at a path. -/
def FileSystem.readClass (fs : FileSystem) (path : String) : Except Failure ClassFile :=
  match fs.read path with
  | .error error => .error (.classUnreadable path error)
  | .ok content => (ClassFile.ofBytes content).mapError (.classInvalid path)

/-- What became of some files. -/
structure Analysis where
  reports : List Report
  /-- What is told of the files without a report. -/
  errors : List String
  deriving DecidableEq, Repr, Inhabited

namespace Analysis

/-- The report on the file at a path, or why there is none. -/
def reportOn (fs : FileSystem) (options : ReportOptions) (path : String) :
    Except Failure Report :=
  (fs.readClass path).map fun file => Report.ofClassFile path file options

/-- The results that are values. -/
def successes {α : Type} (results : List (Except Failure α)) : List α :=
  results.filterMap Except.toOption

/-- The messages of the results that are failures. -/
def messages {α : Type} (results : List (Except Failure α)) : List String :=
  results.filterMap fun result =>
    match result with
    | .ok _ => none
    | .error failure => some failure.message

/-- Reads and reports on the files at the given paths. -/
def run (fs : FileSystem) (options : ReportOptions) (paths : List String) : Analysis :=
  let results := paths.map (reportOn fs options)
  { reports := (successes results).mergeSort fun a b => Path.le a.path b.path
    errors := messages results }

end Analysis

end ClassImports
