import ClassImports.Analysis
import ClassImports.PoolDump
import ClassImports.Settings
import ClassImports.Summary

/-!
# Commands

The three things that can be asked for: the imports of each class below a path, a summary of these
classes, and the dump of one class file's pool.
-/

namespace ClassImports

/-- The outcome of a command: its output, and what is told of files that could not be read. -/
structure CommandOutput where
  output : String
  errors : List String
  deriving DecidableEq, Repr, Inhabited

namespace Command

/-- Finds and analyses the class files at and below a path. This fails if there are class files
and none of them can be read. -/
def scan (fs : FileSystem) (target : String) (settings : Settings) : Except Failure Analysis := do
  let paths ← Discovery.run fs target settings.discovery
  let analysis := Analysis.run fs settings.report paths
  match analysis.reports, analysis.errors with
  | [], first :: rest => .error (.noReadableClass target (rest.length + 1) first)
  | _, _ => .ok analysis

/-- The imports of each class at and below a path. -/
def imports (fs : FileSystem) (target : String) (settings : Settings) (format : Format) :
    Except Failure CommandOutput :=
  (scan fs target settings).map fun analysis =>
    { output := Report.renderAll analysis.reports format, errors := analysis.errors }

/-- The summary of the classes at and below a path. -/
def summary (fs : FileSystem) (target : String) (settings : Settings) (format : Format) :
    Except Failure CommandOutput :=
  (scan fs target settings).map fun analysis =>
    { output := (Summary.ofReports analysis.reports).render format, errors := analysis.errors }

/-- The dump of a class file's pool. -/
def pool (fs : FileSystem) (target : String) (format : Format) : Except Failure String :=
  (fs.readClass target).map fun file => PoolRow.renderAll file.pool.rows format

end Command

end ClassImports
