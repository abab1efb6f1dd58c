import ClassImports.ClassFile.Json
import ClassImports.Import.Scan
import ClassImports.ImportFilter

/-!
# Reports

What is told about one class: where it was found, its name and that of its superclass, its format
version and the release that it needs, and its imports without those that the options leave out. As
text, a report is a line for the class and an indented line for each import.
-/

namespace ClassImports

/-- Which imports of a class to report. -/
structure ReportOptions where
  filter : ImportFilter := {}
  /-- Leave out the class's own name. -/
  dropSelf : Bool := true

/-- What is told about one class. -/
structure Report where
  path : String
  className : Option String
  superClass : Option String
  version : Version
  /-- The text of the release that the class needs. -/
  revision : String := version.release.text
  imports : List String
  deriving DecidableEq, Repr, Inhabited

namespace Report

/-- The report on a class file found at `path`. -/
def ofClassFile (path : String) (file : ClassFile) (options : ReportOptions) : Report :=
  let className := file.className?
  let others := file.pool.imports.toList.filter fun name =>
    !(options.dropSelf && className == some name)
  { path
    className
    superClass := file.superClassName?
    version := file.version
    revision := file.version.release.text
    imports := others.filter options.filter.retains }

/-- The release that the class needs, by its version. -/
def release (report : Report) : Release :=
  report.version.release

/-- The line for the class. -/
def header (report : Report) : String :=
  report.className.getD "<unnamed>" ++ " (" ++ report.path ++ ", Java " ++ report.revision ++ ")"

/-- The lines of a report. -/
def lines (report : Report) : List String :=
  report.header :: report.imports.map ("  " ++ ·)

/-- A report as JSON. -/
def toJson (report : Report) : Json :=
  .object [
    ("path", .string report.path),
    ("class_name", .ofText? report.className),
    ("super_class", .ofText? report.superClass),
    ("version", report.version.toJson),
    ("jdk_revision", .string report.revision),
    ("imports", .ofTexts report.imports)]

end Report

/-- A text of the given lines, each of them ended. -/
def unlines (lines : List String) : String :=
  String.join (lines.map (· ++ "\n"))

/-- Reports as text. -/
def Report.listText (reports : List Report) : String :=
  unlines (reports.flatMap lines)

/-- Reports in a format. -/
def Report.renderAll (reports : List Report) : Format → String
  | .text => listText reports
  | format => (Json.array (reports.map toJson)).render format

end ClassImports
