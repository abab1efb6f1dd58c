import ClassImports.Report

/-!
# Summaries

What is told about several classes together: how many they are, their names and packages, all
their imports and the packages of these, and the highest format version among them. Packages are
in ascending order, each once; imports stand where they were first found.
-/

namespace ClassImports

/-- What is told about several classes together. -/
structure Summary where
  classCount : Nat
  classNames : List String
  packages : List String
  imports : ImportSet
  importedPackages : List String
  highestVersion : Option Version

namespace Summary

/-- Texts in ascending order, each once. -/
def ascending (texts : List String) : List String :=
  (texts.mergeSort fun a b => decide (a ≤ b)).eraseReps

/-- The packages of names, in ascending order; the default package does not count. -/
def packagesOf (names : List String) : List String :=
  ascending ((names.map packageOf).filter (· ≠ ""))

/-- The highest of some versions. -/
def highest? (versions : List Version) : Option Version :=
  versions.foldl (fun best version => some (best.elim version (·.later version))) none

/-- The summary of reports. -/
def ofReports (reports : List Report) : Summary :=
  let classNames := reports.filterMap (·.className)
  let imports := ImportSet.ofList (reports.flatMap (·.imports))
  { classCount := reports.length
    classNames
    packages := packagesOf classNames
    imports
    importedPackages := packagesOf imports.toList
    highestVersion := highest? (reports.map (·.version)) }

/-- The release that the classes need. -/
def release? (summary : Summary) : Option Release :=
  summary.highestVersion.map (·.release)

/-- What the first line says about the highest version. -/
def requirement (summary : Summary) : String :=
  match summary.highestVersion with
  | some version =>
    " (requires Java " ++ version.release.text ++ ", class version " ++ version.text ++ ")"
  | none => ""

/-- The first line of a summary. -/
def headline (summary : Summary) : String :=
  toString summary.classCount ++ " classes in " ++ toString summary.packages.length ++
    " packages, " ++ toString summary.imports.size ++ " imports from " ++
    toString summary.importedPackages.length ++ " packages" ++ summary.requirement

/-- The lines of a list under a title; no lines for an empty list. -/
def titled (title : String) (items : List String) : List String :=
  if items.isEmpty then [] else "" :: title :: items.map ("  " ++ ·)

/-- A summary as text. -/
def text (summary : Summary) : String :=
  unlines (summary.headline :: titled "Packages:" summary.packages ++
    titled "Imports:" summary.imports.toList)

/-- A summary as JSON. -/
def toJson (summary : Summary) : Json :=
  .object [
    ("class_count", .ofNat summary.classCount),
    ("class_names", .ofTexts summary.classNames),
    ("packages", .ofTexts summary.packages),
    ("imports", .ofTexts summary.imports.toList),
    ("imported_packages", .ofTexts summary.importedPackages),
    ("highest_version", (summary.highestVersion.map (·.toJson)).getD .null),
    ("jdk_revision", .ofText? (summary.release?.map (·.text)))]

/-- A summary in a format. -/
def render (summary : Summary) : Format → String
  | .text => summary.text
  | format => summary.toJson.render format

end Summary

end ClassImports
