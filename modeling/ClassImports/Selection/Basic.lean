import ClassImports.FileSystem.Path
import ClassImports.Selection.Line

/-!
# Selections

A list of selection lines. The last line that is about a path decides whether it is left out; when
no line is, a file is left out exactly if some line includes anything, and a directory never.
-/

namespace ClassImports

/-- What the lines say about a path. -/
inductive Verdict where
  | excluded
  | included
  | unmentioned
  deriving DecidableEq, Repr

/-- A list of selection lines. -/
abbrev Selection := List SelectionLine

namespace Selection

/-- Reads lines in order. -/
def ofTexts (texts : List String) : Except Glob.Error Selection :=
  (texts.mapM SelectionLine.ofText).map fun lines => lines.filterMap id

/-- What the last line that is about a path says. -/
def verdict (lines : Selection) (path : String) (isDir : Bool) : Verdict :=
  match lines.reverse.find? fun line => line.covers path isDir with
  | some line => if line.excludes then .excluded else .included
  | none => .unmentioned

/-- Whether a path is left out. -/
def leavesOut (lines : Selection) (path : String) (isDir : Bool) : Bool :=
  match lines.verdict path isDir with
  | .excluded => true
  | .included => false
  | .unmentioned => !isDir && lines.any fun line => !line.excludes

/-! ## Paths below a directory -/

/-- A path without `./` at its start. -/
def dropHere (path : List Char) : List Char :=
  match path with
  | '.' :: '/' :: rest => rest
  | path => path

/-- A path without a slash at its start. -/
def dropSlash (path : List Char) : List Char :=
  match path with
  | '/' :: rest => rest
  | path => path

/-- The path that the lines see: `path` is below `target` and spelt like it, and the lines see what
follows. A `./` at the start of a path does not count, and neither does one that is left. -/
def pathBelow (target path : String) : String :=
  let path := dropHere (dropHere path.toList)
  let target := dropHere target.toList
  let isHere := Path.components (String.ofList target) = [.current]
  if isHere || !path.contains '/' || !target.isPrefixOf path then String.ofList path
  else String.ofList (dropSlash (path.drop target.length))

end Selection

end ClassImports
