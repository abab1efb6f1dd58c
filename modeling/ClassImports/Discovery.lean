import ClassImports.Failure
import ClassImports.Glob.Depth
import ClassImports.Selection.Basic

/-!
# Discovery of class files

The class files below a directory that a selection does not leave out, in the order of their paths.
A directory that is left out is not entered, whatever the selection says about its content. Names
that start with a dot are looked at like all others. A path that is itself a class file is all that
is found there, and no selection applies to it. The path `-` stands for the standard input, below
which there is nothing. It is an error if a directory that is not left out cannot be entered because
its path is too long.
-/

namespace ClassImports

/-- Which class files to look at. -/
structure DiscoveryOptions where
  includes : List String := []
  excludes : List String := []
  deriving DecidableEq, Repr, Inhabited

namespace Discovery

/-- Whether a path has the extension of class files. -/
def isClassFile (path : String) : Bool :=
  Path.extension? path == some "class"

/-- The class files in a listing and below it, whose own path is `dir`; `leavesOut` tells of each
path, and of whether it is a directory, whether it is left out. -/
def filesBelow (leavesOut : String → Bool → Bool) (dir : String) : Listing → List String
  | .nil => []
  | .file name _ rest =>
    let path := Path.join dir name
    if !leavesOut path false && isClassFile path then
      path :: filesBelow leavesOut dir rest
    else filesBelow leavesOut dir rest
  | .dir name entries rest =>
    let path := Path.join dir name
    if leavesOut path true then filesBelow leavesOut dir rest
    else filesBelow leavesOut path entries ++ filesBelow leavesOut dir rest

/-- The first directory in a listing or below it that is to be entered although its path is too
long to be followed; the arguments are those of `filesBelow`. -/
def outOfReach? (leavesOut : String → Bool → Bool) (dir : String) : Listing → Option String
  | .nil => none
  | .file _ _ rest => outOfReach? leavesOut dir rest
  | .dir name entries rest =>
    let path := Path.join dir name
    if leavesOut path true then outOfReach? leavesOut dir rest
    else if FileSystem.pathLimit < path.utf8ByteSize then some path
    else (outOfReach? leavesOut path entries).or (outOfReach? leavesOut dir rest)

/-- The lines of the options, the excluding ones before the including ones: of two lines about the
same path the later one decides, so the including one does. -/
def selection (options : DiscoveryOptions) : Except Failure Selection := do
  let excluding ← (Selection.ofTexts (options.excludes.map ("!" ++ ·))).mapError .badExclude
  let including ← (Selection.ofTexts options.includes).mapError .badInclude
  let lines := excluding ++ including
  (Glob.checkDepth (lines.map SelectionLine.glob)).mapError .badSelection
  return lines

/-- Whether a path stands for the standard input. -/
def isStandardInput (path : String) : Bool :=
  Path.components path == [.name "-"]

/-- The class files at and below a path. -/
def run (fs : FileSystem) (target : String) (options : DiscoveryOptions) :
    Except Failure (List String) :=
  match fs.locate target with
  | .error _ => .error (.noSuchPath target)
  | .ok (.file _) =>
    if isClassFile target then .ok [target] else .error (.notClassFile target)
  | .ok (.dir entries) => do
    let lines ← selection options
    let leavesOut := fun path => lines.leavesOut (Selection.pathBelow target path)
    if isStandardInput target then return []
    else
      match outOfReach? leavesOut target entries with
      | some path => .error (.directoryUnreadable path .nameTooLong)
      | none => return (filesBelow leavesOut target entries).mergeSort Path.le

end Discovery

end ClassImports
