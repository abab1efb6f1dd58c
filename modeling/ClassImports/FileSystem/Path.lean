/-!
# Paths

A path is a text of names separated by slashes. Paths are ordered by their components and not by
their characters, so that what is in a directory stays together: repeated slashes and components
`.` do not count, except for a `.` at the start.
-/

namespace ClassImports.Path

/-- The parts of a text between its slashes; `part` holds the part at hand, last character
first. -/
def splitFrom (part : List Char) : List Char → List String
  | [] => [String.ofList part.reverse]
  | c :: rest =>
    if c = '/' then String.ofList part.reverse :: splitFrom [] rest else splitFrom (c :: part) rest

/-- The parts of a path between its slashes; parts may be empty. -/
def split (path : String) : List String :=
  splitFrom [] path.toList

/-- Whether a path starts at the root. -/
def isAbsolute (path : String) : Bool :=
  path.toList.head? == some '/'

/-- A path below another one: a slash comes between them unless there is one already or the first
path is empty. -/
def join (path name : String) : String :=
  match path.toList.getLast? with
  | none => name
  | some '/' => path ++ name
  | some _ => path ++ "/" ++ name

/-! ## Components -/

/-- A component of a path. -/
inductive Component where
  /-- The slash at the start. -/
  | root
  /-- `.` at the start. -/
  | current
  /-- `..`. -/
  | parent
  | name (text : String)
  deriving DecidableEq, Repr

/-- The component that a part of a path stands for, if it counts. -/
def component? (part : String) : Option Component :=
  if part = "" ∨ part = "." then none
  else if part = ".." then some .parent
  else some (.name part)

/-- The components of a path. -/
def components (path : String) : List Component :=
  let parts := split path
  let start :=
    if isAbsolute path then [Component.root]
    else if parts.head? = some "." then [Component.current]
    else []
  start ++ parts.filterMap component?

/-- The place of a kind of component in the order. -/
def Component.rank : Component → Nat
  | root => 0
  | current => 1
  | parent => 2
  | name _ => 3

/-- The order of components: root, `.`, `..`, then names, which are ordered by their characters. -/
def Component.lt : Component → Component → Bool
  | name a, name b => decide (a < b)
  | a, b => a.rank < b.rank

/-- The order of lists of components: the first difference decides. -/
def leComponents : List Component → List Component → Bool
  | [], _ => true
  | _ :: _, [] => false
  | a :: as, b :: bs => if a = b then leComponents as bs else a.lt b

/-- The order of paths. -/
def le (a b : String) : Bool :=
  leComponents (components a) (components b)

/-! ## Extensions -/

/-- The last component of a path, if it is a name. -/
def fileName? (path : String) : Option String :=
  match (components path).getLast? with
  | some (.name text) => some text
  | _ => none

/-- What follows the last dot of a name, unless the name starts with that dot. -/
def extensionOf? (name : String) : Option String :=
  let reversed := name.toList.reverse
  match reversed.dropWhile (· ≠ '.') with
  | '.' :: _ :: _ => some (String.ofList (reversed.takeWhile (· ≠ '.')).reverse)
  | _ => none

/-- The extension of a path's last component. -/
def extension? (path : String) : Option String :=
  (fileName? path).bind extensionOf?

end ClassImports.Path
