import ClassImports.Glob.Match
import ClassImports.Glob.Parser
import ClassImports.Text.Blank

/-!
# Selection lines

A line selects files and directories by a glob over their paths below a directory. A line that
starts with `!` excludes what it matches, any other line includes it. A glob with a slash before
its end matches whole paths, one without matches names at any depth; a slash at the end restricts
the line to directories. Wildcards stop at slashes. A line that is blank or starts with `#` says
nothing; a backslash takes the meaning from a `!` or `#` at the start, and from a blank at the end.
-/

namespace ClassImports

/-- A line that says something. -/
structure SelectionLine where
  glob : Glob
  excludes : Bool
  /-- Whether the line is about directories only. -/
  dirOnly : Bool

namespace SelectionLine

/-- The double star as a whole glob. -/
def doubleStar : List Char := ['*', '*']

/-- A line without the blanks at its end, unless a backslash protects the last one. -/
def trim (line : List Char) : List Char :=
  if [' ', '\\'].isPrefixOf line.reverse then line else Text.trimEnd line

/-- Whether a line starts with `!`, and what follows it and a slash after it; and whether there is
such a slash. -/
def splitStart : List Char → Bool × Bool × List Char
  | '\\' :: '!' :: rest => (false, false, '!' :: rest)
  | '\\' :: '#' :: rest => (false, false, '#' :: rest)
  | '!' :: '/' :: rest => (true, true, rest)
  | '!' :: rest => (true, false, rest)
  | '/' :: rest => (false, true, rest)
  | line => (false, false, line)

/-- A glob without the slash at its end and the backslash before that; and whether there is such a
slash. -/
def splitEnd (glob : List Char) : Bool × List Char :=
  match glob.reverse with
  | '/' :: '\\' :: rest => (true, rest.reverse)
  | '/' :: rest => (true, rest.reverse)
  | _ => (false, glob)

/-- The glob over whole paths: one that is not anchored and has no slash may start at any depth,
and one that ends in `/**` leaves out the directory itself. -/
def anchor (anchored : Bool) (glob : List Char) : List Char :=
  let glob :=
    if anchored || glob.contains '/' || glob == doubleStar then glob
    else doubleStar ++ '/' :: glob
  if ('/' :: doubleStar).isSuffixOf glob then glob ++ ['/', '*'] else glob

/-- Reads a line; none if it says nothing. An error shows the line as it was given. -/
def ofText (text : String) : Except Glob.Error (Option SelectionLine) :=
  if text.toList.head? = some '#' then .ok none
  else
    let line := trim text.toList
    if line.isEmpty then .ok none
    else
      let (excludes, anchored, rest) := splitStart line
      let (dirOnly, rest) := splitEnd rest
      match Glob.ofText? (String.ofList (anchor anchored rest)) true with
      | .ok glob => .ok (some { glob, excludes, dirOnly })
      | .error error => .error { error with text := String.ofList line }

/-- Whether a line is about a path below the directory. -/
def covers (line : SelectionLine) (path : String) (isDir : Bool) : Bool :=
  (isDir || !line.dirOnly) && line.glob.covers path

end SelectionLine

end ClassImports
