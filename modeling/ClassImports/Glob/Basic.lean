/-!
# Globs

A glob is a list of tokens. Besides single characters and sets of them there are the wildcards `?`
and `*`, the double star as a whole component of a path (at the start, at the end or between
slashes), and the choice between branches. `Glob.ofText?` in `Glob/Parser` reads a glob,
`Glob.covers` in `Glob/Match` tells what it matches.
-/

namespace ClassImports

/-- A part of a glob. -/
inductive Glob.Token where
  /-- The character itself. -/
  | literal (c : Char)
  /-- `?`: one octet. -/
  | any
  /-- `*`: any number of octets. -/
  | star
  /-- `**/` at the start: nothing, or everything up to a slash. -/
  | deepStart
  /-- `/**` at the end: a slash and all after it. -/
  | deepEnd
  /-- `/**/` in between: a slash, or everything from one slash to another. -/
  | deepMiddle
  /-- `[…]`: one octet of the given ranges of characters, or none of these. -/
  | set (negated : Bool) (ranges : List (Char × Char))
  /-- `{…,…}`: what one of the branches matches. -/
  | choice (branches : List (List Glob.Token))

/-- A glob: its text, its tokens, and whether its wildcards stop at slashes. -/
structure Glob where
  text : String
  tokens : List Glob.Token
  stopsAtSlash : Bool

namespace Glob

/-- What is wrong with the text of a glob. -/
inductive Fault where
  | unclosedSet
  | emptyRange (first last : Char)
  | unopenedChoice
  | unclosedChoice
  | danglingEscape
  deriving DecidableEq, Repr

/-- A text that is no glob. -/
structure Error where
  text : String
  fault : Fault
  deriving DecidableEq, Repr

/-- The fault in words. -/
def Fault.message : Fault → String
  | unclosedSet => "unclosed character class; missing ']'"
  | emptyRange first last =>
    "invalid range; '" ++ first.toString ++ "' > '" ++ last.toString ++ "'"
  | unopenedChoice =>
    "unopened alternate group; missing '\x7b' (maybe escape '\x7d' with '[\x7d]'?)"
  | unclosedChoice =>
    "unclosed alternate group; missing '\x7d' (maybe escape '\x7b' with '[\x7b]'?)"
  | danglingEscape => "dangling '\\'"

/-- The error in words. -/
def Error.message (error : Error) : String :=
  "error parsing glob '" ++ error.text ++ "': " ++ error.fault.message

end Glob

end ClassImports
