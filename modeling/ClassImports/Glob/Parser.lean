import ClassImports.Glob.Basic

/-!
# Reading globs

A glob is read one character at a time, with a look at the two that follow a star. The state of
the reading holds the tokens of the branch at hand, the enclosing branches, the character before,
and, inside square brackets, the ranges read so far.

A double star is special only as a whole component of a path. Where it starts a branch, it must be
followed by a slash or end the text; elsewhere it must come after a slash, and a slash, the end of
the text or, inside braces, the end of the branch must follow. Then it takes the slashes around it
with it; everywhere else it is two stars.
-/

namespace ClassImports.Glob

/-- A choice that is being read: its finished branches, last one first, and the tokens before it
in the enclosing branch, last one first. -/
structure Group where
  finished : List (List Token)
  before : List Token

/-- What is being read. -/
inductive Mode where
  /-- Tokens of a branch. -/
  | branch
  /-- The character after a backslash. -/
  | escaped
  /-- Characters of a set: `fresh` before the first one, `open` after the dash of a range; the
  ranges are in reverse order. -/
  | set (negated fresh openRange : Bool) (ranges : List (Char × Char))

/-- The state of the reading. -/
structure Reading where
  /-- The tokens of the branch at hand, last one first. -/
  current : List Token := []
  /-- The enclosing choices, innermost first. -/
  groups : List Group := []
  /-- The character before. -/
  previous : Option Char := none
  mode : Mode := .branch

namespace Reading

/-- After one more token, whose last character is `c`. -/
def push (reading : Reading) (token : Token) (c : Char) : Reading :=
  { reading with current := token :: reading.current, previous := some c, mode := .branch }

/-- After a double star that is two stars. -/
def pushStars (reading : Reading) : Reading :=
  (reading.push .star '*').push .star '*'

/-- After a double star that ends in `c` and takes the token before it with it; a double star
before it stays what it is. -/
def replaceLast (reading : Reading) (token : Token) (c : Char) : Reading :=
  let last :=
    match reading.current.head? with
    | some .deepStart => .deepStart
    | some .deepEnd => .deepEnd
    | _ => token
  { reading with current := last :: reading.current.tail, previous := some c }

/-- Whether a double star may stand after the character before: a slash, or, inside braces, the
start of a branch. -/
def mayGoDeep (reading : Reading) : Bool :=
  reading.previous == some '/' ||
    (!reading.groups.isEmpty && (reading.previous == some ',' || reading.previous == some '{'))

/-- Whether the branch at hand ends before the given text. -/
def endsBranch (reading : Reading) (rest : List Char) : Bool :=
  match rest with
  | [] => true
  | c :: _ => !reading.groups.isEmpty && (c == ',' || c == '}')

/-- After a double star, and whether the slash that follows it belongs to it. -/
def doubleStar (reading : Reading) (rest : List Char) : Reading × Bool :=
  if reading.current.isEmpty then
    match rest with
    | [] => (reading.push .deepStart '*', false)
    | '/' :: _ => (reading.push .deepStart '/', true)
    | _ => (reading.pushStars, false)
  else if reading.mayGoDeep then
    if reading.endsBranch rest then (reading.replaceLast .deepEnd '*', false)
    else if rest.head? = some '/' then (reading.replaceLast .deepMiddle '/', true)
    else (reading.pushStars, false)
  else (reading.pushStars, false)

/-- After an opening brace. -/
def openGroup (reading : Reading) : Reading :=
  { reading with
    current := [], groups := ⟨[], reading.current⟩ :: reading.groups, previous := some '{' }

/-- After a comma: inside braces a new branch starts, elsewhere it is an ordinary character. -/
def comma (reading : Reading) : Reading :=
  match reading.groups with
  | [] => reading.push (.literal ',') ','
  | group :: outer =>
    { reading with
      current := []
      groups := { group with finished := reading.current.reverse :: group.finished } :: outer
      previous := some ',' }

/-- After a closing brace. -/
def closeGroup (reading : Reading) : Except Fault Reading :=
  match reading.groups with
  | [] => .error .unopenedChoice
  | group :: outer =>
    .ok { reading with
      current :=
        .choice (reading.current.reverse :: group.finished).reverse :: group.before
      groups := outer
      previous := some '}' }

/-- At the end of the text. -/
def finish (reading : Reading) : Except Fault (List Token) :=
  match reading.mode with
  | .escaped => .error .danglingEscape
  | .set .. => .error .unclosedSet
  | .branch =>
    if reading.groups.isEmpty then .ok reading.current.reverse else .error .unclosedChoice

/-- Ranges, last one first, with a new end for the last one. -/
def closeRange (ranges : List (Char × Char)) (last : Char) :
    Except Fault (List (Char × Char)) :=
  match ranges with
  | [] => .ok [(last, last)]
  | (first, _) :: rest =>
    if last < first then .error (.emptyRange first last) else .ok ((first, last) :: rest)

/-- After one more character of a set. A closing bracket that comes first and a dash that comes
first or last are ordinary; any other dash makes a range of the characters around it. -/
def setChar (reading : Reading) (negated fresh openRange : Bool) (ranges : List (Char × Char))
    (c : Char) : Except Fault Reading :=
  let next := fun openRange ranges =>
    { reading with previous := some c, mode := .set negated false openRange ranges }
  if c = ']' && !fresh then
    let ranges := if openRange then ('-', '-') :: ranges else ranges
    .ok (reading.push (.set negated ranges.reverse) ']')
  else if c = '-' && !fresh && !openRange then
    .ok (next true ranges)
  else if openRange && c ≠ ']' then
    (closeRange ranges c).map (next false)
  else
    .ok (next false ((c, c) :: ranges))

end Reading

/-- Reads a glob to the end of its text. -/
def readTokens (reading : Reading) : List Char → Except Fault (List Token)
  | [] => reading.finish
  | c :: rest =>
    match reading.mode with
    | .escaped => readTokens (reading.push (.literal c) c) rest
    | .set negated fresh openRange ranges =>
      match reading.setChar negated fresh openRange ranges c with
      | .ok reading => readTokens reading rest
      | .error fault => .error fault
    | .branch =>
      match c with
      | '?' => readTokens (reading.push .any '?') rest
      | '\\' => readTokens { reading with previous := some '\\', mode := .escaped } rest
      | '{' => readTokens reading.openGroup rest
      | ',' => readTokens reading.comma rest
      | '}' =>
        match reading.closeGroup with
        | .ok reading => readTokens reading rest
        | .error fault => .error fault
      | '[' =>
        match rest with
        | '!' :: rest =>
          readTokens { reading with previous := some '!', mode := .set true true false [] } rest
        | '^' :: rest =>
          readTokens { reading with previous := some '^', mode := .set true true false [] } rest
        | rest =>
          readTokens { reading with previous := some '[', mode := .set false true false [] } rest
      | '*' =>
        match rest with
        | '*' :: '/' :: rest =>
          match reading.doubleStar ('/' :: rest) with
          | (reading, true) => readTokens reading rest
          | (reading, false) => readTokens (reading.push (.literal '/') '/') rest
        | '*' :: rest => readTokens (reading.doubleStar rest).1 rest
        | rest => readTokens (reading.push .star '*') rest
      | c => readTokens (reading.push (.literal c) c) rest

/-- Reads a glob. -/
def ofText? (text : String) (stopsAtSlash : Bool) : Except Error Glob :=
  match readTokens {} text.toList with
  | .ok tokens => .ok ⟨text, tokens, stopsAtSlash⟩
  | .error fault => .error ⟨text, fault⟩

end ClassImports.Glob
