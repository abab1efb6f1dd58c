import ClassImports.Toml.Scalar
import ClassImports.Toml.Table

/-!
# TOML documents

`Toml.parse?` reads a document of TOML 1.0 and gives the entries of its root table, or nothing if
the text is not TOML. Arrays and inline tables may be nested up to `nestingLimit` deep.
-/

namespace ClassImports.Toml

/-- What follows the comment that the characters start with, if they do. -/
def skipComment : List Char → List Char
  | '#' :: rest => rest.dropWhile isPlain
  | text => text

/-- What follows the end of a line, blanks and a comment before it included; the end of the text
ends a line too. -/
def lineEnd? (text : List Char) : Option (List Char) :=
  match skipComment (text.dropWhile isBlank) with
  | [] => some []
  | rest => newLine? rest

/-- What follows blanks, ends of lines and comments. -/
def skipLines (inComment : Bool) : List Char → List Char
  | [] => []
  | '\r' :: '\n' :: rest => skipLines false rest
  | c :: rest =>
    if c == '\n' then skipLines false rest
    else if inComment && isPlain c then skipLines true rest
    else if isBlank c then skipLines false rest
    else if c == '#' then skipLines true rest
    else c :: rest

/-- The rest of an array after its opening bracket or a comma; `before` holds its items so far,
last one first, and `fuel` bounds their number. -/
def items? (value? : List Char → Option (Value × List Char)) :
    (fuel : Nat) → (before : List Value) → List Char → Option (List Value × List Char)
  | 0, _, _ => none
  | fuel + 1, before, text =>
    match skipLines false text with
    | ']' :: rest => some (before.reverse, rest)
    | text => do
      let (value, rest) ← value? text
      match skipLines false rest with
      | ',' :: rest => items? value? fuel (value :: before) rest
      | ']' :: rest => some ((value :: before).reverse, rest)
      | _ => none

/-- A dotted key, an equals sign and a value. -/
def pair? (value? : List Char → Option (Value × List Char)) (text : List Char) :
    Option (List String × String × Value × List Char) := do
  let (path, key, rest) ← dottedKey? keyLimit text
  let (value, rest) ← value? ((← skip? '=' rest).dropWhile isBlank)
  return (path, key, value, rest)

/-- The rest of an inline table after its opening brace or a comma; `fuel` bounds the number of
its entries. -/
def inlineEntries? (value? : List Char → Option (Value × List Char)) :
    (fuel : Nat) → (before : Entries) → List Char → Option (Entries × List Char)
  | 0, _, _ => none
  | fuel + 1, before, text => do
    let (path, key, value, rest) ← pair? value? text
    let entries ← insertValue path key value before
    match rest.dropWhile isBlank with
    | ',' :: rest => inlineEntries? value? fuel entries rest
    | '\x7d' :: rest => some (entries, rest)
    | _ => none

/-- The rest of an inline table after its opening brace. -/
def inlineTable? (value? : List Char → Option (Value × List Char)) (text : List Char) :
    Option (Entries × List Char) :=
  match text.dropWhile isBlank with
  | '\x7d' :: rest => some ([], rest)
  | text => inlineEntries? value? (text.length + 1) [] text

/-- How deep arrays and inline tables may be nested. -/
def nestingLimit : Nat := 79

/-- A value with at most `depth` levels of arrays and inline tables. -/
def value? : (depth : Nat) → List Char → Option (Value × List Char)
  | depth, '[' :: rest =>
    match depth with
    | 0 => none
    | depth + 1 =>
      (items? (value? depth) (rest.length + 1) [] rest).map fun (items, rest) =>
        (.array items, rest)
  | depth, '\x7b' :: rest =>
    match depth with
    | 0 => none
    | depth + 1 =>
      (inlineTable? (value? depth) rest).map fun (entries, rest) =>
        (.table (toEntries entries), rest)
  | _, text => scalarValue? text

/-- Reads lines to the end of the text; `fuel` bounds their number. -/
def lines? : (fuel : Nat) → Draft → List Char → Option Draft
  | 0, _, _ => none
  | fuel + 1, draft, text =>
    match text.dropWhile isBlank with
    | [] => some draft
    | '[' :: '[' :: rest => do
      let (path, key, rest) ← dottedKey? keyLimit rest
      let rest ← skip? ']' (← skip? ']' rest)
      lines? fuel (← draft.openElement? path key) (← lineEnd? rest)
    | '[' :: rest => do
      let (path, key, rest) ← dottedKey? keyLimit rest
      let rest ← skip? ']' rest
      lines? fuel (← draft.openTable? path key) (← lineEnd? rest)
    | text =>
      match lineEnd? text with
      | some rest => lines? fuel draft rest
      | none => do
        let (path, key, value, rest) ← pair? (value? nestingLimit) text
        lines? fuel (← draft.insert? path key value) (← lineEnd? rest)

/-- A text without the mark of byte order that may precede it. -/
def dropByteOrderMark : List Char → List Char
  | '\uFEFF' :: rest => rest
  | text => text

/-- The entries of a document. -/
def parse? (document : String) : Option (List (String × Value)) := do
  let text := dropByteOrderMark document.toList
  let draft ← lines? (text.length + 1) {} text
  return toEntries (← draft.close?)

end ClassImports.Toml
