/-!
# JSON

JSON values with ordered fields, and the two ways to write them: compact, without any blanks, and
indented by two blanks a level with every item on a line of its own. A number is kept as its text,
since the values that end up here choose their own.
-/

namespace ClassImports

/-- A JSON value. -/
inductive Json where
  | null
  | number (text : String)
  | string (text : String)
  | array (items : List Json)
  | object (fields : List (String × Json))

/-- How results are written. -/
inductive Format where
  /-- As text for a reader. -/
  | text
  /-- As indented JSON. -/
  | json
  /-- As JSON without blanks. -/
  | compact
  deriving DecidableEq, Repr, Inhabited

namespace Json

/-- The value of a natural number. -/
def ofNat (n : Nat) : Json :=
  .number (toString n)

/-- A text, or null in its absence. -/
def ofText? (text : Option String) : Json :=
  (text.map .string).getD .null

/-- A list of texts. -/
def ofTexts (texts : List String) : Json :=
  .array (texts.map .string)

/-- How a character is written in a JSON string: quotes, backslashes and controls are escaped. -/
def escapeChar (c : Char) : List Char :=
  match c with
  | '"' => ['\\', '"']
  | '\\' => ['\\', '\\']
  | '\x08' => ['\\', 'b']
  | '\t' => ['\\', 't']
  | '\n' => ['\\', 'n']
  | '\x0c' => ['\\', 'f']
  | '\r' => ['\\', 'r']
  | c =>
    if c < ' ' then
      ['\\', 'u', '0', '0', Nat.digitChar (c.toNat / 16), Nat.digitChar (c.toNat % 16)]
    else [c]

/-- A text as a JSON string. -/
def quote (text : String) : String :=
  String.ofList ('"' :: text.toList.flatMap escapeChar ++ ['"'])

/-- Starts a line at the given level of indentation; without indentation nothing is started. -/
def newLine (indent : Option Nat) (out : String) : String :=
  match indent with
  | none => out
  | some level => out ++ "\n" ++ String.ofList (List.replicate (2 * level) ' ')

/-- What separates the item from the one before it, the first item from nothing. -/
def separate (indent : Option Nat) (first : Bool) (out : String) : String :=
  newLine indent (if first then out else out ++ ",")

mutual

/-- Writes a value after `out`. -/
def writeOnto (indent : Option Nat) (out : String) : Json → String
  | .null => out ++ "null"
  | .number text => out ++ text
  | .string text => out ++ quote text
  | .array [] => out ++ "[]"
  | .array (item :: items) =>
    newLine indent (writeItems (indent.map (· + 1)) true (out ++ "[") (item :: items)) ++ "]"
  | .object [] => out ++ "\x7b\x7d"
  | .object (field :: fields) =>
    newLine indent (writeFields (indent.map (· + 1)) true (out ++ "\x7b") (field :: fields)) ++
      "\x7d"

/-- Writes the items of an array after `out`. -/
def writeItems (indent : Option Nat) (first : Bool) (out : String) : List Json → String
  | [] => out
  | item :: items =>
    writeItems indent false (writeOnto indent (separate indent first out) item) items

/-- Writes the fields of an object after `out`. -/
def writeFields (indent : Option Nat) (first : Bool) (out : String) :
    List (String × Json) → String
  | [] => out
  | (key, value) :: fields =>
    let key := separate indent first out ++ quote key ++ (if indent.isSome then ": " else ":")
    writeFields indent false (writeOnto indent key value) fields

end

/-- A value as JSON without blanks. -/
def compact (value : Json) : String :=
  value.writeOnto none ""

/-- A value as indented JSON. -/
def pretty (value : Json) : String :=
  value.writeOnto (some 0) ""

/-- A value as JSON of the given format; text stands for indented JSON. -/
def render (value : Json) (format : Format) : String :=
  match format with
  | .compact => value.compact
  | .json => value.pretty
  | .text => value.pretty

end Json

end ClassImports
