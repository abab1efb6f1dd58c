import ClassImports.Toml.Value

/-!
# TOML scalars

Texts, keys, numbers and dates. Each function reads one of these from the front of the characters
and gives the characters after it, or nothing if they do not start with one.
-/

namespace ClassImports.Toml

/-- Blanks within a line. -/
def isBlank (c : Char) : Bool :=
  c == ' ' || c == '\t'

/-- A character that may stand in a comment or in a text: a tab, a visible ASCII character or any
character beyond ASCII. -/
def isPlain (c : Char) : Bool :=
  c == '\t' || (' ' ≤ c && c ≤ '~') || 0x80 ≤ c.toNat

/-- What follows the end of a line, if the characters start with one. -/
def newLine? : List Char → Option (List Char)
  | '\n' :: rest => some rest
  | '\r' :: '\n' :: rest => some rest
  | _ => none

/-! ## Texts -/

/-- The value of a hexadecimal digit. -/
def hexDigit? (c : Char) : Option Nat :=
  if c.isDigit then some (c.toNat - '0'.toNat)
  else if 'a' ≤ c && c ≤ 'f' then some (c.toNat - 'a'.toNat + 10)
  else if 'A' ≤ c && c ≤ 'F' then some (c.toNat - 'A'.toNat + 10)
  else none

/-- The character whose number is given by hexadecimal digits. -/
def scalar? (digits : List Char) : Option Char := do
  let n ← digits.foldlM (fun n c => (hexDigit? c).map (16 * n + ·)) 0
  if n.isValidChar then some (Char.ofNat n) else none

/-- The character of a short escape. -/
def shortEscape? (c : Char) : Option Char :=
  match c with
  | 'b' => some '\x08'
  | 't' => some '\t'
  | 'n' => some '\n'
  | 'f' => some '\x0c'
  | 'r' => some '\r'
  | '"' => some '"'
  | '\\' => some '\\'
  | _ => none

/-- The rest of a text in double quotes; `before` holds its characters so far, last one first. -/
def basicText? (before : List Char) : List Char → Option (String × List Char)
  | [] => none
  | '"' :: rest => some (String.ofList before.reverse, rest)
  | '\\' :: 'u' :: a :: b :: c :: d :: rest => do
    basicText? ((← scalar? [a, b, c, d]) :: before) rest
  | '\\' :: 'U' :: a :: b :: c :: d :: e :: f :: g :: h :: rest => do
    basicText? ((← scalar? [a, b, c, d, e, f, g, h]) :: before) rest
  | '\\' :: c :: rest => do
    basicText? ((← shortEscape? c) :: before) rest
  | c :: rest => if isPlain c && c != '\\' then basicText? (c :: before) rest else none

/-- The rest of a text in single quotes. -/
def literalText? (text : List Char) : Option (String × List Char) :=
  match text.dropWhile fun c => isPlain c && c != '\'' with
  | '\'' :: rest =>
    some (String.ofList (text.takeWhile fun c => isPlain c && c != '\''), rest)
  | _ => none

/-- The end of a text of several lines: the quotes that belong to the text, and what follows it,
if at least three quotes come next. Up to two more belong to the text. -/
def closing? (quote : Char) (text : List Char) : Option (List Char × List Char) :=
  let quotes := (text.takeWhile (· == quote)).length
  if quotes < 3 then none
  else some (List.replicate (min (quotes - 3) 2) quote, text.drop (min quotes 5))

/-- What follows blanks and ends of lines. -/
def skipBlankLines : List Char → List Char
  | [] => []
  | '\r' :: '\n' :: rest => skipBlankLines rest
  | c :: rest => if isBlank c || c == '\n' then skipBlankLines rest else c :: rest

/-- What follows a backslash at the end of a line: the next character that is neither blank nor
the end of a line, if the line does end. -/
def continued? (text : List Char) : Option (List Char) :=
  (newLine? (text.dropWhile isBlank)).map skipBlankLines

/-- The rest of a text of several lines; `escapes` tells whether backslashes escape. Each end of a
line is a line feed. `fuel` bounds the number of characters read. -/
def linesText? (quote : Char) (escapes : Bool) :
    (fuel : Nat) → (before : List Char) → List Char → Option (String × List Char)
  | 0, _, _ => none
  | fuel + 1, before, text =>
    match closing? quote text with
    | some (quotes, rest) => some (String.ofList (before.reverse ++ quotes), rest)
    | none =>
      match newLine? text with
      | some rest => linesText? quote escapes fuel ('\n' :: before) rest
      | none =>
        match text with
        | [] => none
        | '\\' :: rest =>
          if !escapes then linesText? quote escapes fuel ('\\' :: before) rest
          else
            match continued? rest with
            | some rest => linesText? quote escapes fuel before rest
            | none =>
              match rest with
              | 'u' :: a :: b :: c :: d :: rest => do
                linesText? quote escapes fuel ((← scalar? [a, b, c, d]) :: before) rest
              | 'U' :: a :: b :: c :: d :: e :: f :: g :: h :: rest => do
                linesText? quote escapes fuel
                  ((← scalar? [a, b, c, d, e, f, g, h]) :: before) rest
              | c :: rest => do
                linesText? quote escapes fuel ((← shortEscape? c) :: before) rest
              | [] => none
        | c :: rest =>
          if isPlain c then linesText? quote escapes fuel (c :: before) rest else none

/-- The rest of a text of several lines after its opening quotes; a line that ends there does not
count. -/
def openedText? (quote : Char) (escapes : Bool) (text : List Char) : Option (String × List Char) :=
  let text := (newLine? text).getD text
  linesText? quote escapes (text.length + 1) [] text

/-- A text in any of the four kinds of quotes. -/
def text? : List Char → Option (String × List Char)
  | '"' :: '"' :: '"' :: rest => openedText? '"' true rest
  | '"' :: rest => basicText? [] rest
  | '\'' :: '\'' :: '\'' :: rest => openedText? '\'' false rest
  | '\'' :: rest => literalText? rest
  | _ => none

/-! ## Keys -/

/-- A character of a key without quotes. -/
def isKeyChar (c : Char) : Bool :=
  c.isAlphanum || c == '_' || c == '-'

/-- A single key. -/
def key? (text : List Char) : Option (String × List Char) :=
  match text with
  | '"' :: rest => basicText? [] rest
  | '\'' :: rest => literalText? rest
  | _ =>
    let name := text.takeWhile isKeyChar
    if name.isEmpty then none else some (String.ofList name, text.dropWhile isKeyChar)

/-- The most keys that a dotted key may have. -/
def keyLimit : Nat := 79

/-- A dotted key: the keys before its last one, its last one, and the characters after it and
after any blanks. `fuel` bounds the number of keys. -/
def dottedKey? : (fuel : Nat) → List Char → Option (List String × String × List Char)
  | 0, _ => none
  | fuel + 1, text => do
    let (name, rest) ← key? (text.dropWhile isBlank)
    match rest.dropWhile isBlank with
    | '.' :: rest =>
      let (path, last, rest) ← dottedKey? fuel rest
      some (name :: path, last, rest)
    | rest => some ([], name, rest)

/-! ## Numbers -/

/-- Digits with single underscores between them; the first digit is there already. -/
def moreDigits (isDigit : Char → Bool) : List Char → List Char × List Char
  | '_' :: c :: rest =>
    if isDigit c then
      let (digits, rest) := moreDigits isDigit rest
      (c :: digits, rest)
    else ([], '_' :: c :: rest)
  | c :: rest =>
    if isDigit c then
      let (digits, rest) := moreDigits isDigit rest
      (c :: digits, rest)
    else ([], c :: rest)
  | [] => ([], [])

/-- At least one digit, with single underscores between them. -/
def digits? (isDigit : Char → Bool) : List Char → Option (List Char × List Char)
  | c :: rest =>
    if isDigit c then
      let (digits, rest) := moreDigits isDigit rest
      some (c :: digits, rest)
    else none
  | [] => none

/-- The number that digits of a base stand for. -/
def ofDigits (base : Nat) (digits : List Char) : Nat :=
  digits.foldl (fun n c => base * n + (hexDigit? c).getD 0) 0

/-- Whether the number is negative, and what follows its sign. -/
def sign : List Char → Bool × List Char
  | '+' :: rest => (false, rest)
  | '-' :: rest => (true, rest)
  | text => (false, text)

/-- Decimal digits without a zero before others. -/
def decimal? (text : List Char) : Option (List Char × List Char) :=
  match text with
  | '0' :: rest => some (['0'], rest)
  | _ => digits? Char.isDigit text

/-- The number that digits of a base stand for, and what follows them. -/
def based? (base : Nat) (isDigit : Char → Bool) (text : List Char) : Option (Int × List Char) :=
  (digits? isDigit text).map fun (digits, rest) => (ofDigits base digits, rest)

/-- A whole number in base 16, 8 or 2 or, perhaps with a sign, in decimal digits. -/
def whole? (text : List Char) : Option (Int × List Char) :=
  match text with
  | '0' :: 'x' :: rest => based? 16 (fun c => (hexDigit? c).isSome) rest
  | '0' :: 'o' :: rest => based? 8 (fun c => '0' ≤ c && c ≤ '7') rest
  | '0' :: 'b' :: rest => based? 2 (fun c => c == '0' || c == '1') rest
  | _ =>
    let (negative, rest) := sign text
    (decimal? rest).map fun (digits, rest) =>
      (if negative then -ofDigits 10 digits else ofDigits 10 digits, rest)

/-- A whole number that fits 64 bits. -/
def integer? (text : List Char) : Option (Value × List Char) := do
  let (n, rest) ← whole? text
  if -0x8000000000000000 ≤ n ∧ n < 0x8000000000000000 then some (.integer n, rest) else none

/-- Whether `digits · 10 ^ exponent` is too large for a double-precision number. -/
def overflows (digits : List Char) (exponent : Int) : Bool :=
  let n := ofDigits 10 digits
  let point := (Nat.toDigits 10 n).length + exponent
  if n = 0 || point < 300 then false
  else if 310 < point then true
  else Nat.pow 2 1024 - Nat.pow 2 970 ≤
    n * Nat.pow 10 exponent.toNat / Nat.pow 10 (-exponent).toNat

/-- The fraction of a number: its digits. -/
def fraction? : List Char → Option (List Char × List Char)
  | '.' :: rest => digits? Char.isDigit rest
  | _ => none

/-- The exponent of a number. -/
def exponent? : List Char → Option (Int × List Char)
  | c :: rest =>
    if c == 'e' || c == 'E' then do
      let (negative, rest) := sign rest
      let (digits, rest) ← digits? Char.isDigit rest
      let n := Int.ofNat (ofDigits 10 digits)
      return (if negative then -n else n, rest)
    else none
  | [] => none

/-- Infinity and the value that is no number. -/
def special? : List Char → Option (Value × List Char)
  | 'i' :: 'n' :: 'f' :: rest => some (.float, rest)
  | 'n' :: 'a' :: 'n' :: rest => some (.float, rest)
  | _ => none

/-- What follows the whole part of a number with a fraction or an exponent or both: the digits of
the fraction and the exponent. -/
def scaled? (text : List Char) : Option (List Char × Int × List Char) :=
  match fraction? text with
  | some (places, rest) =>
    match exponent? rest with
    | some (exponent, rest) => some (places, exponent, rest)
    | none => some (places, 0, rest)
  | none => (exponent? text).map fun (exponent, rest) => ([], exponent, rest)

/-- A number with a fraction or an exponent or both, or a special one. A positive number that is
too large is refused. -/
def float? (text : List Char) : Option (Value × List Char) :=
  let (negative, rest) := sign text
  (special? rest).or (do
    let (whole, rest) ← decimal? rest
    let (places, exponent, rest) ← scaled? rest
    if !negative && overflows (whole ++ places) (exponent - places.length) then none
    else some (.float, rest))

/-! ## Dates and times -/

/-- A number of exactly `count` digits between two bounds. -/
def field? (count low high : Nat) (text : List Char) : Option (Nat × List Char) :=
  let digits := text.take count
  let n := ofDigits 10 digits
  if digits.length = count ∧ digits.all Char.isDigit ∧ low ≤ n ∧ n ≤ high then
    some (n, text.drop count)
  else none

/-- What follows a given character. -/
def skip? (expected : Char) : List Char → Option (List Char)
  | c :: rest => if c = expected then some rest else none
  | [] => none

/-- The number of days of a month. -/
def daysIn (year month : Nat) : Nat :=
  if month = 2 then
    if year % 4 = 0 ∧ (year % 100 ≠ 0 ∨ year % 400 = 0) then 29 else 28
  else if month = 4 ∨ month = 6 ∨ month = 9 ∨ month = 11 then 30
  else 31

/-- What follows a date. -/
def date? (text : List Char) : Option (List Char) := do
  let (year, rest) ← field? 4 0 9999 text
  let (month, rest) ← field? 2 1 12 (← skip? '-' rest)
  let (_, rest) ← field? 2 1 (daysIn year month) (← skip? '-' rest)
  return rest

/-- What follows a time of day. -/
def time? (text : List Char) : Option (List Char) := do
  let (_, rest) ← field? 2 0 23 text
  let (_, rest) ← field? 2 0 59 (← skip? ':' rest)
  let (_, rest) ← field? 2 0 60 (← skip? ':' rest)
  match rest with
  | '.' :: c :: more => if c.isDigit then return more.dropWhile Char.isDigit else return rest
  | _ => return rest

/-- What follows an offset from universal time. -/
def offset? : List Char → Option (List Char)
  | 'Z' :: rest => some rest
  | 'z' :: rest => some rest
  | '+' :: rest => clock rest
  | '-' :: rest => clock rest
  | _ => none
where
  /-- Hours and minutes. -/
  clock (text : List Char) : Option (List Char) := do
    let (_, rest) ← field? 2 0 23 text
    let (_, rest) ← field? 2 0 59 (← skip? ':' rest)
    return rest

/-- What follows the time after a date, if there is one. -/
def timeAfterDate? (text : List Char) : Option (List Char) :=
  match text with
  | c :: rest =>
    if c == 'T' || c == 't' || c == ' ' then (time? rest).map fun rest => (offset? rest).getD rest
    else none
  | [] => none

/-- A date, a time, or both. -/
def dateTime? (text : List Char) : Option (Value × List Char) :=
  match date? text with
  | some rest => some (.dateTime, (timeAfterDate? rest).getD rest)
  | none => (time? text).map fun rest => (.dateTime, rest)

/-! ## All scalars -/

/-- A text, a truth value, a number or a date. -/
def scalarValue? (text : List Char) : Option (Value × List Char) :=
  match text with
  | 't' :: 'r' :: 'u' :: 'e' :: rest => some (.boolean true, rest)
  | 'f' :: 'a' :: 'l' :: 's' :: 'e' :: rest => some (.boolean false, rest)
  | '"' :: _ => (text? text).map fun (text, rest) => (.string text, rest)
  | '\'' :: _ => (text? text).map fun (text, rest) => (.string text, rest)
  | _ => (dateTime? text).or ((float? text).or (integer? text))

end ClassImports.Toml
