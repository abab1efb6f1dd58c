import ClassImports.Glob.Match

/-!
# The expression of a glob

Every glob has a regular expression over octets that matches just the names that the glob covers.
A choice without a branch that says anything leaves nothing in it.
-/

namespace ClassImports.Glob

/-- The characters that stand for themselves in an expression only after a backslash. -/
def specialChars : List Char :=
  ['\\', '.', '+', '*', '?', '(', ')', '|', '[', ']', '\x7b', '\x7d', '^', '$', '#', '&', '-', '~']

/-- An octet in an expression: itself if it is in ASCII, otherwise by its number. -/
def octetExpression (octet : UInt8) : List Char :=
  if octet < 0x80 then
    let c := Char.ofNat octet.toNat
    if specialChars.contains c then ['\\', c] else [c]
  else '\\' :: 'x' :: Nat.toDigits 16 octet.toNat

/-- A character in an expression: its octets. -/
def charExpression (c : Char) : List Char :=
  (Utf8.encodeChar c).flatMap octetExpression

/-- A range of characters in an expression. -/
def rangeExpression (range : Char × Char) : List Char :=
  if range.1 = range.2 then charExpression range.1
  else charExpression range.1 ++ '-' :: charExpression range.2

/-- Any one octet in an expression. -/
def wildExpression (stopsAtSlash : Bool) : List Char :=
  if stopsAtSlash then ['[', '^', '/', ']'] else ['.']

/-- A choice between branches in an expression. -/
def choiceExpression (branches : List (List Char)) : List Char :=
  if branches.isEmpty then []
  else "(?:".toList ++ ['|'].intercalate branches ++ [')']

mutual

/-- A token in an expression. -/
def Token.expression (stopsAtSlash : Bool) : Token → List Char
  | .literal c => charExpression c
  | .any => wildExpression stopsAtSlash
  | .star => wildExpression stopsAtSlash ++ ['*']
  | .deepStart => "(?:/?|.*/)".toList
  | .deepEnd => "/.*".toList
  | .deepMiddle => "(?:/|/.*/)".toList
  | .set negated ranges =>
    '[' :: (if negated then ['^'] else []) ++ ranges.flatMap rangeExpression ++ [']']
  | .choice branches => choiceExpression (branchExpressions stopsAtSlash branches)

/-- Tokens in an expression, one after the other. -/
def tokensExpression (stopsAtSlash : Bool) : List Token → List Char
  | [] => []
  | token :: tokens => token.expression stopsAtSlash ++ tokensExpression stopsAtSlash tokens

/-- The branches of a choice that say anything. -/
def branchExpressions (stopsAtSlash : Bool) : List (List Token) → List (List Char)
  | [] => []
  | branch :: branches =>
    let here := tokensExpression stopsAtSlash branch
    let others := branchExpressions stopsAtSlash branches
    if here.isEmpty then others else here :: others

end

/-- The expression of a glob. -/
def expression (glob : Glob) : String :=
  let body :=
    if glob.coversAll then ".*".toList else tokensExpression glob.stopsAtSlash glob.tokens
  String.ofList ("(?-u)^".toList ++ body ++ ['$'])

end ClassImports.Glob
