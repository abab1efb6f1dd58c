import ClassImports.Text.Extending
import ClassImports.Text.Visible

/-!
# Quoted text

Text between double quotes, in which every character can be seen: NUL, tab, line feed, carriage
return, the quote and the backslash have short escapes; a character that shows nothing of its own
or that would join the one before it is written by its number.
-/

namespace ClassImports.Text

/-- A number in lower-case hexadecimal digits. -/
def hex (n : Nat) : List Char :=
  Nat.toDigits 16 n

/-- How a character is written between quotes. -/
def quoteChar (c : Char) : List Char :=
  match c with
  | '\x00' => ['\\', '0']
  | '\t' => ['\\', 't']
  | '\n' => ['\\', 'n']
  | '\r' => ['\\', 'r']
  | '"' => ['\\', '"']
  | '\\' => ['\\', '\\']
  | c =>
    if isVisible c && !isExtending c then [c] else ['\\', 'u', '\x7b'] ++ hex c.toNat ++ ['\x7d']

/-- A text in quotes. -/
def quoted (text : String) : String :=
  String.ofList ('"' :: text.toList.flatMap quoteChar ++ ['"'])

end ClassImports.Text
