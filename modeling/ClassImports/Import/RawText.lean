import ClassImports.Import.ObjectType
import ClassImports.Text.Dotted

/-!
# Imports from text constants

Types that no class constant names may still stand in a descriptor, or in a text that looks like
the path of a type. A text is taken for one of these if, without the padding at its ends, it holds
only the characters of descriptors, has a slash but not at its start, and has no empty segment. A
method descriptor gives all object types in it; any other text gives its object type if it has
exactly one, and itself otherwise.
-/

namespace ClassImports.RawText

/-- Characters up to the blank, which do not count at the ends of a text. -/
def isPadding (c : Char) : Bool :=
  c ≤ ' '

/-- A text without the padding at its ends. -/
def trim (text : List Char) : List Char :=
  ((text.dropWhile isPadding).reverse.dropWhile isPadding).reverse

/-- The characters of descriptors and of names with slashes. -/
def isReferenceChar (c : Char) : Bool :=
  c.isAlphanum || c == '(' || c == ')' || c == '[' || c == ';' || c == '/'

/-- Whether two dots follow each other. -/
def hasDoubleDot : List Char → Bool
  | '.' :: '.' :: _ => true
  | _ :: rest => hasDoubleDot rest
  | [] => false

/-- The dotted form of a text that may refer to types. -/
def reference? (raw : List Char) : Option (List Char) :=
  let text := trim raw
  let reference := text.map dot
  if text.all isReferenceChar && text.contains '/' && text.head? != some '/' &&
      !hasDoubleDot reference then
    some reference
  else none

/-- The types that a reference in dotted form refers to. -/
def types (reference : List Char) : List (List Char) :=
  let names := ObjectType.names reference
  if reference.head? = some '(' then names
  else
    match names with
    | [name] => [name]
    | _ => [reference]

/-- The imports that a text constant stands for. -/
def imports (raw : String) : List String :=
  match reference? raw.toList with
  | some reference => (types reference).map String.ofList
  | none => []

end ClassImports.RawText
