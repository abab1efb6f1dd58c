import ClassImports.Import.ObjectType
import ClassImports.Pool
import ClassImports.Text.Dotted

/-!
# Imports from class constants

A class constant names its type with slashes, or, for an array, by the descriptor of the array. A
name without a slash (a type in the default package, an array of primitives) is not an import.
-/

namespace ClassImports

namespace ClassName

/-- The ending that some names carry and that is no part of the type's name. -/
def ending : List Char := ['.', 'c', 'l', 'a', 's', 's']

/-- The text without the ending, if it has it. -/
def dropEnding (text : List Char) : List Char :=
  if ending.isSuffixOf text then text.take (text.length - ending.length) else text

/-- The import that a dotted name stands for: the first object type in it if there is one, as in
the descriptor of an array, and otherwise the name itself. -/
def unwrap (text : List Char) : List Char :=
  (ObjectType.names text).head?.getD text

/-- The import that the name of a class constant stands for, if it is one. -/
def import? (raw : String) : Option String :=
  let text := raw.toList
  if '/' ∈ text then some (String.ofList (unwrap (dropEnding (text.map dot)))) else none

end ClassName

/-- The import that a class constant stands for whose name is in slot `name`; none if the slot
holds no text. -/
def Pool.classImport? (pool : Pool) (name : UInt16) : Option String :=
  (pool.text? name).bind ClassName.import?

end ClassImports
