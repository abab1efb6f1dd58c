/-!
# Dotted names

Inside a class file the segments of a name are separated by slashes; everywhere else they are
separated by dots. The package of a dotted name is what precedes its last dot.
-/

namespace ClassImports

/-- A dot for a slash, and any other character for itself. -/
def dot (c : Char) : Char :=
  if c = '/' then '.' else c

/-- A text with dots for its slashes. -/
def dotted (name : String) : String :=
  String.ofList (name.toList.map dot)

/-- The package of a dotted name; empty for a name without a dot. -/
def packageOf (name : String) : String :=
  String.ofList ((name.toList.reverse.dropWhile (· ≠ '.')).drop 1).reverse

end ClassImports
