import Std.Data.HashSet.Basic

/-!
# Import sets

The imports found so far, each once and in the order in which they were first found. A set keeps
its names twice, in order and hashed for look-up; every operation keeps the two in step.
-/

namespace ClassImports

/-- An ordered set of import names. -/
structure ImportSet where
  /-- The names, for look-up. -/
  seen : Std.HashSet String := {}
  /-- The names in the order of their first insertion. -/
  order : Array String := #[]

namespace ImportSet

/-- The set without names. -/
def empty : ImportSet := {}

instance : Inhabited ImportSet := ⟨empty⟩

/-- Whether a name is in the set. -/
def contains (set : ImportSet) (name : String) : Bool :=
  set.seen.contains name

/-- Puts a name at the end of the set if it is new, and tells whether it was. -/
def insertNew (set : ImportSet) (name : String) : Bool × ImportSet :=
  if set.contains name then (false, set)
  else (true, { seen := set.seen.insert name, order := set.order.push name })

/-- The set with a name in it. -/
def insert (set : ImportSet) (name : String) : ImportSet :=
  (set.insertNew name).2

/-- The set with all names of a list in it. -/
def insertAll (set : ImportSet) (names : List String) : ImportSet :=
  names.foldl insert set

/-- The set of the names of a list. -/
def ofList (names : List String) : ImportSet :=
  empty.insertAll names

/-- The names in the order of their first insertion. -/
def toList (set : ImportSet) : List String :=
  set.order.toList

/-- The number of names. -/
def size (set : ImportSet) : Nat :=
  set.order.size

/-- Whether the set has no names. -/
def isEmpty (set : ImportSet) : Bool :=
  set.order.isEmpty

/-- Whether two sets hold the same names in the same order. -/
def beq (a b : ImportSet) : Bool :=
  a.order == b.order && a.seen.size == b.seen.size && a.seen.all b.seen.contains

instance : BEq ImportSet := ⟨beq⟩

end ImportSet

end ClassImports
