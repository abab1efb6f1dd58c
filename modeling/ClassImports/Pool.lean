import ClassImports.Constant

/-!
# Constant pools

The numbered slots of a class file's constants. Slots are numbered from 1; slot 0 exists in every
pool, is always unusable and is not stored. A wide constant is followed by an unusable slot, its
shadow. A pool put together by hand may be longer than 16-bit numbers can address; such slots
belong to the pool but `entries` leaves them out.
-/

namespace ClassImports

/-- A constant pool: its slots 1, 2, …. -/
structure Pool where
  slots : Array Constant
  deriving DecidableEq, Repr, Inhabited

namespace Pool

/-- The slots that a constant takes up: the constant, and its shadow if it is wide. -/
def withShadow (constant : Constant) : List Constant :=
  if constant.isWide then [constant, .unusable] else [constant]

/-- The pool of the given constants, each followed by its shadow slot if it is wide. -/
def ofConstants (constants : List Constant) : Pool :=
  ⟨(constants.flatMap withShadow).toArray⟩

/-- The pool with the given slots from slot 0 on; what is given for slot 0 does not count. -/
def ofSlots (slots : List Constant) : Pool :=
  ⟨(slots.drop 1).toArray⟩

/-- All slots, slot 0 included. -/
def toList (pool : Pool) : List Constant :=
  .unusable :: pool.slots.toList

/-- The number of slots, slot 0 included. -/
def count (pool : Pool) : Nat :=
  pool.slots.size + 1

/-- The constant in a slot; none in slot 0 and past the end. -/
def get? (pool : Pool) (index : UInt16) : Option Constant :=
  if index = 0 then none else pool.slots[index.toNat - 1]?

/-- The text in a slot, if it holds text. -/
def text? (pool : Pool) (index : UInt16) : Option String :=
  match pool.get? index with
  | some (.utf8 text) => some text
  | _ => none

/-- The name of the type in a slot, if the slot holds a type and the type's name is text. -/
def className? (pool : Pool) (index : UInt16) : Option String :=
  match pool.get? index with
  | some (.classInfo name) => pool.text? name
  | _ => none

/-- The largest slot number that 16 bits can hold. -/
def lastIndex : Nat := 65535

/-- The slots from slot 1 on with their numbers, as far as 16 bits can number them. -/
def entries (pool : Pool) : List (Nat × Constant) :=
  ((pool.slots.toList.take lastIndex).zipIdx 1).map fun (constant, index) => (index, constant)

/-- Whether two pools are equal when floating-point numbers are compared as numbers. -/
def sameValue (a b : Pool) : Bool :=
  a.slots.size == b.slots.size &&
    (a.slots.toList.zip b.slots.toList).all fun (x, y) => x.sameValue y

@[simp] theorem toList_ofConstants (constants : List Constant) :
    (ofConstants constants).toList = .unusable :: constants.flatMap withShadow := by
  simp [toList, ofConstants]

@[simp] theorem toList_ofSlots (slots : List Constant) :
    (ofSlots slots).toList = .unusable :: slots.drop 1 := by
  simp [toList, ofSlots]

theorem length_toList (pool : Pool) : pool.toList.length = pool.count := by
  simp [toList, count]

@[simp] theorem get?_zero (pool : Pool) : pool.get? 0 = none := rfl

end Pool

end ClassImports
