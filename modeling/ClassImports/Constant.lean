import ClassImports.BigEndian

/-!
# Constants

One slot of a constant pool. Constants that only point at other slots are grouped by shape: a
`link` points at one slot, a `pair` at two. A `class` constant points at one slot too but stands
apart, since it is what names a type. Floating-point constants are kept as their bits, so that
equality of constants is equality of what the file holds; the numeric comparison, under which a
NaN differs from itself and the two zeros agree, is `Constant.sameValue`.
-/

namespace ClassImports

/-- The kinds of constant that point at one slot, `class` apart. -/
inductive LinkKind where
  | string
  | methodType
  | moduleInfo
  | packageInfo
  deriving DecidableEq, Repr, Inhabited

/-- The kinds of constant that point at two slots. -/
inductive PairKind where
  | fieldref
  | methodref
  | interfaceMethodref
  | nameAndType
  | dynamic
  | invokeDynamic
  deriving DecidableEq, Repr, Inhabited

/-- The content of a constant pool slot. -/
inductive Constant where
  /-- No constant: slot 0, and the slot after a wide constant. -/
  | unusable
  | utf8 (text : String)
  | integer (value : Int32)
  | float (bits : UInt32)
  | long (value : Int64)
  | double (bits : UInt64)
  /-- A type, whose name stands in slot `name`. -/
  | classInfo (name : UInt16)
  | link (kind : LinkKind) (target : UInt16)
  | pair (kind : PairKind) (first second : UInt16)
  | methodHandle (kind : UInt8) (target : UInt16)
  deriving DecidableEq, Repr, Inhabited

/-- What kind of constant a slot holds. -/
inductive Tag where
  | unusable
  | utf8
  | integer
  | float
  | long
  | double
  | classInfo
  | link (kind : LinkKind)
  | pair (kind : PairKind)
  | methodHandle
  deriving DecidableEq, Repr, Inhabited

namespace LinkKind

/-- The octet that announces the constant in a file. -/
def code : LinkKind → UInt8
  | string => 8
  | methodType => 16
  | moduleInfo => 19
  | packageInfo => 20

/-- The kind's name in dumps. -/
def name : LinkKind → String
  | string => "string"
  | methodType => "method_type"
  | moduleInfo => "module"
  | packageInfo => "package"

/-- All kinds. -/
def all : List LinkKind := [string, methodType, moduleInfo, packageInfo]

/-- The kind that an octet announces. -/
def ofCode? (code : UInt8) : Option LinkKind :=
  all.find? fun kind => kind.code == code

end LinkKind

namespace PairKind

/-- The octet that announces the constant in a file. -/
def code : PairKind → UInt8
  | fieldref => 9
  | methodref => 10
  | interfaceMethodref => 11
  | nameAndType => 12
  | dynamic => 17
  | invokeDynamic => 18

/-- The kind's name in dumps. -/
def name : PairKind → String
  | fieldref => "fieldref"
  | methodref => "methodref"
  | interfaceMethodref => "interface_methodref"
  | nameAndType => "name_and_type"
  | dynamic => "dynamic"
  | invokeDynamic => "invoke_dynamic"

/-- All kinds. -/
def all : List PairKind :=
  [fieldref, methodref, interfaceMethodref, nameAndType, dynamic, invokeDynamic]

/-- The kind that an octet announces. -/
def ofCode? (code : UInt8) : Option PairKind :=
  all.find? fun kind => kind.code == code

end PairKind

namespace Tag

/-- The tag's name in dumps. -/
def name : Tag → String
  | unusable => "unusable"
  | utf8 => "utf8"
  | integer => "integer"
  | float => "float"
  | long => "long"
  | double => "double"
  | classInfo => "class"
  | link kind => kind.name
  | pair kind => kind.name
  | methodHandle => "method_handle"

/-- All tags. -/
def all : List Tag :=
  [unusable, utf8, integer, float, long, double, classInfo, methodHandle] ++
    LinkKind.all.map link ++ PairKind.all.map pair

/-- The tag with a given name. -/
def ofName? (name : String) : Option Tag :=
  all.find? fun tag => tag.name == name

end Tag

namespace Constant

/-- The kind of a constant. -/
def tag : Constant → Tag
  | unusable => .unusable
  | utf8 _ => .utf8
  | integer _ => .integer
  | float _ => .float
  | long _ => .long
  | double _ => .double
  | classInfo _ => .classInfo
  | link kind _ => .link kind
  | pair kind _ _ => .pair kind
  | methodHandle _ _ => .methodHandle

/-- Whether a constant takes two slots, the second of them unusable. -/
def isWide : Constant → Bool
  | long _ => true
  | double _ => true
  | _ => false

/-- How many slots a constant takes. -/
def width (constant : Constant) : Nat :=
  if constant.isWide then 2 else 1

theorem width_pos (constant : Constant) : 0 < constant.width := by
  unfold width
  split <;> decide

/-! ## Numeric comparison -/

/-- Whether the bits are those of a single-precision NaN. -/
def isNaN32 (bits : UInt32) : Bool :=
  bits.toNat % 0x80000000 > 0x7F800000

/-- Whether the bits are those of a double-precision NaN. -/
def isNaN64 (bits : UInt64) : Bool :=
  bits.toNat % 0x8000000000000000 > 0x7FF0000000000000

/-- Equality of single-precision numbers: NaN equals nothing, and the two zeros are equal. -/
def sameFloat (a b : UInt32) : Bool :=
  !isNaN32 a && !isNaN32 b &&
    (a == b || (a.toNat % 0x80000000 == 0 && b.toNat % 0x80000000 == 0))

/-- Equality of double-precision numbers: NaN equals nothing, and the two zeros are equal. -/
def sameDouble (a b : UInt64) : Bool :=
  !isNaN64 a && !isNaN64 b &&
    (a == b || (a.toNat % 0x8000000000000000 == 0 && b.toNat % 0x8000000000000000 == 0))

/-- Whether two constants are equal when floating-point numbers are compared as numbers. -/
def sameValue : Constant → Constant → Bool
  | float a, float b => sameFloat a b
  | double a, double b => sameDouble a b
  | a, b => a == b

end Constant

end ClassImports
