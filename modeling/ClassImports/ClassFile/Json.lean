import ClassImports.ClassFile.Basic
import ClassImports.Decimal.Shortest
import ClassImports.Json

/-!
# Class files as JSON

The whole head of a class file as a JSON value, all slots of its pool included. A constant is an
object with one field, named for its kind. Floating-point constants are written with the fewest
digits that read back, those that are no numbers as null.
-/

namespace ClassImports

/-- Where a number without an exponent ends: it is written in positions if its point comes after
more than `low` and at most `high` digits, and with an exponent otherwise. -/
structure FloatForm where
  layout : Decimal.Layout
  low : Int
  high : Int
  deriving DecidableEq, Repr

/-- Single-precision numbers have up to 13 digits before the point and 5 zeros after it. -/
def FloatForm.single : FloatForm := ⟨.single, -6, 13⟩

/-- Double-precision numbers have up to 16 digits before the point and 4 zeros after it. -/
def FloatForm.double : FloatForm := ⟨.double, -5, 16⟩

/-- An exponent with its sign. -/
def signed (exponent : Int) : List Char :=
  let digits := Nat.toDigits 10 exponent.natAbs
  if exponent < 0 then '-' :: digits else '+' :: digits

/-- A decimal in scientific notation, with one digit before the point. -/
def scientific (decimal : Decimal.Digits) : List Char :=
  let exponent := signed (decimal.point - 1)
  match decimal.text with
  | first :: second :: rest => first :: '.' :: second :: rest ++ 'e' :: exponent
  | text => text ++ 'e' :: exponent

/-- A magnitude other than zero in the given form; a whole number ends in `.0`. -/
def FloatForm.text (form : FloatForm) (magnitude : Decimal.Magnitude) : List Char :=
  let decimal := Decimal.shortest .even magnitude
  if form.low < decimal.point && decimal.point ≤ form.high then
    if 0 ≤ decimal.exponent then decimal.positional ++ ['.', '0'] else decimal.positional
  else scientific decimal

/-- A floating-point number as JSON. -/
def FloatForm.toJson (form : FloatForm) (bits : Nat) : Json :=
  match Decimal.Binary.ofBits form.layout bits with
  | .nan => .null
  | .infinite _ => .null
  | .finite negative magnitude =>
    let text := if magnitude.significand = 0 then ['0', '.', '0'] else form.text magnitude
    .number (String.ofList (if negative then '-' :: text else text))

/-- The field that holds the slot a link points at. -/
def LinkKind.field : LinkKind → String
  | string => "string_index"
  | methodType => "descriptor_index"
  | moduleInfo => "name_index"
  | packageInfo => "name_index"

/-- The fields that hold the slots a pair points at. -/
def PairKind.fields : PairKind → String × String
  | fieldref => ("class_index", "name_and_type_index")
  | methodref => ("class_index", "name_and_type_index")
  | interfaceMethodref => ("class_index", "name_and_type_index")
  | nameAndType => ("name_index", "descriptor_index")
  | dynamic => ("bootstrap_method_attr_index", "name_and_type_index")
  | invokeDynamic => ("bootstrap_method_attr_index", "name_and_type_index")

namespace Constant

/-- What the one field of a constant's object holds. -/
def content : Constant → Json
  | unusable => .null
  | utf8 text => .string text
  | integer value => .number (toString value.toInt)
  | float bits => FloatForm.single.toJson bits.toNat
  | long value => .number (toString value.toInt)
  | double bits => FloatForm.double.toJson bits.toNat
  | classInfo name => .object [("name_index", .ofNat name.toNat)]
  | link kind target => .object [(kind.field, .ofNat target.toNat)]
  | pair kind first second =>
    .object [(kind.fields.1, .ofNat first.toNat), (kind.fields.2, .ofNat second.toNat)]
  | methodHandle kind target =>
    .object [("reference_kind", .ofNat kind.toNat), ("reference_index", .ofNat target.toNat)]

/-- A constant as JSON. -/
def toJson (constant : Constant) : Json :=
  if constant = unusable then .string constant.tag.name
  else .object [(constant.tag.name, constant.content)]

end Constant

/-- A version as JSON. -/
def Version.toJson (version : Version) : Json :=
  .object [("major", .ofNat version.major.toNat), ("minor", .ofNat version.minor.toNat)]

/-- The head of a class file as JSON. -/
def ClassFile.toJson (file : ClassFile) : Json :=
  .object [
    ("version", file.version.toJson),
    ("constant_pool", .object [("entries", .array (file.pool.toList.map Constant.toJson))]),
    ("access_flags", .ofNat file.accessFlags.toNat),
    ("this_class", .ofNat file.thisClass.toNat),
    ("super_class", .ofNat file.superClass.toNat)]

end ClassImports
