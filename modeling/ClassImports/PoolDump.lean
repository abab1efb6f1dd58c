import ClassImports.ClassFile.Basic
import ClassImports.Decimal.Shortest
import ClassImports.Import.Scan
import ClassImports.Json
import ClassImports.Text.Quoted

/-!
# Pool dumps

A dump lists the constants of a pool, one row for each slot in use: the number of the slot, the
kind of the constant, what it holds, and the imports it contributes. The imports of a row are its
own; what an earlier row has named is named again.
-/

namespace ClassImports

/-- A row of a dump. -/
structure PoolRow where
  index : Nat
  tag : Tag
  value : String
  imports : List String
  deriving DecidableEq, Repr, Inhabited

/-- The slot that a constant refers to. -/
def slotText (index : UInt16) : String :=
  "#" ++ toString index.toNat

/-- A floating-point number as a reader wants it: the fewest digits that read back, without an
exponent, and the larger of two such numbers that are equally near. -/
def numberText (layout : Decimal.Layout) (bits : Nat) : String :=
  match Decimal.Binary.ofBits layout bits with
  | .nan => "NaN"
  | .infinite negative => if negative then "-inf" else "inf"
  | .finite negative magnitude =>
    let digits :=
      if magnitude.significand = 0 then ['0'] else (Decimal.shortest .up magnitude).positional
    String.ofList (if negative then '-' :: digits else digits)

/-- What stands between the two slots of a pair: a member belongs to its class with a dot, all else
has a colon. -/
def PairKind.separator : PairKind → String
  | fieldref => "."
  | methodref => "."
  | interfaceMethodref => "."
  | nameAndType => ":"
  | dynamic => ":"
  | invokeDynamic => ":"

/-- What a constant holds, in words. -/
def Constant.describe : Constant → String
  | unusable => ""
  | utf8 text => Text.quoted text
  | integer value => toString value.toInt
  | float bits => numberText .single bits.toNat ++ "f"
  | long value => toString value.toInt ++ "L"
  | double bits => numberText .double bits.toNat ++ "d"
  | classInfo name => slotText name
  | link _ target => slotText target
  | pair kind first second => slotText first ++ kind.separator ++ slotText second
  | methodHandle kind target => toString kind.toNat ++ ":" ++ slotText target

namespace Pool

/-- The imports that one constant of the pool contributes. -/
def importsOf (pool : Pool) : Constant → List String
  | .classInfo name => (pool.classImport? name).toList
  | .utf8 text => RawText.imports text
  | _ => []

/-- The rows of a pool's dump. -/
def rows (pool : Pool) : List PoolRow :=
  (pool.entries.filter fun entry => entry.2 ≠ .unusable).map fun (index, constant) =>
    { index, tag := constant.tag, value := constant.describe, imports := pool.importsOf constant }

end Pool

namespace PoolRow

/-- A text with blanks before it, up to a width. -/
def padLeft (width : Nat) (text : String) : String :=
  String.ofList (List.replicate (width - text.length) ' ') ++ text

/-- A text with blanks after it, up to a width. -/
def padRight (width : Nat) (text : String) : String :=
  text ++ String.ofList (List.replicate (width - text.length) ' ')

/-- A row as a line of text. -/
def line (row : PoolRow) : String :=
  padLeft 5 (toString row.index) ++ " " ++ padRight 20 row.tag.name ++ " " ++ row.value ++
    (if row.imports.isEmpty then "" else "  -> " ++ String.intercalate ", " row.imports)

/-- A row as JSON. -/
def toJson (row : PoolRow) : Json :=
  .object [
    ("index", .ofNat row.index),
    ("tag", .string row.tag.name),
    ("value", .string row.value),
    ("imports", .ofTexts row.imports)]

/-- Rows in a format. -/
def renderAll (rows : List PoolRow) : Format → String
  | .text => String.join (rows.map fun row => row.line ++ "\n")
  | format => (Json.array (rows.map toJson)).render format

end PoolRow

end ClassImports
