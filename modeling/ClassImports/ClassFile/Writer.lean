import ClassImports.ClassFile.Basic
import ClassImports.ClassFile.Code
import ClassImports.ModifiedUtf8

/-!
# Writing class files

The octets of a minimal class file: its head, then empty tables of interfaces, fields, methods and
attributes. Two numbers may not fit their 16 bits, the count of slots and the length of a text,
and writing fails rather than shorten either. An unusable slot is not written.
-/

namespace ClassImports.ClassFile

/-- Why a class file cannot be written. -/
inductive WriteError where
  /-- The pool has `count` slots, which is more than 65535. -/
  | tooManySlots (count : Nat)
  /-- A text takes `length` octets, which is more than 65535. -/
  | textTooLong (length : Nat)
  deriving DecidableEq, Repr

/-- The error in words. -/
def WriteError.message : WriteError → String
  | tooManySlots count => "constant pool count of " ++ toString count ++
      " does not fit in a u16 field"
  | textTooLong length => "utf8 length of " ++ toString length ++ " does not fit in a u16 field"

/-- A 16-bit number. -/
def word (n : UInt16) : Bytes :=
  BigEndian.encode 2 n.toNat

/-- What is written for a text: how many octets it takes, and these octets. -/
def encodeText (text : String) : Except WriteError Bytes :=
  let octets := ModifiedUtf8.encode text
  if octets.length ≤ 65535 then .ok (BigEndian.encode 2 octets.length ++ octets)
  else .error (.textTooLong octets.length)

/-- What is written for a constant after the octet that announces it. -/
def encodeBody : Constant → Except WriteError Bytes
  | .unusable => .ok []
  | .utf8 text => encodeText text
  | .integer value => .ok (BigEndian.encode 4 value.toUInt32.toNat)
  | .float bits => .ok (BigEndian.encode 4 bits.toNat)
  | .long value => .ok (BigEndian.encode 8 value.toUInt64.toNat)
  | .double bits => .ok (BigEndian.encode 8 bits.toNat)
  | .classInfo name => .ok (word name)
  | .link _ target => .ok (word target)
  | .pair _ first second => .ok (word first ++ word second)
  | .methodHandle kind target => .ok (kind :: word target)

/-- What is written for a constant. -/
def encodeConstant (constant : Constant) : Except WriteError Bytes :=
  (encodeBody constant).map (constant.tag.code?.toList ++ ·)

/-- What is written for constants one after the other; the first that cannot be written decides
the error. -/
def encodeConstants (constants : List Constant) : Except WriteError Bytes :=
  (constants.mapM encodeConstant).map List.flatten

/-- The counts of interfaces, fields, methods and attributes, all of them zero. -/
def emptyTables : Bytes := List.replicate 8 0

/-- The octets of a class file with this head. -/
def toBytes (file : ClassFile) : Except WriteError Bytes :=
  if file.pool.count ≤ 65535 then
    (encodeConstants (file.pool.entries.map (·.2))).map fun constants =>
      BigEndian.encode 4 magic ++ word file.version.minor ++ word file.version.major ++
        BigEndian.encode 2 file.pool.count ++ constants ++ word file.accessFlags ++
        word file.thisClass ++ word file.superClass ++ emptyTables
  else .error (.tooManySlots file.pool.count)

end ClassImports.ClassFile
