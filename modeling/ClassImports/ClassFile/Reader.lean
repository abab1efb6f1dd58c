import ClassImports.ClassFile.Basic
import ClassImports.ClassFile.Code
import ClassImports.ModifiedUtf8

/-!
# Reading class files

`ClassFile.ofBytes` reads the head of a class file and ignores what follows it. A reader is a step
from a position in the octets to a value and a later position; it fails at the first octet that is
missing or wrong. The constants are read slot by slot: a wide constant also takes the slot after
it, except in the last slot, where nothing is left to take.
-/

namespace ClassImports.ClassFile

/-- Why octets are not the start of a class file. -/
inductive ReadError where
  /-- At `offset` there are fewer than `needed` octets left. -/
  | truncated (offset needed : Nat)
  /-- The first four octets are not those of a class file. -/
  | badMagic (found : Nat)
  /-- No kind of constant has this code; the constant would be in slot `index`. -/
  | unknownTag (code : UInt8) (index : Nat)
  /-- The count of slots leaves no room for slot 0. -/
  | noSlots
  deriving DecidableEq, Repr

/-- The eight hexadecimal digits of a 32-bit number. -/
def hex32 (n : Nat) : String :=
  String.ofList ((BigEndian.encode 4 n).flatMap fun octet =>
    [Nat.digitChar (octet.toNat / 16), Nat.digitChar (octet.toNat % 16)])

/-- The error in words. -/
def ReadError.message : ReadError → String
  | truncated offset needed => "unexpected end of class file at byte " ++ toString offset ++
      " (needed " ++ toString needed ++ " more)"
  | badMagic found => "bad magic number 0x" ++ hex32 found
  | unknownTag code index => "unknown constant pool tag " ++ toString code.toNat ++ " at index " ++
      toString index
  | noSlots => "constant pool count must be at least 1"

/-- A position in the octets of a file: how many were read, and what is left. -/
structure Cursor where
  offset : Nat
  rest : Bytes
  deriving DecidableEq, Repr

/-- A step that reads a value. -/
abbrev Reader := StateT Cursor (Except ReadError)

namespace Reader

/-- Reads the next `n` octets. -/
def take (n : Nat) : Reader Bytes := fun cursor =>
  let front := cursor.rest.take n
  if front.length = n then .ok (front, ⟨cursor.offset + n, cursor.rest.drop n⟩)
  else .error (.truncated cursor.offset n)

/-- Reads a number of `width` octets. -/
def number (width : Nat) : Reader Nat := do
  return BigEndian.decode (← take width)

/-- Reads one octet. -/
def octet : Reader UInt8 := do
  return (← number 1).toUInt8

/-- Reads a 16-bit number. -/
def word : Reader UInt16 := do
  return (← number 2).toUInt16

/-- Reads a text: its length, then its octets. -/
def text : Reader String := do
  return ModifiedUtf8.decode (← take (← number 2))

/-- Reads a constant of a known kind. -/
def body : Tag → Reader Constant
  | .unusable => return .unusable
  | .utf8 => return .utf8 (← text)
  | .integer => return .integer (← number 4).toUInt32.toInt32
  | .float => return .float (← number 4).toUInt32
  | .long => return .long (← number 8).toUInt64.toInt64
  | .double => return .double (← number 8).toUInt64
  | .classInfo => return .classInfo (← word)
  | .link kind => return .link kind (← word)
  | .pair kind => do
    let first ← word
    return .pair kind first (← word)
  | .methodHandle => do
    let kind ← octet
    return .methodHandle kind (← word)

/-- Reads the constant of slot `index`. -/
def constant (index : Nat) : Reader Constant := do
  let code ← octet
  match Tag.ofCode? code with
  | some tag => body tag
  | none => throw (.unknownTag code index)

/-- The slot number `width` after `index`, or the largest slot number if that is past it. -/
def nextIndex (index : UInt16) (width : Nat) : UInt16 :=
  UInt16.ofNat (min (index.toNat + width) Pool.lastIndex)

theorem lt_nextIndex {count index : UInt16} {width : Nat} (h : index < count) (hwidth : 0 < width) :
    index < nextIndex index width := by
  have hindex := UInt16.lt_iff_toNat_lt.1 h
  have hcount : count.toNat < 65536 := count.toNat_lt
  rw [UInt16.lt_iff_toNat_lt, nextIndex, Pool.lastIndex,
    UInt16.toNat_ofNat_of_lt' (show _ < 65536 by omega)]
  omega

/-- Reads the slots of a pool of `count` slots from slot `index` on; `before` holds the slots from
slot 1 to there. -/
def slots (count index : UInt16) (before : Array Constant) : Reader (Array Constant) :=
  if index < count then do
    let next ← constant index.toNat
    let before := before.push next
    let before := if next.isWide && index + 1 < count then before.push .unusable else before
    slots count (nextIndex index next.width) before
  else return before
termination_by count.toNat - index.toNat
decreasing_by
  have h : index < count := ‹_›
  have hnext := UInt16.lt_iff_toNat_lt.1 (lt_nextIndex h next.width_pos)
  rw [UInt16.lt_iff_toNat_lt] at h
  omega

/-- Reads a constant pool. -/
def pool : Reader Pool := do
  let count ← word
  if count = 0 then
    throw .noSlots
  else
    return ⟨← slots count 1 #[]⟩

/-- Reads the head of a class file. -/
def head : Reader ClassFile := do
  let found ← number 4
  if found ≠ magic then
    throw (.badMagic found)
  else
    let minor ← word
    let major ← word
    let pool ← pool
    let accessFlags ← word
    let thisClass ← word
    let superClass ← word
    return { version := ⟨major, minor⟩, pool, accessFlags, thisClass, superClass }

end Reader

/-- The class file whose head the octets start with. -/
def ofBytes (bytes : Bytes) : Except ReadError ClassFile :=
  (Reader.head ⟨0, bytes⟩).map (·.1)

end ClassImports.ClassFile
