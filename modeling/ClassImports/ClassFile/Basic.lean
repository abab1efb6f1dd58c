import ClassImports.Pool
import ClassImports.Text.Dotted

/-!
# Class files

The part of a class file that import analysis needs: its format version, its constant pool, and
which slots name the class and its superclass. A format version stands for the Java release that
writes it.
-/

namespace ClassImports

/-- A Java release, by its number: 0 is written `1.0`, 8 is written `1.8`, 9 is written `9`. -/
structure Release where
  number : Nat
  deriving DecidableEq, Repr, Inhabited

/-- How a release is written. -/
def Release.text (release : Release) : String :=
  if release.number ≤ 8 then "1." ++ toString release.number else toString release.number

/-- A version of the class file format. -/
structure Version where
  major : UInt16
  minor : UInt16
  deriving DecidableEq, Repr, Inhabited

namespace Version

/-- The release that writes this version of the format. -/
def release (version : Version) : Release :=
  if version.major < 45 then ⟨0⟩
  else if version.major = 45 then (if version.minor < 3 then ⟨0⟩ else ⟨1⟩)
  else ⟨version.major.toNat - 44⟩

/-- How a version is written. -/
def text (version : Version) : String :=
  toString version.major.toNat ++ "." ++ toString version.minor.toNat

/-- The order of versions: by major number, then by minor number. -/
def le (a b : Version) : Bool :=
  a.major < b.major || (a.major == b.major && a.minor ≤ b.minor)

/-- The later of two versions. -/
def later (a b : Version) : Version :=
  if a.le b then b else a

end Version

/-- The head of a class file. -/
structure ClassFile where
  version : Version
  pool : Pool
  accessFlags : UInt16
  /-- The slot of the class itself. -/
  thisClass : UInt16
  /-- The slot of the superclass. -/
  superClass : UInt16
  deriving DecidableEq, Repr, Inhabited

namespace ClassFile

/-- The octets with which every class file begins. -/
def magic : Nat := 0xCAFEBABE

/-- The dotted name of the class. -/
def className? (file : ClassFile) : Option String :=
  (file.pool.className? file.thisClass).map dotted

/-- The dotted name of the superclass; a class at the root of the hierarchy has none. -/
def superClassName? (file : ClassFile) : Option String :=
  (file.pool.className? file.superClass).map dotted

/-- Whether two class files are equal when floating-point constants are compared as numbers. -/
def sameValue (a b : ClassFile) : Bool :=
  a.version == b.version && a.pool.sameValue b.pool && a.accessFlags == b.accessFlags &&
    a.thisClass == b.thisClass && a.superClass == b.superClass

end ClassFile

end ClassImports
