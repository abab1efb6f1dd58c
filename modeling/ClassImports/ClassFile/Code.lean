import ClassImports.Constant

/-!
# Constant codes

Each constant in a file is announced by an octet that tells its kind. The unusable slot is the one
kind without an octet, since nothing is written for it.
-/

namespace ClassImports.Tag

/-- The octet that announces a constant of this kind, if it is written at all. -/
def code? : Tag → Option UInt8
  | unusable => none
  | utf8 => some 1
  | integer => some 3
  | float => some 4
  | long => some 5
  | double => some 6
  | classInfo => some 7
  | link kind => some kind.code
  | pair kind => some kind.code
  | methodHandle => some 15

/-- The kind that an octet announces. -/
def ofCode? (code : UInt8) : Option Tag :=
  all.find? fun tag => tag.code? == some code

end ClassImports.Tag
