/-!
# TOML values

What a TOML document holds. Tables keep their entries in the order of the document. Numbers with a
fraction and dates are told apart from everything else but not kept, since no setting is one.
-/

namespace ClassImports.Toml

/-- A TOML value. -/
inductive Value where
  | string (text : String)
  | integer (value : Int)
  | float
  | boolean (value : Bool)
  | dateTime
  | array (items : List Value)
  | table (entries : List (String × Value))

/-- A table that is being put together may still grow, depending on how it came about. -/
inductive Origin where
  /-- It has a header of its own, or is the whole document. -/
  | defined
  /-- A longer header passed through it. -/
  | implied
  /-- A dotted key passed through it. -/
  | dotted
  deriving DecidableEq, Repr

/-- An entry of a table that is being put together. -/
inductive Item where
  /-- A value, which is complete. -/
  | value (value : Value)
  | table (origin : Origin) (entries : List (String × Item))
  /-- The tables of an array of tables. -/
  | tables (elements : List (List (String × Item)))

mutual

/-- An entry as a value. -/
def Item.toValue : Item → Value
  | .value value => value
  | .table _ entries => .table (toEntries entries)
  | .tables elements => .array (toTables elements)

/-- The entries of a table as values. -/
def toEntries : List (String × Item) → List (String × Value)
  | [] => []
  | (key, item) :: entries => (key, item.toValue) :: toEntries entries

/-- The tables of an array as values. -/
def toTables : List (List (String × Item)) → List Value
  | [] => []
  | entries :: elements => .table (toEntries entries) :: toTables elements

end

end ClassImports.Toml
