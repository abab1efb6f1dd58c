import ClassImports.Toml.Value

/-!
# Putting TOML tables together

A document is a sequence of keys with values and of headers; each adds to the tables there are.
A table may be defined once: a key may not come twice, a header may not name a table that has a
header or that a dotted key made, and a dotted key may not add to a table that a header made. A
header may pass through all tables, and through the last table of an array of tables. A table
that was passed through before its own header came has its place at that header.
-/

namespace ClassImports.Toml

/-- The entries of a table. -/
abbrev Entries := List (String × Item)

/-- The entry with a key. -/
def find? (entries : Entries) (key : String) : Option Item :=
  entries.lookup key

/-- The entries without the one with a key. -/
def erase (entries : Entries) (key : String) : Entries :=
  entries.filter fun entry => entry.1 != key

/-- The entries with another item for a key, in its place. -/
def replace (entries : Entries) (key : String) (item : Item) : Entries :=
  entries.map fun entry => if entry.1 == key then (key, item) else entry

/-- Changes the table at the end of a path, and gives what the change gives besides. `made` is the
origin of the tables that have to be made on the way: a dotted key, unlike a header, does not pass
through tables with a header of their own. -/
def modifyAt {α : Type} (made : Origin) (change : Origin → Entries → Option (α × Entries)) :
    (path : List String) → (origin : Origin) → Entries → Option (α × Entries)
  | [], origin, entries => change origin entries
  | key :: path, _, entries =>
    match find? entries key with
    | none => do
      let (result, inner) ← modifyAt made change path made []
      return (result, entries ++ [(key, .table made inner)])
    | some (.value _) => none
    | some (.tables elements) => do
      let last ← elements.getLast?
      let (result, inner) ← modifyAt made change path .defined last
      return (result, replace entries key (.tables (elements.dropLast ++ [inner])))
    | some (.table origin inner) =>
      if made = .dotted ∧ origin = .defined then none
      else do
        let (result, inner) ← modifyAt made change path origin inner
        return (result, replace entries key (.table origin inner))

/-- Adds a value under a dotted key: `path`, then `key`. -/
def insertValue (path : List String) (key : String) (value : Value) (entries : Entries) :
    Option Entries :=
  let add := fun (origin : Origin) (entries : Entries) =>
    if (origin = .dotted ↔ path = []) ∨ (find? entries key).isSome then none
    else some ((), entries ++ [(key, .value value)])
  (modifyAt .dotted add path .defined entries).map (·.2)

/-- Where the table at hand belongs once it is complete. -/
inductive Place where
  | root
  /-- A table, under `key` in the table at `path`. -/
  | table (path : List String) (key : String)
  /-- An element of an array of tables, under `key` in the table at `path`. -/
  | element (path : List String) (key : String)

/-- A document that is being put together: the tables so far, and the table at hand. -/
structure Draft where
  root : Entries := []
  place : Place := .root
  current : Entries := []

namespace Draft

/-- The tables so far with the table at hand in its place. -/
def close? (draft : Draft) : Option Entries :=
  match draft.place with
  | .root => some draft.current
  | .table path key =>
    (modifyAt .implied
      (fun _ entries => some ((), entries ++ [(key, .table .defined draft.current)]))
      path .defined draft.root).map (·.2)
  | .element path key =>
    (modifyAt .implied
      (fun _ entries =>
        match find? entries key with
        | some (.tables elements) =>
          some ((), replace entries key (.tables (elements ++ [draft.current])))
        | _ => none)
      path .defined draft.root).map (·.2)

/-- Starts the table of a header. -/
def openTable? (draft : Draft) (path : List String) (key : String) : Option Draft := do
  let root ← draft.close?
  let take := fun (_ : Origin) (entries : Entries) =>
    match find? entries key with
    | none => some ([], entries)
    | some (.table .implied inner) => some (inner, erase entries key)
    | some _ => none
  let (current, root) ← modifyAt .implied take path .defined root
  return { root, place := .table path key, current }

/-- Starts the next table of an array of tables. -/
def openElement? (draft : Draft) (path : List String) (key : String) : Option Draft := do
  let root ← draft.close?
  let ensure := fun (_ : Origin) (entries : Entries) =>
    match find? entries key with
    | none => some ((), entries ++ [(key, .tables [])])
    | some (.tables _) => some ((), entries)
    | some _ => none
  let (_, root) ← modifyAt .implied ensure path .defined root
  return { root, place := .element path key, current := [] }

/-- Adds a value to the table at hand. -/
def insert? (draft : Draft) (path : List String) (key : String) (value : Value) : Option Draft :=
  (insertValue path key value draft.current).map fun current => { draft with current }

end Draft

end ClassImports.Toml
