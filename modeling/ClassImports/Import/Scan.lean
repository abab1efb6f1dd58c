import ClassImports.Import.ClassName
import ClassImports.Import.RawText
import ClassImports.Import.Set

/-!
# The imports of a pool

One walk over the slots of a pool collects the imports of its class constants and of its text
constants, in the order of the slots. No other constant contributes, and none stops the walk.
-/

namespace ClassImports

/-- The set with what one constant of the pool contributes. -/
def ImportSet.insertConstant (pool : Pool) (set : ImportSet) : Constant → ImportSet
  | .classInfo name =>
    match pool.classImport? name with
    | some found => set.insert found
    | none => set
  | .utf8 text => set.insertAll (RawText.imports text)
  | _ => set

/-- All imports of a pool. -/
def Pool.imports (pool : Pool) : ImportSet :=
  pool.entries.foldl (fun set entry => set.insertConstant pool entry.2) .empty

end ClassImports
