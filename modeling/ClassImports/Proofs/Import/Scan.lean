import Mathlib
import ClassImports.PoolDump
import ClassImports.Proofs.Import.Set

/-!
# What the walk over a pool collects

The imports of a pool are what its entries contribute, one after the other, each name where it came
first (`toList_imports_eq`). So a name is an import of the pool exactly if some entry contributes it
(`mem_imports_iff`).
-/

namespace ClassImports.Pool

theorem insertConstant_eq_insertAll (pool : Pool) (set : ImportSet) (constant : Constant) :
    set.insertConstant pool constant = set.insertAll (pool.importsOf constant) := by
  cases constant with
  | classInfo name =>
    rw [ImportSet.insertConstant, importsOf]
    cases pool.classImport? name with
    | none => rfl
    | some found => rfl
  | utf8 text => rfl
  | _ => rfl

/-- Going over entries puts in all that they contribute, one after the other. -/
theorem foldl_insertConstant (pool : Pool) (set : ImportSet) (entries : List (Nat × Constant)) :
    entries.foldl (fun set entry => set.insertConstant pool entry.2) set =
      set.insertAll (entries.flatMap fun entry => pool.importsOf entry.2) := by
  induction entries generalizing set with
  | nil => rfl
  | cons entry rest ih =>
    rw [List.foldl_cons, ih, insertConstant_eq_insertAll, List.flatMap_cons,
      ImportSet.insertAll_append]

theorem toList_imports_eq (pool : Pool) :
    pool.imports.toList =
      (pool.entries.flatMap fun entry => pool.importsOf entry.2).eraseDups := by
  rw [imports, foldl_insertConstant]
  exact ImportSet.toList_ofList _

theorem mem_imports_iff {pool : Pool} {name : String} :
    name ∈ pool.imports.toList ↔
      ∃ index constant, (index, constant) ∈ pool.entries ∧ name ∈ pool.importsOf constant := by
  rw [toList_imports_eq, List.mem_eraseDups, List.mem_flatMap]
  constructor
  · rintro ⟨⟨index, constant⟩, hentry, hname⟩
    exact ⟨index, constant, hentry, hname⟩
  · rintro ⟨index, constant, hentry, hname⟩
    exact ⟨(index, constant), hentry, hname⟩

/-- What a class constant contributes is what its name stands for, if its name is text. -/
theorem mem_importsOf_classInfo_iff {pool : Pool} {index : UInt16} {name : String} :
    name ∈ pool.importsOf (.classInfo index) ↔
      ∃ text, pool.text? index = some text ∧ ClassName.import? text = some name := by
  rw [importsOf, classImport?, Option.mem_toList, Option.bind_eq_some_iff]

end ClassImports.Pool
