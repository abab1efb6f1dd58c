import Mathlib
import ClassImports.Proofs.Import.Scan
import ClassImports.Proofs.Pool.Entries

/-!
# Pools that grow

Slots that are added at the end of a pool leave what its entries refer to as it is, and can only
make more of them refer to something. So no import gets lost, and if no class constant refers past
the end of the pool, the imports of the grown pool begin with those that were there before
(`imports_of_isPrefix`). A class constant that did refer past the end may put its import in front of
others: `dangling` is such a pool, `resolved` what it grows to.
-/

namespace ClassImports.Pool

variable {pool grown : Pool}

theorem isPrefix_slots (h : pool.toList <+: grown.toList) :
    pool.slots.toList <+: grown.slots.toList :=
  (List.cons_prefix_cons.1 h).2

/-! ## Looking slots up -/

theorem get?_of_isPrefix (h : pool.toList <+: grown.toList) {index : UInt16} {constant : Constant}
    (hget : pool.get? index = some constant) : grown.get? index = some constant := by
  rw [get?_eq_some_iff] at hget ⊢
  obtain ⟨hpos, hslot⟩ := hget
  obtain ⟨hlt, rfl⟩ := List.getElem?_eq_some_iff.1 hslot
  exact ⟨hpos, List.prefix_iff_getElem?.1 h _ hlt⟩

theorem get?_eq_of_lt (h : pool.toList <+: grown.toList) {index : UInt16}
    (hindex : index.toNat < pool.count) : grown.get? index = pool.get? index := by
  have hlt : index.toNat < pool.toList.length := by rwa [length_toList]
  apply Option.ext
  intro constant
  rw [get?_eq_some_iff, get?_eq_some_iff, List.prefix_iff_getElem?.1 h _ hlt,
    List.getElem?_eq_getElem hlt]

theorem text?_of_isPrefix (h : pool.toList <+: grown.toList) {index : UInt16} {text : String}
    (htext : pool.text? index = some text) : grown.text? index = some text :=
  text?_eq_some_iff.2 (get?_of_isPrefix h (text?_eq_some_iff.1 htext))

/-! ## What entries contribute -/

theorem mem_importsOf_of_isPrefix (h : pool.toList <+: grown.toList) {constant : Constant}
    {name : String} (hname : name ∈ pool.importsOf constant) : name ∈ grown.importsOf constant := by
  cases constant with
  | classInfo index =>
    obtain ⟨text, htext, himport⟩ := mem_importsOf_classInfo_iff.1 hname
    exact mem_importsOf_classInfo_iff.2 ⟨text, text?_of_isPrefix h htext, himport⟩
  | _ => exact hname

/-- What a constant contributes does not change if it does not refer past the end. -/
theorem importsOf_eq_of_isPrefix (h : pool.toList <+: grown.toList) {constant : Constant}
    (hwithin : ∀ index, constant = .classInfo index → index.toNat < pool.count) :
    grown.importsOf constant = pool.importsOf constant := by
  cases constant with
  | classInfo index =>
    rw [importsOf, importsOf, classImport?, classImport?, text?, text?,
      get?_eq_of_lt h (hwithin index rfl)]
  | _ => rfl

theorem isPrefix_entries (h : pool.toList <+: grown.toList) : pool.entries <+: grown.entries := by
  obtain ⟨added, hadded⟩ := (isPrefix_slots h).take lastIndex
  rw [entries_eq_numbered, entries_eq_numbered, ← hadded, numbered, numbered, List.zipIdx_append,
    List.map_append]
  exact List.prefix_append _ _

theorem isPrefix_eraseDups {names more : List String} (h : names <+: more) :
    names.eraseDups <+: more.eraseDups := by
  obtain ⟨added, rfl⟩ := h
  rw [List.eraseDups_append]
  exact List.prefix_append _ _

/-- **A pool that grows keeps its imports**: if the slots of a pool are the first slots of another
one, all its imports are imports of that one; and if besides all its class constants refer to slots
before its end, they come first there and in the same order. -/
theorem imports_of_isPrefix (h : pool.toList <+: grown.toList) :
    (∀ name ∈ pool.imports.toList, name ∈ grown.imports.toList) ∧
    ((∀ index, .classInfo index ∈ pool.toList → index.toNat < pool.count) →
      pool.imports.toList <+: grown.imports.toList) := by
  constructor
  · intro name hname
    obtain ⟨index, constant, hentry, hname⟩ := mem_imports_iff.1 hname
    exact mem_imports_iff.2
      ⟨index, constant, (isPrefix_entries h).subset hentry, mem_importsOf_of_isPrefix h hname⟩
  · intro hwithin
    have hsame : ∀ entry ∈ pool.entries, grown.importsOf entry.2 = pool.importsOf entry.2 := by
      rintro ⟨index, constant⟩ hentry
      apply importsOf_eq_of_isPrefix h
      rintro name rfl
      exact hwithin name (List.mem_of_getElem? (mem_entries_iff.1 hentry).2.2)
    rw [toList_imports_eq, toList_imports_eq, ← List.flatMap_congr hsame]
    exact isPrefix_eraseDups ((isPrefix_entries h).flatMap _)

/-! ## References past the end -/

/-- A class constant whose name is not there yet, and a text. -/
def dangling : Pool := ⟨#[.classInfo 3, .utf8 "a/B"]⟩

/-- The pool `dangling` with the name that its class constant refers to, and one class constant
more. -/
def resolved : Pool := ⟨#[.classInfo 3, .utf8 "a/B", .utf8 "c/D$E", .classInfo 2]⟩

/-- `dangling` keeps its import, but no longer as the first one; `resolved` may grow by whatever
there is and its imports stay where they are. -/
theorem imports_of_isPrefix_dangling :
    dangling.toList <+: resolved.toList ∧
    (∀ name ∈ dangling.imports.toList, name ∈ resolved.imports.toList) ∧
    dangling.imports.toList = ["a.B"] ∧ resolved.imports.toList = ["c.D$E", "a.B"] ∧
    ∀ added : List Constant,
      resolved.imports.toList <+: (⟨resolved.slots ++ added.toArray⟩ : Pool).imports.toList := by
  have hgrows : dangling.toList <+: resolved.toList := by decide +kernel
  have hbefore : dangling.imports.toList = ["a.B"] := by
    rw [toList_imports_eq]
    decide +kernel
  have hafter : resolved.imports.toList = ["c.D$E", "a.B"] := by
    rw [toList_imports_eq]
    decide +kernel
  refine ⟨hgrows, (imports_of_isPrefix hgrows).1, hbefore, hafter, ?_⟩
  intro added
  have hadded : resolved.toList <+: (⟨resolved.slots ++ added.toArray⟩ : Pool).toList :=
    ⟨added, by simp [toList]⟩
  refine (imports_of_isPrefix hadded).2 fun index hindex => ?_
  have hslots : index = 3 ∨ index = 2 := by simpa [toList, resolved] using hindex
  rcases hslots with rfl | rfl
  · decide
  · decide

end ClassImports.Pool
