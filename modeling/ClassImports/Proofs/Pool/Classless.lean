import Mathlib
import ClassImports.Proofs.Import.QualifiedName
import ClassImports.Proofs.Import.Scan
import ClassImports.Proofs.Pool.Entries

/-!
# What class constants add to the imports

The name of a class constant is a text constant of the pool, and the walk reads that one too. Where
both readings of the name give the same import, the class constant adds nothing: with integers in
the place of all class constants, the pool has the same imports (`mem_imports_classless_iff`).
`ReadAlike` are the spellings for which this is so: names without a slash, qualified names, and
arrays of types with such names.
-/

namespace ClassImports

/-- The spellings of a type that stand for the same import, if for any, as the name of a class
constant and as a text constant. -/
inductive ReadAlike (text : String) : Prop where
  | unqualified (h : '/' ∉ text.toList)
  | qualified (name : QualifiedName) (h : text.toList = name.slashed)
  | inArray (dimensions : Nat) (name : QualifiedName) (h : text.toList = name.inArray dimensions)

theorem ReadAlike.imports_eq {text name : String} (h : ReadAlike text)
    (himport : ClassName.import? text = some name) : RawText.imports text = [name] := by
  cases h with
  | unqualified hslash =>
    unfold ClassName.import? at himport
    rw [if_neg hslash] at himport
    cases himport
  | qualified qualified htext =>
    rw [qualified.import?_slashed htext, Option.some_inj] at himport
    rw [qualified.imports_slashed htext, himport]
  | inArray dimensions qualified htext =>
    rw [qualified.import?_inArray htext, Option.some_inj] at himport
    rw [qualified.imports_inArray htext, himport]

/-- Whether a constant may stand in the place of another one when integers replace the classes. -/
def Constant.Classless : Constant → Constant → Prop
  | .classInfo _, other => ∃ value, other = .integer value
  | constant, other => other = constant

namespace Pool

variable {pool other : Pool}

theorem mem_entries_of_text? {index : UInt16} {text : String}
    (h : pool.text? index = some text) : (index.toNat, .utf8 text) ∈ pool.entries :=
  get?_eq_some_iff_mem_entries.1 (text?_eq_some_iff.1 h)

/-- Where a slot holds a constant, the same slot of a pool that is related to it slot by slot holds
a related one. -/
theorem exists_getElem?_of_forall₂ {R : Constant → Constant → Prop} {slots others : List Constant}
    (h : List.Forall₂ R slots others) {index : Nat} {constant : Constant}
    (hslot : slots[index]? = some constant) : ∃ found, others[index]? = some found ∧
      R constant found := by
  induction h generalizing index with
  | nil => cases hslot
  | cons hfirst _ ih =>
    cases index with
    | zero =>
      rw [List.getElem?_cons_zero, Option.some_inj] at hslot
      exact ⟨_, List.getElem?_cons_zero, hslot ▸ hfirst⟩
    | succ index =>
      rw [List.getElem?_cons_succ] at hslot ⊢
      exact ih hslot

/-- Text constants stay when integers replace the classes, and no others come. -/
theorem utf8_mem_entries_iff (h : List.Forall₂ Constant.Classless pool.toList other.toList)
    {index : Nat} {text : String} :
    (index, .utf8 text) ∈ other.entries ↔ (index, .utf8 text) ∈ pool.entries := by
  rw [mem_entries_iff, mem_entries_iff]
  constructor
  · rintro ⟨hpos, hlast, hslot⟩
    obtain ⟨constant, hconstant, hclassless⟩ := exists_getElem?_of_forall₂ h.flip hslot
    refine ⟨hpos, hlast, hconstant.trans ?_⟩
    cases constant with
    | classInfo name =>
      obtain ⟨value, hvalue⟩ := hclassless
      cases hvalue
    | _ => exact congrArg some hclassless.symm
  · rintro ⟨hpos, hlast, hslot⟩
    obtain ⟨found, hfound, hclassless⟩ := exists_getElem?_of_forall₂ h hslot
    exact ⟨hpos, hlast, hfound.trans (congrArg some hclassless)⟩

theorem classInfo_notMem_entries (h : List.Forall₂ Constant.Classless pool.toList other.toList)
    {index : Nat} {name : UInt16} : (index, .classInfo name) ∉ other.entries := by
  intro hentry
  obtain ⟨constant, -, hclassless⟩ :=
    exists_getElem?_of_forall₂ h.flip (mem_entries_iff.1 hentry).2.2
  cases constant with
  | classInfo name =>
    obtain ⟨value, hvalue⟩ := hclassless
    cases hvalue
  | _ => cases hclassless

/-- **Class constants add no spelling of their own**: if all class constants whose names are texts
name types without a package, types by a qualified name, or arrays of such types, then each of
these names stands for the import as a class constant that it stands for as a text, and the pool
has the same imports as with integers in the place of its class constants. -/
theorem mem_imports_classless_iff
    (hother : List.Forall₂ Constant.Classless pool.toList other.toList)
    (hspelled : ∀ index, .classInfo index ∈ pool.toList →
      ∀ text, pool.text? index = some text → ReadAlike text) :
    (∀ index, .classInfo index ∈ pool.toList → ∀ text, pool.text? index = some text →
      ∀ name, ClassName.import? text = some name → RawText.imports text = [name]) ∧
    ∀ name, name ∈ pool.imports.toList ↔ name ∈ other.imports.toList := by
  have halike : ∀ index, .classInfo index ∈ pool.toList → ∀ text, pool.text? index = some text →
      ∀ name, ClassName.import? text = some name → RawText.imports text = [name] :=
    fun index hclass text htext _ => (hspelled index hclass text htext).imports_eq
  refine ⟨halike, fun name => ?_⟩
  rw [mem_imports_iff, mem_imports_iff]
  constructor
  · rintro ⟨index, constant, hentry, hname⟩
    cases constant with
    | classInfo reference =>
      -- the text that the class constant refers to contributes the same name by itself
      obtain ⟨text, htext, himport⟩ := mem_importsOf_classInfo_iff.1 hname
      have hclass : .classInfo reference ∈ pool.toList :=
        List.mem_of_getElem? (mem_entries_iff.1 hentry).2.2
      refine ⟨_, _, (utf8_mem_entries_iff hother).2 (mem_entries_of_text? htext), ?_⟩
      show name ∈ RawText.imports text
      rw [halike reference hclass text htext name himport]
      exact List.mem_singleton_self name
    | utf8 text => exact ⟨index, .utf8 text, (utf8_mem_entries_iff hother).2 hentry, hname⟩
    | _ => cases hname
  · rintro ⟨index, constant, hentry, hname⟩
    cases constant with
    | classInfo reference => exact absurd hentry (classInfo_notMem_entries hother)
    | utf8 text => exact ⟨index, .utf8 text, (utf8_mem_entries_iff hother).1 hentry, hname⟩
    | _ => cases hname

/-! ## Some spellings together -/

/-- Class constants in front of their names and behind them, for a type, an array of it, an array of
numbers, and a name that is missing. -/
def mixed : Pool :=
  ⟨#[.classInfo 2, .utf8 "a/B", .utf8 "[[La/B;", .classInfo 3, .classInfo 6, .utf8 "[I",
    .classInfo 40]⟩

/-- The pool `mixed` with integers in the place of its class constants. -/
def mixedClassless : Pool :=
  ⟨#[.integer 0, .utf8 "a/B", .utf8 "[[La/B;", .integer 1, .integer 2, .utf8 "[I", .integer 3]⟩

/-- The name of a type in a package. -/
def typeName : QualifiedName where
  segments := [['a'], ['B']]
  two_le_length := by decide
  ne_nil := by decide
  isAlphanum := by
    have ha : 'a'.isAlphanum = true := by decide
    have hb : 'B'.isAlphanum = true := by decide
    simp [ha, hb]
  isAlpha_head := by
    intro c hc
    cases hc
    rfl
  getLast?_ne := by decide

theorem readAlike_mixed {index : UInt16} (hclass : .classInfo index ∈ mixed.toList) {text : String}
    (htext : mixed.text? index = some text) : ReadAlike text := by
  have hindex : index = 2 ∨ index = 3 ∨ index = 6 ∨ index = 40 := by
    simpa [toList, mixed] using hclass
  rcases hindex with rfl | rfl | rfl | rfl
  · cases (show mixed.text? 2 = some "a/B" from rfl).symm.trans htext
    exact .qualified typeName (by decide)
  · cases (show mixed.text? 3 = some "[[La/B;" from rfl).symm.trans htext
    exact .inArray 2 typeName (by decide)
  · cases (show mixed.text? 6 = some "[I" from rfl).symm.trans htext
    exact .unqualified (by decide)
  · cases (show mixed.text? 40 = none from rfl).symm.trans htext

/-- All spellings of `a/B` come to one import, whichever constants are left. -/
theorem mem_imports_classless_iff_mixed :
    List.Forall₂ Constant.Classless mixed.toList mixedClassless.toList ∧
    (∀ index, .classInfo index ∈ mixed.toList →
      ∀ text, mixed.text? index = some text → ReadAlike text) ∧
    mixed.imports.toList = ["a.B"] ∧
    ∀ name, name ∈ mixedClassless.imports.toList ↔ name = "a.B" := by
  have hother : List.Forall₂ Constant.Classless mixed.toList mixedClassless.toList := by
    repeat' constructor
  have hspelled : ∀ index, .classInfo index ∈ mixed.toList →
      ∀ text, mixed.text? index = some text → ReadAlike text :=
    fun _ hclass _ htext => readAlike_mixed hclass htext
  have himports : mixed.imports.toList = ["a.B"] := by
    rw [toList_imports_eq]
    decide +kernel
  refine ⟨hother, hspelled, himports, fun name => ?_⟩
  rw [← (mem_imports_classless_iff hother hspelled).2, himports, List.mem_singleton]

end Pool

end ClassImports
