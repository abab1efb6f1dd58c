import Mathlib
import ClassImports.Command
import ClassImports.Proofs.ClassFile.Rewriting
import ClassImports.Proofs.Import.Scan

/-!
# Dumps, walks and reports agree

* `Pool.imports_eq_ofList`: the walk over a pool collects what the rows of its dump name, in the
  order of the rows. Unusable slots, which have no rows, contribute nothing.
* `ClassFile.dump_agrees`: the rows of a class file that was read are its usable slots, each as far
  behind the one before it as that one is wide; without repetitions they name the imports of its
  pool, and those of a report are these without the names that the options leave out.
-/

namespace ClassImports

namespace Pool

/-! ## The rows -/

/-- The row for an entry. -/
def row (pool : Pool) (entry : Nat × Constant) : PoolRow :=
  { index := entry.1, tag := entry.2.tag, value := entry.2.describe,
    imports := pool.importsOf entry.2 }

theorem rows_eq_map (pool : Pool) : pool.rows = (usableEntries pool.entries).map pool.row :=
  rfl

theorem flatMap_usableEntries (pool : Pool) (entries : List (Nat × Constant)) :
    (usableEntries entries).flatMap (fun entry => pool.importsOf entry.2) =
      entries.flatMap fun entry => pool.importsOf entry.2 := by
  induction entries with
  | nil => rfl
  | cons entry rest ih =>
    obtain ⟨index, constant⟩ := entry
    by_cases h : constant = .unusable
    · subst h
      rw [usableEntries_cons_unusable, ih]
      rfl
    · rw [usableEntries_cons h, List.flatMap_cons, List.flatMap_cons, ih]

/-- **The walk collects what the rows name.** -/
theorem imports_eq_ofList (pool : Pool) :
    pool.imports = .ofList (pool.rows.flatMap (·.imports)) := by
  rw [imports, foldl_insertConstant, rows_eq_map, List.flatMap_map]
  exact congrArg ImportSet.ofList (flatMap_usableEntries pool pool.entries).symm

theorem toList_imports (pool : Pool) :
    pool.imports.toList = (pool.rows.flatMap (·.imports)).eraseDups := by
  rw [imports_eq_ofList, ImportSet.toList_ofList]

end Pool

/-! ## Reports -/

theorem Report.imports_ofClassFile (path : String) (file : ClassFile) (options : ReportOptions) :
    (Report.ofClassFile path file options).imports =
      file.pool.imports.toList.filter fun name =>
        options.filter.retains name ∧ ¬(options.dropSelf ∧ file.className? = some name) := by
  rw [Report.ofClassFile, List.filter_filter]
  refine List.filter_congr fun name _ => ?_
  simp [Bool.beq_eq_decide_eq]

namespace ClassFile

theorem readClass_eq_ok {bytes : Bytes} {file : ClassFile} (h : ofBytes bytes = .ok file)
    {fs : FileSystem} {path : String} (hread : fs.read path = .ok bytes) :
    fs.readClass path = .ok file := by
  rw [FileSystem.readClass, hread]
  show (ofBytes bytes).mapError _ = _
  rw [h]
  rfl

/-- **The dump, the walk and the report agree** on every class file that was read. The rows are the
slots in use, in order and each of them once; the first one is slot 1, and each is as far behind the
one before it as that one is wide. Their imports without repetitions are those of the pool, and a
report has these without the names that the filter does not keep and, if it is asked to, without the
name of the class. -/
theorem dump_agrees {bytes : Bytes} {file : ClassFile} (h : ofBytes bytes = .ok file) :
    (∃ slots : List (Nat × Constant),
      file.pool.rows = slots.map (fun slot =>
        ⟨slot.1, slot.2.tag, slot.2.describe, file.pool.importsOf slot.2⟩) ∧
      slots.Pairwise (fun slot later => slot.1 < later.1) ∧
      (∀ index constant, (index, constant) ∈ slots ↔
        constant ≠ .unusable ∧ file.pool.toList[index]? = some constant) ∧
      (∀ first ∈ slots.head?, first.1 = 1) ∧
      slots.IsChain fun slot next => next.1 = slot.1 + slot.2.width) ∧
    (file.pool.rows.flatMap (·.imports)).eraseDups = file.pool.imports.toList ∧
    (∀ path options, (Report.ofClassFile path file options).imports =
      file.pool.imports.toList.filter fun name =>
        options.filter.retains name ∧ ¬(options.dropSelf ∧ file.className? = some name)) ∧
    ∀ fs path, fs.read path = .ok bytes →
      (∀ format, Command.pool fs path format = .ok (PoolRow.renderAll file.pool.rows format)) ∧
      ∀ options,
        Analysis.reportOn fs options path = .ok (Report.ofClassFile path file options) := by
  have hcount := count_le_of_ofBytes h
  have hchain := Pool.isChain_usableEntries (wellLaidOut_of_ofBytes h) hcount
  rw [List.isChain_cons] at hchain
  obtain ⟨hfirst, hchain⟩ := hchain
  refine ⟨⟨Pool.usableEntries file.pool.entries, file.pool.rows_eq_map,
    file.pool.pairwise_entries.filter _, fun _ _ => Pool.mem_usableEntries_iff hcount, hfirst,
    hchain⟩, file.pool.toList_imports.symm,
    fun path options => Report.imports_ofClassFile path file options,
    fun fs path hread => ⟨fun format => ?_, fun options => ?_⟩⟩
  · rw [Command.pool, readClass_eq_ok h hread]
    rfl
  · rw [Analysis.reportOn, readClass_eq_ok h hread]
    rfl

/-- A class before its name, a wide constant between them, and a class without a name: the rows skip
the shadow, the name comes twice, and the report leaves it out because it is the class's own. -/
theorem dump_agrees_wide :
    ofBytes [0xCA, 0xFE, 0xBA, 0xBE, 0, 0, 0, 52, 0, 6, 7, 0, 4, 5, 0, 0, 0, 0, 0, 0, 0, 7,
        1, 0, 3, 0x61, 0x2F, 0x42, 7, 0, 1, 0, 0x21, 0, 1, 0, 0] =
      .ok ⟨⟨52, 0⟩, ⟨#[.classInfo 4, .long 7, .unusable, .utf8 "a/B", .classInfo 1]⟩, 0x21, 1, 0⟩ ∧
    (⟨#[.classInfo 4, .long 7, .unusable, .utf8 "a/B", .classInfo 1]⟩ : Pool).rows.map
      (fun row => (row.index, row.imports)) = [(1, ["a.B"]), (2, []), (4, ["a.B"]), (5, [])] ∧
    (⟨#[.classInfo 4, .long 7, .unusable, .utf8 "a/B", .classInfo 1]⟩ : Pool).imports.toList =
      ["a.B"] ∧
    ∀ options : ReportOptions, (Report.ofClassFile "A.class"
      ⟨⟨52, 0⟩, ⟨#[.classInfo 4, .long 7, .unusable, .utf8 "a/B", .classInfo 1]⟩, 0x21, 1, 0⟩
      { options with dropSelf := true }).imports = [] := by
  have hread : ofBytes [0xCA, 0xFE, 0xBA, 0xBE, 0, 0, 0, 52, 0, 6, 7, 0, 4,
      5, 0, 0, 0, 0, 0, 0, 0, 7, 1, 0, 3, 0x61, 0x2F, 0x42, 7, 0, 1, 0, 0x21, 0, 1, 0, 0] =
    .ok ⟨⟨52, 0⟩, ⟨#[.classInfo 4, .long 7, .unusable, .utf8 "a/B", .classInfo 1]⟩, 0x21, 1, 0⟩ :=
    by cbv
  have hrows : (⟨#[.classInfo 4, .long 7, .unusable, .utf8 "a/B", .classInfo 1]⟩ : Pool).rows.map
      (fun row => (row.index, row.imports)) =
    [(1, ["a.B"]), (2, []), (4, ["a.B"]), (5, [])] := by decide +kernel
  have hname : className? ⟨⟨52, 0⟩,
      ⟨#[.classInfo 4, .long 7, .unusable, .utf8 "a/B", .classInfo 1]⟩, 0x21, 1, 0⟩ =
    some "a.B" := by cbv
  obtain ⟨-, hnames, hreport, -⟩ := dump_agrees hread
  have himports :
      (⟨#[.classInfo 4, .long 7, .unusable, .utf8 "a/B", .classInfo 1]⟩ : Pool).imports.toList =
    ["a.B"] := hnames.symm.trans (by decide +kernel)
  refine ⟨hread, hrows, himports, fun options => ?_⟩
  rw [hreport, himports, hname]
  simp

end ClassFile

end ClassImports
