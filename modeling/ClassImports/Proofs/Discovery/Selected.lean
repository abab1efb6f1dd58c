import Mathlib
import ClassImports.Proofs.Discovery.Exclusion
import ClassImports.Proofs.Discovery.Far
import ClassImports.Proofs.FileSystem.Sorting
import ClassImports.Proofs.Selection.Decision

/-!
# Which class files a run selects

A run on a directory gives the class files below it that the lines of its patterns keep, in strictly
ascending order: neither the file nor any directory on the way to it is excluded by the last line
about it (`run_finds_kept`). What the lines see of a place are the names that lead there from the
target.

* `DiscoveryOptions.Lines`: the lines that patterns stand for.
* `Selection.KeepsFile`: what the lines keep, said of the names that lead to a file.
* `passes_iff`, `enters_iff`: the walk of a run enters what the lines keep.

There are three exceptions (`run_finds_kept_beside`): below the standard input nothing is found, of
targets that start with `././` the lines see more than the names, and a run fails where a directory
is kept whose path is too long to be followed.
-/

namespace ClassImports

/-! ## The lines of patterns -/

/-- Whether all patterns can be used. -/
structure DiscoveryOptions.Valid (options : DiscoveryOptions) : Prop where
  excludes : ∀ pattern ∈ options.excludes, SelectionLine.Valid ("!" ++ pattern)
  includes : ∀ pattern ∈ options.includes, SelectionLine.Valid pattern

instance (options : DiscoveryOptions) : Decidable options.Valid :=
  decidable_of_iff
    ((∀ pattern ∈ options.excludes, SelectionLine.Valid ("!" ++ pattern)) ∧
      ∀ pattern ∈ options.includes, SelectionLine.Valid pattern)
    ⟨fun ⟨hexcludes, hincludes⟩ => ⟨hexcludes, hincludes⟩, fun h => ⟨h.excludes, h.includes⟩⟩

/-- Whether lines are those of some patterns: each exclude pattern is an excluding line, and each
include pattern that says anything is a line, which excludes exactly if the pattern starts with
`!`. -/
structure DiscoveryOptions.Lines (options : DiscoveryOptions) (excluding including : Selection) :
    Prop where
  excluding : List.Forall₂
    (fun pattern line => SelectionLine.ofText ("!" ++ pattern) = .ok (some line) ∧
      line.excludes = true)
    options.excludes excluding
  including : List.Forall₂
    (fun pattern line => SelectionLine.ofText pattern = .ok (some line) ∧
      (line.excludes = true ↔ pattern.toList.head? = some '!'))
    (options.includes.filter fun pattern => !SelectionLine.saysNothing pattern) including

/-- A run goes by the lines of its patterns if each of them can be used. -/
theorem Discovery.selection_eq_ok_of_usable {options : DiscoveryOptions}
    {excluding including : Selection}
    (hexcluding : Selection.ofTexts (options.excludes.map ("!" ++ ·)) = .ok excluding)
    (hincluding : Selection.ofTexts options.includes = .ok including)
    (husable : ∀ line ∈ excluding ++ including, line.glob.Usable) :
    Discovery.selection options = .ok (excluding ++ including) := by
  refine Discovery.selection_eq_ok_iff.2 ⟨excluding, including, hexcluding, hincluding, ?_, rfl⟩
  rw [Glob.checkDepth_eq_ok_iff, List.forall_mem_map]
  exact husable

/-- Patterns that can be used have lines, and those are what a run goes by. -/
theorem DiscoveryOptions.Valid.exists_lines {options : DiscoveryOptions} (h : options.Valid) :
    ∃ excluding including, options.Lines excluding including ∧
      Discovery.selection options = .ok (excluding ++ including) := by
  obtain ⟨excluding, hexcluding, husable, hexcludes⟩ :=
    Selection.exists_ofTexts (List.forall_mem_map.2 h.excludes)
  obtain ⟨including, hincluding, husable', hincludes⟩ := Selection.exists_ofTexts h.includes
  have hall : (options.excludes.map ("!" ++ ·)).filter
      (fun text => !SelectionLine.saysNothing text) = options.excludes.map ("!" ++ ·) := by
    rw [List.filter_eq_self, List.forall_mem_map]
    intro pattern _
    rw [SelectionLine.saysNothing_bang]
    rfl
  rw [hall, List.forall₂_map_left_iff] at hexcludes
  refine ⟨excluding, including, ⟨?_, ?_⟩, ?_⟩
  · exact hexcludes.imp fun _ _ hread => ⟨hread, SelectionLine.excludes_of_ofText_bang hread⟩
  · exact hincludes.imp fun _ _ hread => ⟨hread, SelectionLine.excludes_iff_of_ofText hread⟩
  · apply Discovery.selection_eq_ok_of_usable hexcluding hincluding
    rw [List.forall_mem_append]
    exact ⟨husable, husable'⟩

theorem DiscoveryOptions.Lines.eq_nil {options : DiscoveryOptions} {excluding including : Selection}
    (h : options.Lines excluding including) (hexcludes : options.excludes = [])
    (hincludes : options.includes = []) : excluding ++ including = [] := by
  obtain ⟨hexcluding, hincluding⟩ := h
  rw [hexcludes, List.forall₂_nil_left_iff] at hexcluding
  rw [hincludes, List.filter_nil, List.forall₂_nil_left_iff] at hincluding
  rw [hexcluding, hincluding]
  rfl

/-! ## What lines keep -/

namespace Selection

/-- Whether no directory that names lead through or to is excluded; `view` is the path of a place as
the lines see it. -/
def KeepsDirs (lines : Selection) (view : List String → String) (names : List String) : Prop :=
  ∀ above, above <+: names → above ≠ [] → ¬lines.Excluded (view above) true

/-- Whether neither the file that names lead to is excluded nor a directory on the way to it. -/
structure KeepsFile (lines : Selection) (view : List String → String) (names : List String) :
    Prop where
  dirs : lines.KeepsDirs view names.dropLast
  file : ¬lines.Excluded (view names) false

end Selection

namespace Discovery

/-- The path of a place below a target, to which names lead, as the lines of a selection see it. -/
def seen (target : String) (names : List String) : String :=
  Selection.pathBelow target (pathTo target names)

/-! ## What the walk enters -/

section walk

variable {leavesOut : String → Bool → Bool} {dir : String} {names : List String}

theorem enters_iff :
    Enters leavesOut dir names ↔
      ∀ above, above <+: names → above ≠ [] → leavesOut (pathTo dir above) true = false := by
  induction names generalizing dir with
  | nil =>
    refine iff_of_true trivial fun above habove hne => ?_
    exact absurd (List.prefix_nil.1 habove) hne
  | cons name names ih =>
    show leavesOut (Path.join dir name) true = false ∧
      Enters leavesOut (Path.join dir name) names ↔ _
    rw [ih]
    constructor
    · rintro ⟨hname, hnames⟩ above habove hne
      rcases List.prefix_cons_iff.1 habove with rfl | ⟨inner, rfl, hinner⟩
      · exact absurd rfl hne
      · cases inner with
        | nil => exact hname
        | cons next inner => exact hnames _ hinner (List.cons_ne_nil _ _)
    · intro h
      refine ⟨h [name] (List.prefix_cons_iff.2 (.inr ⟨[], rfl, List.nil_prefix⟩))
        (List.cons_ne_nil _ _), fun inner hinner _ => ?_⟩
      exact h (name :: inner) (List.prefix_cons_iff.2 (.inr ⟨inner, rfl, hinner⟩))
        (List.cons_ne_nil _ _)

/-- A class file passes if its directory is entered and the file itself is not left out. -/
theorem passes_iff (hne : names ≠ []) :
    Passes leavesOut dir names ↔
      isClassFile (pathTo dir names) = true ∧ Enters leavesOut dir names.dropLast ∧
        leavesOut (pathTo dir names) false = false := by
  induction names generalizing dir with
  | nil => exact absurd rfl hne
  | cons name names ih =>
    cases names with
    | nil =>
      rw [passes_singleton, Bool.and_eq_true, Bool.not_eq_true', and_comm]
      exact and_congr_right fun _ => (and_iff_right trivial).symm
    | cons next names =>
      rw [passes_cons (List.cons_ne_nil _ _), ih (List.cons_ne_nil _ _), List.dropLast_cons_cons,
        pathTo_cons]
      show _ ↔ _ ∧ (_ ∧ _) ∧ _
      tauto

end walk

variable {lines : Selection} {target : String} {entries : Listing} {names : List String}

theorem enters_iff_keepsDirs :
    Enters (fun path => lines.leavesOut (Selection.pathBelow target path)) target names ↔
      lines.KeepsDirs (seen target) names := by
  rw [enters_iff]
  exact forall₃_congr fun _ _ _ => Selection.leavesOut_eq_false_iff

theorem passes_iff_keepsFile (hne : names ≠ []) :
    Passes (fun path => lines.leavesOut (Selection.pathBelow target path)) target names ↔
      isClassFile (pathTo target names) = true ∧ lines.KeepsFile (seen target) names := by
  rw [passes_iff hne, enters_iff_keepsDirs, Selection.leavesOut_eq_false_iff]
  exact and_congr_right fun _ => ⟨fun ⟨hdirs, hfile⟩ => ⟨hdirs, hfile⟩, fun h => ⟨h.dirs, h.file⟩⟩

/-- Whether a path is that of a directory below a target that the lines keep, and too long to be
followed. -/
def KeptTooFar (lines : Selection) (target : String) (entries : Listing) (path : String) : Prop :=
  ∃ names, names ≠ [] ∧ entries.HasDir names ∧ lines.KeepsDirs (seen target) names ∧
    path = pathTo target names ∧ FileSystem.pathLimit < path.utf8ByteSize

theorem outOfReach_iff_keptTooFar {path : String} :
    OutOfReach (fun path => lines.leavesOut (Selection.pathBelow target path)) target entries path ↔
      KeptTooFar lines target entries path := by
  unfold OutOfReach KeptTooFar
  simp only [enters_iff_keepsDirs]

/-! ## Runs -/

/-- Whether a run gives, in strictly ascending order, the class files below its target that the
lines keep; `view` is the path of a place as they see it. -/
def FindsKept (fs : FileSystem) (target : String) (entries : Listing) (options : DiscoveryOptions)
    (lines : Selection) (view : List String → String) : Prop :=
  ∃ files, run fs target options = .ok files ∧ files.Pairwise Before ∧
    ∀ path, path ∈ files ↔ ∃ names, path = pathTo target names ∧ entries.File names ∧
      names.getLast?.bind Path.extensionOf? = some "class" ∧ lines.KeepsFile view names

variable {fs : FileSystem} {options : DiscoveryOptions}

theorem findsKept_of_run {files : List String} (hwell : entries.WellFormed)
    (htarget : fs.locate target = .ok (.dir entries)) (hlines : selection options = .ok lines)
    (hinput : isStandardInput target = false) (hrun : run fs target options = .ok files) :
    FindsKept fs target entries options lines (seen target) := by
  refine ⟨files, hrun, pairwise_run hwell htarget hrun, fun path => ?_⟩
  rw [mem_run_iff htarget hrun hlines, and_iff_right hinput]
  refine exists_congr fun names => and_congr_right fun _ => and_congr_right fun hfile => ?_
  rw [passes_iff_keepsFile hfile.ne_nil,
    isClassFile_pathTo_iff (ne_empty_of_locate htarget) hfile.ne_nil (hfile.isEntryName hwell)]

theorem keepsFile_nil (view : List String → String) (names : List String) :
    Selection.KeepsFile [] view names := by
  have hnone : ∀ path isDir, ¬Selection.Excluded [] path isDir := by
    intro path isDir hexcluded
    rw [← Selection.leavesOut_iff_excluded] at hexcluded
    simp [Selection.leavesOut, Selection.verdict] at hexcluded
  exact ⟨fun above _ _ => hnone _ _, hnone _ _⟩

/-- **What a run finds** below a directory that is not spelled like the standard input: the class
files that the lines of its patterns keep, each of them once and in ascending order. It fails
exactly if there is a directory that the lines keep, but whose path is too long to be followed. The
lines see the names that lead from the target to a place, unless the target starts with `././`.
Without patterns all class files are kept. -/
theorem run_finds_kept (hwell : entries.WellFormed)
    (htarget : fs.locate target = .ok (.dir entries)) (hvalid : options.Valid) :
    ∃ excluding including, options.Lines excluding including ∧
      (isStandardInput target = false →
        FindsKept fs target entries options (excluding ++ including) (seen target) ∧
            (∀ path, ¬KeptTooFar (excluding ++ including) target entries path) ∨
          ∃ path, KeptTooFar (excluding ++ including) target entries path ∧
            run fs target options = .error (.directoryUnreadable path .nameTooLong)) ∧
      (¬ ['.', '/', '.', '/'] <+: target.toList → ∀ names, names ≠ [] →
        (∀ name ∈ names, Path.IsName name) → seen target names = String.intercalate "/" names) ∧
      (options.excludes = [] → options.includes = [] → ∀ names,
        Selection.KeepsFile (excluding ++ including) (seen target) names) := by
  obtain ⟨excluding, including, hlines, hselection⟩ := hvalid.exists_lines
  refine ⟨excluding, including, hlines, fun hinput => ?_, fun hplain names hne hnames => ?_,
    fun hexcludes hincludes names => ?_⟩
  · rcases run_dir_cases hwell htarget options with
      ⟨failure, hfails⟩ | ⟨files, hrun⟩ | ⟨path, hfar, hrun⟩
    · rw [hselection] at hfails
      cases hfails
    · left
      refine ⟨findsKept_of_run hwell htarget hselection hinput hrun, fun path hfar => ?_⟩
      obtain ⟨_, hselection', hwithin⟩ := (exists_run_eq_ok_iff hwell htarget).1 ⟨files, hrun⟩
      cases hselection.symm.trans hselection'
      exact withinReach_iff.1 (hwithin hinput) path (outOfReach_iff_keptTooFar.2 hfar)
    · right
      obtain ⟨_, hselection', hfar⟩ := hfar
      cases hselection.symm.trans hselection'
      exact ⟨path, outOfReach_iff_keptTooFar.1 hfar, hrun⟩
  · exact pathBelow_pathTo hplain hne hnames
  · rw [hlines.eq_nil hexcludes hincludes]
    exact keepsFile_nil _ names

/-! ## A project with tests and generated classes -/

/-- Class files of a project, also in a hidden directory, with tests and generated ones. -/
def classes : Listing :=
  .file "A.class" [] (.file "notes.txt" [] (.dir ".cache" (.file "B.class" [] .nil)
    (.dir "gen" (.file "C.class" [] .nil)
      (.dir "lib" (.file "D.class" [] (.file "DTest.class" [] .nil)) .nil))))

/-- All class files but tests and generated ones. -/
def selective : DiscoveryOptions where
  includes := ["*.class", "", "# no tests", "!*Test.class"]
  excludes := ["gen"]

/-- The line of the exclude pattern. -/
def notGen : SelectionLine where
  glob := ⟨"**/gen", .deepStart :: "gen".toList.map .literal, true⟩
  excludes := true
  dirOnly := false

/-- The line of the include pattern that includes. -/
def allClasses : SelectionLine where
  glob := ⟨"**/*.class", [.deepStart, .star] ++ ".class".toList.map .literal, true⟩
  excludes := false
  dirOnly := false

/-- The lines of the include patterns, of which two say nothing. -/
theorem ofTexts_selective : Selection.ofTexts selective.includes = .ok [allClasses, notTest] := by
  simp only [selective, Selection.ofTexts_cons_eq_ok_iff]
  exact ⟨some allClasses, _, rfl, ⟨none, _, rfl, ⟨none, _, rfl,
    ⟨some notTest, [], rfl, rfl, rfl⟩, rfl⟩, rfl⟩, rfl⟩

theorem selection_selective : selection selective = .ok [notGen, allClasses, notTest] := by
  refine selection_eq_ok_iff.2 ⟨[notGen], _, ?_, ofTexts_selective, by cbv, rfl⟩
  exact Selection.ofTexts_cons_eq_ok_iff.2 ⟨some notGen, [], rfl, rfl, rfl⟩

theorem locate_classes :
    FileSystem.locate ⟨.dir "out" classes .nil, []⟩ "out" = .ok (.dir classes) := by
  rfl

theorem run_selective :
    run ⟨.dir "out" classes .nil, []⟩ "out" selective =
      .ok ["out/.cache/B.class", "out/A.class", "out/lib/D.class"] := by
  have hreach : outOfReach? (fun path => Selection.leavesOut [notGen, allClasses, notTest]
      (Selection.pathBelow "out" path)) "out" classes = none := by decide +kernel
  have hbelow : filesBelow (fun path => Selection.leavesOut [notGen, allClasses, notTest]
      (Selection.pathBelow "out" path)) "out" classes =
        ["out/A.class", "out/.cache/B.class", "out/lib/D.class"] := by decide +kernel
  have hperm : ["out/A.class", "out/.cache/B.class", "out/lib/D.class"].Perm
      ["out/.cache/B.class", "out/A.class", "out/lib/D.class"] := .swap _ _ _
  have hsorted : ["out/.cache/B.class", "out/A.class", "out/lib/D.class"].Pairwise
      fun a b => Path.le a b = true := by decide +kernel
  have hapart : (["out/A.class", "out/.cache/B.class", "out/lib/D.class"].map
      Path.components).Nodup := by decide +kernel
  rw [run_eq_ok_iff locate_classes]
  refine ⟨_, selection_selective, ?_⟩
  rw [if_neg (by decide +kernel), ← filesBelow_eq_map_namesBelow, hbelow]
  exact ⟨hreach, ((Path.mergeSort_eq_of_perm hperm hapart).trans
    (List.mergeSort_of_pairwise hsorted)).symm⟩

theorem wellFormed_classes : classes.WellFormed :=
  .file (by decide) (by decide) (.file (by decide) (by decide) (.dir (by decide) (by decide)
    (.file (by decide) rfl .nil) (.dir (by decide) (by decide) (.file (by decide) rfl .nil)
      (.dir (by decide) rfl (.file (by decide) (by decide) (.file (by decide) rfl .nil)) .nil))))

/-- Of the class files, the lines keep neither the generated one nor the test. -/
theorem run_finds_kept_selective :
    classes.WellFormed ∧
      FileSystem.locate ⟨.dir "out" classes .nil, []⟩ "out" = .ok (.dir classes) ∧
      selective.Valid ∧
      run ⟨.dir "out" classes .nil, []⟩ "out" selective =
        .ok ["out/.cache/B.class", "out/A.class", "out/lib/D.class"] ∧
      ∃ excluding including, selective.Lines excluding including ∧
        FindsKept ⟨.dir "out" classes .nil, []⟩ "out" classes selective (excluding ++ including)
          (seen "out") ∧
        seen "out" ["lib", "DTest.class"] = "lib/DTest.class" ∧
        ¬Selection.KeepsFile (excluding ++ including) (seen "out") ["gen", "C.class"] ∧
        ¬Selection.KeepsFile (excluding ++ including) (seen "out") ["lib", "DTest.class"] := by
  have hvalid : selective.Valid := by decide +kernel
  obtain ⟨excluding, including, hlines, hruns, hseen, -⟩ :=
    run_finds_kept wellFormed_classes locate_classes hvalid
  have hnames : ∀ name ∈ ["lib", "DTest.class"], Path.IsEntryName name := by decide
  have hfinds : FindsKept ⟨.dir "out" classes .nil, []⟩ "out" classes selective
      (excluding ++ including) (seen "out") := by
    rcases hruns (by decide +kernel) with ⟨hfinds, -⟩ | ⟨path, -, hfails⟩
    · exact hfinds
    · rw [run_selective] at hfails
      cases hfails
  obtain ⟨files, hrun, hascending, hmem⟩ := hfinds
  cases run_selective.symm.trans hrun
  refine ⟨wellFormed_classes, locate_classes, hvalid, run_selective, excluding, including, hlines,
    ⟨_, hrun, hascending, hmem⟩, ?_, fun hkept => ?_, fun hkept => ?_⟩
  · exact hseen (by decide) _ (by decide) fun name hname => (hnames name hname).toIsName
  · have hfound := (hmem "out/gen/C.class").2 ⟨_, by decide +kernel,
      .afterFile (.afterFile (.afterDir (.inside (.here _ _ _)))), by decide +kernel, hkept⟩
    revert hfound
    decide
  · have hfound := (hmem "out/lib/DTest.class").2 ⟨_, by decide +kernel,
      .afterFile (.afterFile (.afterDir (.afterDir (.inside (.afterFile (.here _ _ _)))))),
      by decide +kernel, hkept⟩
    revert hfound
    decide

/-! ## Where a run finds something else -/

/-- Whether a run on a directory does not give the class files below it that the lines of its
patterns keep, of which all can be used, when the lines see the names that lead to a place. -/
structure Misses (fs : FileSystem) (target : String) (entries : Listing)
    (options : DiscoveryOptions) : Prop where
  wellFormed : entries.WellFormed
  located : fs.locate target = .ok (.dir entries)
  valid : options.Valid
  misses : ∀ excluding including, options.Lines excluding including →
    ¬FindsKept fs target entries options (excluding ++ including) (String.intercalate "/")

theorem not_findsKept_of_run_nil {view : List String → String}
    (hrun : run fs target options = .ok []) (hfile : entries.File names)
    (hclass : names.getLast?.bind Path.extensionOf? = some "class")
    (hkept : lines.KeepsFile view names) :
    ¬FindsKept fs target entries options lines view := by
  rintro ⟨files, hfiles, -, hmem⟩
  cases hrun.symm.trans hfiles
  exact List.not_mem_nil ((hmem _).2 ⟨names, rfl, hfile, hclass, hkept⟩)

/-- A directory with one class file. -/
def oneClass : Listing :=
  .file "A.class" [] .nil

theorem wellFormed_oneClass : oneClass.WellFormed :=
  .file (by decide) rfl .nil

/-- The options to look at one file only. -/
def onlyTop : DiscoveryOptions where
  includes := ["/A.class"]

/-- The line of the pattern. -/
def topClass : SelectionLine where
  glob := ⟨"A.class", "A.class".toList.map .literal, true⟩
  excludes := false
  dirOnly := false

theorem lines_onlyTop {excluding including : Selection}
    (h : onlyTop.Lines excluding including) : excluding ++ including = [topClass] := by
  obtain ⟨hexcluding, hincluding⟩ := h
  rw [show onlyTop.excludes = [] from rfl, List.forall₂_nil_left_iff] at hexcluding
  have hword : onlyTop.includes.filter (fun pattern => !SelectionLine.saysNothing pattern) =
      ["/A.class"] := by decide +kernel
  rw [hword, List.forall₂_cons_left_iff] at hincluding
  obtain ⟨line, rest, ⟨hline, -⟩, hrest, rfl⟩ := hincluding
  have htop : SelectionLine.ofText "/A.class" = .ok (some topClass) := rfl
  cases htop.symm.trans hline
  rw [hexcluding, List.forall₂_nil_left_iff.1 hrest]
  rfl

theorem keepsFile_topClass :
    Selection.KeepsFile [topClass] (String.intercalate "/") ["A.class"] := by
  refine ⟨fun above habove hne => absurd (List.prefix_nil.1 habove) hne, ?_⟩
  rw [← Selection.leavesOut_eq_false_iff]
  decide +kernel

theorem run_onlyTop : run ⟨.dir "out" oneClass .nil, []⟩ "././out" onlyTop = .ok [] := by
  have hlocate : FileSystem.locate ⟨.dir "out" oneClass .nil, []⟩ "././out" =
      .ok (.dir oneClass) := by decide +kernel
  have hlines : selection onlyTop = .ok [topClass] := by
    refine selection_eq_ok_iff.2 ⟨[], [topClass], rfl, ?_, by cbv, rfl⟩
    exact Selection.ofTexts_cons_eq_ok_iff.2 ⟨some topClass, [], rfl, rfl, rfl⟩
  exact run_eq_ok_of_sorted hlocate hlines (by decide +kernel) rfl (by decide +kernel) .nil

/-- A run misses what the lines keep in a directory that is called like the standard input, behind
`././`, and beside a directory whose path is too long. -/
theorem run_finds_kept_beside :
    Misses ⟨.dir "-" oneClass .nil, []⟩ "-" oneClass {} ∧
      Misses ⟨.dir "out" oneClass .nil, []⟩ "././out" oneClass onlyTop ∧
      Misses ⟨farTree, []⟩ (Path.slashed 4080) farTree {} := by
  refine ⟨⟨wellFormed_oneClass, by decide +kernel, by decide +kernel, ?_⟩,
    ⟨wellFormed_oneClass, by decide +kernel, by decide +kernel, ?_⟩,
    ⟨wellFormed_farTree, locate_far ⟨by decide, by decide⟩, by decide +kernel, ?_⟩⟩
  · intro excluding including hlines
    rw [hlines.eq_nil rfl rfl]
    have hlocate : FileSystem.locate ⟨.dir "-" oneClass .nil, []⟩ "-" = .ok (.dir oneClass) := by
      decide +kernel
    have hrun := run_of_isStandardInput hlocate (rfl : selection {} = .ok []) (by decide +kernel)
    exact not_findsKept_of_run_nil hrun (.here _ _ _) (by decide +kernel) (keepsFile_nil _ _)
  · intro excluding including hlines
    rw [lines_onlyTop hlines]
    exact not_findsKept_of_run_nil run_onlyTop (.here _ _ _) (by decide +kernel) keepsFile_topClass
  · intro excluding including hlines
    rw [hlines.eq_nil rfl rfl]
    rintro ⟨files, hfiles, -⟩
    have hfar : IsNearlyTooLong 4080 := ⟨by decide, by decide⟩
    have hnone : selection {} = .ok [] := rfl
    have hfails := run_far_of_kept hfar hnone rfl
    rw [hfiles] at hfails
    cases hfails

end Discovery

end ClassImports
