import Mathlib
import ClassImports.Proofs.Discovery.Selected

/-!
# Runs with one more pattern

Where lines exclude no more than others, a run by them enters and finds at least as much
(`Passes.mono`, `Enters.mono`), so it finds all that the other one finds, unless it fails because it
comes to a directory whose path is too long (`findsMore_of_excluded`). This holds of the options
without a further exclude pattern and of those with a further include pattern
(`findsMore_insert`). The exception is needed: of two options one may be the first to keep such a
directory (`findsMore_insert_beside`).
-/

namespace ClassImports

/-! ## Reading one more text -/

namespace Selection

/-- One more text that says something is one more line, wherever it is inserted. -/
theorem exists_ofTexts_insert {before after : List String} {text : String}
    (h : ∀ other ∈ before ++ after, SelectionLine.Valid other) (htext : SelectionLine.Valid text)
    (hword : SelectionLine.saysNothing text = false) :
    ∃ first line rest, SelectionLine.ofText text = .ok (some line) ∧
      ofTexts (before ++ after) = .ok (first ++ rest) ∧
      ofTexts (before ++ text :: after) = .ok (first ++ line :: rest) ∧
      (∀ other ∈ first, other.glob.Usable) ∧ line.glob.Usable ∧
      ∀ other ∈ rest, other.glob.Usable := by
  rw [List.forall_mem_append] at h
  obtain ⟨line, hline, hglob⟩ := htext.exists_line hword
  obtain ⟨first, hfirst, hfirstUsable, -⟩ := exists_ofTexts h.1
  obtain ⟨rest, hrest, hrestUsable, -⟩ := exists_ofTexts h.2
  have hafter : ofTexts (text :: after) = .ok (line :: rest) :=
    ofTexts_cons_eq_ok_iff.2 ⟨some line, rest, hline, hrest, rfl⟩
  refine ⟨first, line, rest, hline, ?_, ?_, hfirstUsable, hglob, hrestUsable⟩
  · exact ofTexts_append_eq_ok_iff.2 ⟨first, rest, hfirst, hrest, rfl⟩
  · exact ofTexts_append_eq_ok_iff.2 ⟨first, line :: rest, hfirst, hafter, rfl⟩

end Selection

namespace DiscoveryOptions

/-- The options with one more exclude pattern, which comes after some others and before the rest. -/
def insertExclude (options : DiscoveryOptions) (before : List String) (pattern : String)
    (after : List String) : DiscoveryOptions :=
  { options with excludes := before ++ pattern :: after }

/-- The options with one more include pattern. -/
def insertInclude (options : DiscoveryOptions) (before : List String) (pattern : String)
    (after : List String) : DiscoveryOptions :=
  { options with includes := before ++ pattern :: after }

end DiscoveryOptions

namespace Discovery

variable {options : DiscoveryOptions} {before after : List String} {pattern : String}

/-- One more exclude pattern is one more line, which excludes. -/
theorem exists_selection_insertExclude (hvalid : options.Valid)
    (hexcludes : options.excludes = before ++ after)
    (hpattern : SelectionLine.Valid ("!" ++ pattern)) :
    ∃ first line rest, line.excludes = true ∧ selection options = .ok (first ++ rest) ∧
      selection (options.insertExclude before pattern after) = .ok (first ++ line :: rest) := by
  have hothers : ∀ text ∈ before.map ("!" ++ ·) ++ after.map ("!" ++ ·),
      SelectionLine.Valid text := by
    rw [← List.map_append, ← hexcludes, List.forall_mem_map]
    exact hvalid.excludes
  obtain ⟨first, line, rest, hline, hold, hnew, hfirst, hglob, hrest⟩ :=
    Selection.exists_ofTexts_insert hothers hpattern (SelectionLine.saysNothing_bang pattern)
  obtain ⟨including, hincluding, husable, -⟩ := Selection.exists_ofTexts hvalid.includes
  refine ⟨first, line, rest ++ including, SelectionLine.excludes_of_ofText_bang hline, ?_, ?_⟩
  · rw [← List.append_assoc]
    apply selection_eq_ok_of_usable _ hincluding
    · rw [List.forall_mem_append, List.forall_mem_append]
      exact ⟨⟨hfirst, hrest⟩, husable⟩
    · rw [hexcludes, List.map_append]
      exact hold
  · have hexcluding : Selection.ofTexts
        ((options.insertExclude before pattern after).excludes.map ("!" ++ ·)) =
          .ok (first ++ line :: rest) := by
      simp only [DiscoveryOptions.insertExclude, List.map_append, List.map_cons]
      exact hnew
    have hsame : Selection.ofTexts (options.insertExclude before pattern after).includes =
        .ok including := hincluding
    rw [← List.cons_append, ← List.append_assoc]
    apply selection_eq_ok_of_usable hexcluding hsame
    rw [List.forall_mem_append, List.forall_mem_append, List.forall_mem_cons]
    exact ⟨⟨hfirst, hglob, hrest⟩, husable⟩

/-- One more include pattern is one more line, which includes. -/
theorem exists_selection_insertInclude (hvalid : options.Valid)
    (hincludes : options.includes = before ++ after) (hpattern : SelectionLine.Valid pattern)
    (hincluding : SelectionLine.Includes pattern) :
    ∃ first line rest, line.excludes = false ∧ selection options = .ok (first ++ rest) ∧
      selection (options.insertInclude before pattern after) = .ok (first ++ line :: rest) ∧
      ((∃ other ∈ options.includes, SelectionLine.Includes other) →
        ∃ other ∈ first ++ rest, other.excludes = false) := by
  have hothers : ∀ text ∈ before ++ after, SelectionLine.Valid text := by
    rw [← hincludes]
    exact hvalid.includes
  obtain ⟨first, line, rest, hline, hold, hnew, hfirst, hglob, hrest⟩ :=
    Selection.exists_ofTexts_insert hothers hpattern hincluding.1
  obtain ⟨excluding, hexcluding, husable, -⟩ :=
    Selection.exists_ofTexts (List.forall_mem_map.2 hvalid.excludes)
  refine ⟨excluding ++ first, line, rest, ?_, ?_, ?_, ?_⟩
  · rw [Bool.eq_false_iff, Ne, SelectionLine.excludes_iff_of_ofText hline]
    exact hincluding.2
  · rw [List.append_assoc]
    apply selection_eq_ok_of_usable hexcluding
    · rw [hincludes]
      exact hold
    · rw [List.forall_mem_append, List.forall_mem_append]
      exact ⟨husable, hfirst, hrest⟩
  · have hsame : Selection.ofTexts
        ((options.insertInclude before pattern after).excludes.map ("!" ++ ·)) = .ok excluding :=
      hexcluding
    have hlines : Selection.ofTexts (options.insertInclude before pattern after).includes =
        .ok (first ++ line :: rest) := hnew
    rw [List.append_assoc]
    apply selection_eq_ok_of_usable hsame hlines
    rw [List.forall_mem_append, List.forall_mem_append, List.forall_mem_cons]
    exact ⟨husable, hfirst, hglob, hrest⟩
  · rintro ⟨other, hother, hword, hstart⟩
    obtain ⟨line', hread, -⟩ := (hvalid.includes other hother).exists_line hword
    rw [hincludes] at hother
    have hmem := (Selection.mem_iff_of_ofTexts hold).2 ⟨other, hother, hread⟩
    refine ⟨line', ?_, ?_⟩
    · rw [List.append_assoc]
      exact List.mem_append_right _ hmem
    · rw [Bool.eq_false_iff, Ne, SelectionLine.excludes_iff_of_ofText hread]
      exact hstart

/-! ## Lines that exclude less -/

section walk

variable {leavesOut leavesOut' : String → Bool → Bool} {dir : String} {names : List String}

theorem Passes.mono (h : ∀ path isDir, leavesOut path isDir = false → leavesOut' path isDir = false)
    (hpasses : Passes leavesOut dir names) : Passes leavesOut' dir names :=
  ⟨hpasses.1, fun stop hstop => h _ _ (hpasses.2 stop hstop)⟩

theorem Enters.mono (h : ∀ path isDir, leavesOut path isDir = false → leavesOut' path isDir = false)
    (henters : Enters leavesOut dir names) : Enters leavesOut' dir names := by
  rw [enters_iff] at henters ⊢
  exact fun above habove hne => h _ _ (henters above habove hne)

end walk

/-- Whether of two runs one finds at least what the other one finds, unless it fails because it
comes to a directory whose path is too long. -/
inductive FindsMore (fs : FileSystem) (target : String) (entries : Listing)
    (fewer more : DiscoveryOptions) : Prop where
  | fails {path : String} (hfar : ComesTo more target entries path)
    (hrun : run fs target more = .error (.directoryUnreadable path .nameTooLong))
  | finds {files others : List String} (hrun : run fs target fewer = .ok files)
    (hother : run fs target more = .ok others) (hsubset : files ⊆ others)

variable {fs : FileSystem} {target : String} {entries : Listing}

/-- Options whose lines exclude no more find no less. -/
theorem findsMore_of_excluded {more : DiscoveryOptions} {lines others : Selection}
    (hwell : entries.WellFormed) (htarget : fs.locate target = .ok (.dir entries))
    (hlines : selection options = .ok lines) (hothers : selection more = .ok others)
    (h : ∀ path isDir, others.Excluded path isDir → lines.Excluded path isDir) :
    FindsMore fs target entries options more := by
  have hkept : ∀ path isDir, lines.leavesOut (Selection.pathBelow target path) isDir = false →
      others.leavesOut (Selection.pathBelow target path) isDir = false := by
    intro path isDir
    rw [Selection.leavesOut_eq_false_iff, Selection.leavesOut_eq_false_iff]
    exact fun hnot hexcluded => hnot (h _ _ hexcluded)
  rcases run_dir_cases hwell htarget more with
    ⟨failure, hfails⟩ | ⟨found, hrun⟩ | ⟨path, hfar, hrun⟩
  · rw [hothers] at hfails
    cases hfails
  · obtain ⟨_, hothers', hwithin⟩ := (exists_run_eq_ok_iff hwell htarget).1 ⟨found, hrun⟩
    cases hothers.symm.trans hothers'
    obtain ⟨files, hfiles⟩ := (exists_run_eq_ok_iff hwell htarget).2 ⟨lines, hlines,
      fun hinput names hne hdir henters => hwithin hinput names hne hdir (henters.mono hkept)⟩
    refine .finds hfiles hrun fun path hpath => ?_
    obtain ⟨hinput, names, rfl, hfile, hpasses⟩ := (mem_run_iff htarget hfiles hlines).1 hpath
    exact (mem_run_iff htarget hrun hothers).2 ⟨hinput, names, rfl, hfile, hpasses.mono hkept⟩
  · exact .fails hfar hrun

/-- **One more pattern.** A run finds nothing new by one more exclude pattern, and it misses nothing
by one more include pattern if there is one already, wherever these are inserted. The exception is a
run that fails because it comes to a directory whose path is too long; this is always the one
without the exclude pattern, or with the include pattern. -/
theorem findsMore_insert (hwell : entries.WellFormed)
    (htarget : fs.locate target = .ok (.dir entries)) (hvalid : options.Valid)
    (before after : List String) (pattern : String) :
    (options.excludes = before ++ after → SelectionLine.Valid ("!" ++ pattern) →
      FindsMore fs target entries (options.insertExclude before pattern after) options) ∧
    (options.includes = before ++ after → SelectionLine.Valid pattern →
      SelectionLine.Includes pattern → (∃ other ∈ options.includes, SelectionLine.Includes other) →
      FindsMore fs target entries options (options.insertInclude before pattern after)) := by
  constructor
  · intro hexcludes hpattern
    obtain ⟨first, line, rest, hline, hold, hnew⟩ :=
      exists_selection_insertExclude hvalid hexcludes hpattern
    apply findsMore_of_excluded hwell htarget hnew hold
    exact fun path isDir hexcluded => hexcluded.insert_excluding hline
  · intro hincludes hpattern hincluding hother
    obtain ⟨first, line, rest, hline, hold, hnew, hothers⟩ :=
      exists_selection_insertInclude hvalid hincludes hpattern hincluding
    apply findsMore_of_excluded hwell htarget hold hnew
    exact fun path isDir hexcluded => hexcluded.of_insert_including hline (hothers hother)

theorem not_comesTo_classes (more : DiscoveryOptions) (path : String) :
    ¬ComesTo more "out" classes path := by
  rintro ⟨lines, -, hfar⟩
  have hcache : ¬FileSystem.pathLimit < (Path.join "out" ".cache").utf8ByteSize := by decide +kernel
  have hgen : ¬FileSystem.pathLimit < (Path.join "out" "gen").utf8ByteSize := by decide +kernel
  have hlib : ¬FileSystem.pathLimit < (Path.join "out" "lib").utf8ByteSize := by decide +kernel
  refine withinReach_iff.1 ((outOfReach?_eq_none_iff wellFormed_classes "out").1 ?_) path hfar
  simp [classes, outOfReach?, hcache, hgen, hlib]

/-- Without a directory there are no more files, and with the tests, which the last line about them
now includes, no fewer. -/
theorem findsMore_insert_selective :
    classes.WellFormed ∧
      FileSystem.locate ⟨.dir "out" classes .nil, []⟩ "out" = .ok (.dir classes) ∧
      selective.Valid ∧ SelectionLine.Valid "!lib" ∧
      (∃ files, run ⟨.dir "out" classes .nil, []⟩ "out" (selective.insertExclude [] "lib" ["gen"]) =
          .ok files ∧
        files ⊆ ["out/.cache/B.class", "out/A.class", "out/lib/D.class"]) ∧
      SelectionLine.Valid "*Test.class" ∧ SelectionLine.Includes "*Test.class" ∧
      (∃ other ∈ selective.includes, SelectionLine.Includes other) ∧
      ∃ files, run ⟨.dir "out" classes .nil, []⟩ "out"
          (selective.insertInclude selective.includes "*Test.class" []) = .ok files ∧
        ["out/.cache/B.class", "out/A.class", "out/lib/D.class"] ⊆ files := by
  have hvalid : selective.Valid := by decide +kernel
  have hlib : SelectionLine.Valid "!lib" := by decide +kernel
  have htest : SelectionLine.Valid "*Test.class" := by decide +kernel
  have hincludes : SelectionLine.Includes "*Test.class" := ⟨by decide +kernel, by decide⟩
  have hother : ∃ other ∈ selective.includes, SelectionLine.Includes other :=
    ⟨"*.class", List.mem_cons_self, by decide +kernel, by decide⟩
  refine ⟨wellFormed_classes, locate_classes, hvalid, hlib, ?_, htest, hincludes, hother, ?_⟩
  · have hmore := (findsMore_insert wellFormed_classes locate_classes hvalid [] ["gen"] "lib").1
      rfl hlib
    cases hmore with
    | fails hfar hrun => exact absurd hfar (not_comesTo_classes _ _)
    | finds hrun hall hsubset =>
      cases run_selective.symm.trans hall
      exact ⟨_, hrun, hsubset⟩
  · have hmore := (findsMore_insert wellFormed_classes locate_classes hvalid selective.includes []
      "*Test.class").2 (List.append_nil _).symm htest hincludes hother
    cases hmore with
    | fails hfar hrun => exact absurd hfar (not_comesTo_classes _ _)
    | finds hrun hall hsubset =>
      cases run_selective.symm.trans hrun
      exact ⟨_, hall, hsubset⟩

/-! ## Where one more pattern does more -/

/-- All class files but those in a directory. -/
def sparing : DiscoveryOptions where
  includes := ["*.class"]
  excludes := ["build-intermediates"]

/-- A line about the directory. -/
def aboutDir (excludes : Bool) : SelectionLine where
  glob := ⟨"**/build-intermediates", .deepStart :: "build-intermediates".toList.map .literal, true⟩
  excludes := excludes
  dirOnly := false

theorem ofText_aboutDir :
    SelectionLine.ofText "!build-intermediates" = .ok (some (aboutDir true)) ∧
      SelectionLine.ofText "build-intermediates" = .ok (some (aboutDir false)) :=
  ⟨rfl, rfl⟩

theorem ofTexts_notDir :
    Selection.ofTexts (["build-intermediates"].map ("!" ++ ·)) = .ok [aboutDir true] :=
  Selection.ofTexts_cons_eq_ok_iff.2 ⟨_, [], ofText_aboutDir.1, rfl, rfl⟩

theorem selection_notDir :
    selection (DiscoveryOptions.insertExclude {} [] "build-intermediates" []) =
      .ok [aboutDir true] :=
  selection_eq_ok_iff.2 ⟨[aboutDir true], [], ofTexts_notDir, rfl, by cbv, rfl⟩

theorem selection_sparing : selection sparing = .ok [aboutDir true, allClasses] := by
  refine selection_eq_ok_iff.2 ⟨[aboutDir true], [allClasses], ofTexts_notDir, ?_, by cbv, rfl⟩
  exact Selection.ofTexts_cons_eq_ok_iff.2 ⟨some allClasses, [], rfl, rfl, rfl⟩

theorem selection_sparing_insertInclude :
    selection (sparing.insertInclude ["*.class"] "build-intermediates" []) =
      .ok [aboutDir true, allClasses, aboutDir false] := by
  refine selection_eq_ok_iff.2 ⟨[aboutDir true], [allClasses, aboutDir false], ofTexts_notDir, ?_,
    by cbv, rfl⟩
  refine Selection.ofTexts_cons_eq_ok_iff.2 ⟨some allClasses, _, rfl, ?_, rfl⟩
  exact Selection.ofTexts_cons_eq_ok_iff.2 ⟨_, [], ofText_aboutDir.2, rfl, rfl⟩

/-- A run finds a class file only with an exclude pattern, and another one only without an include
pattern, since they fail if they keep the directory beside the file. -/
theorem findsMore_insert_beside :
    farTree.WellFormed ∧
      FileSystem.locate ⟨farTree, []⟩ (Path.slashed 4080) = .ok (.dir farTree) ∧
      SelectionLine.Valid "!build-intermediates" ∧
      run ⟨farTree, []⟩ (Path.slashed 4080) {} =
        .error (.directoryUnreadable (Path.slashed 4080 ++ "build-intermediates") .nameTooLong) ∧
      run ⟨farTree, []⟩ (Path.slashed 4080)
          (DiscoveryOptions.insertExclude {} [] "build-intermediates" []) =
        .ok [Path.slashed 4080 ++ "A.class"] ∧
      sparing.Valid ∧ SelectionLine.Valid "build-intermediates" ∧
      SelectionLine.Includes "build-intermediates" ∧
      (∃ other ∈ sparing.includes, SelectionLine.Includes other) ∧
      run ⟨farTree, []⟩ (Path.slashed 4080) sparing = .ok [Path.slashed 4080 ++ "A.class"] ∧
      run ⟨farTree, []⟩ (Path.slashed 4080)
          (sparing.insertInclude ["*.class"] "build-intermediates" []) =
        .error (.directoryUnreadable (Path.slashed 4080 ++ "build-intermediates") .nameTooLong) := by
  have hfar : IsNearlyTooLong 4080 := ⟨by decide, by decide⟩
  have hnone : selection {} = .ok [] := rfl
  refine ⟨wellFormed_farTree, locate_far hfar, by decide +kernel, ?_, ?_, by decide +kernel,
    by decide +kernel, ⟨by decide +kernel, by decide⟩,
    ⟨"*.class", List.mem_cons_self, by decide +kernel, by decide⟩, ?_, ?_⟩
  · exact run_far_of_kept hfar hnone rfl
  · exact run_far_of_leavesOut hfar selection_notDir (by decide +kernel) (by decide +kernel)
  · exact run_far_of_leavesOut hfar selection_sparing (by decide +kernel) (by decide +kernel)
  · exact run_far_of_kept hfar selection_sparing_insertInclude (by decide +kernel)

end Discovery

end ClassImports
