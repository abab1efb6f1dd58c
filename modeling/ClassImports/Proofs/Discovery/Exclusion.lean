import Mathlib
import ClassImports.Proofs.Discovery.Below
import ClassImports.Proofs.Selection.Line
import ClassImports.Proofs.Selection.Verdict

/-!
# What exclude patterns exclude

The lines of the include patterns stand after those of the exclude patterns, so they have the last
word wherever both are about the same stop. A class file is found although an exclude pattern is
about a stop on its way exactly if the include patterns spare every stop on that way
(`run_omits_excluded_iff`). Overlapping patterns suffice for that: a file that `**/*Test.class`
should exclude is found if it also matches the include pattern `com/example/**`.
-/

namespace ClassImports.Discovery

/-- The path of a stop as the lines see it: its names, unless the target starts with `././`
(`pathBelow_pathTo`). -/
def Stop.below (target : String) (stop : Stop) : String :=
  Selection.pathBelow target (pathTo target stop.names)

/-- Whether an exclude pattern is about a stop: whether the line that it becomes covers it. -/
def isExcluded (options : DiscoveryOptions) (target : String) (stop : Stop) : Bool :=
  options.excludes.any fun pattern =>
    match SelectionLine.ofText ("!" ++ pattern) with
    | .ok (some line) => line.covers (stop.below target) stop.isDir
    | _ => false

/-- Whether include patterns, by their lines, spare a stop: where an exclude pattern is about it
they include it, and elsewhere they do not leave it out. -/
def Spared (options : DiscoveryOptions) (including : Selection) (target : String) (stop : Stop) :
    Prop :=
  if isExcluded options target stop then
    including.verdict (stop.below target) stop.isDir = .included
  else including.leavesOut (stop.below target) stop.isDir = false

instance (options : DiscoveryOptions) (including : Selection) (target : String) (stop : Stop) :
    Decidable (Spared options including target stop) :=
  inferInstanceAs (Decidable (if isExcluded options target stop then _ else _))

/-- Whether names lead to a class file below a target with the given entries. -/
def IsClassFileBelow (target : String) (entries : Listing) (names : List String) : Prop :=
  isStandardInput target = false ∧ entries.File names ∧ isClassFile (pathTo target names) = true

variable {options : DiscoveryOptions} {excluding including : Selection} {target : String}

/-- The lines of the exclude patterns are about a stop exactly if an exclude pattern is. -/
theorem mentions_eq_isExcluded
    (h : Selection.ofTexts (options.excludes.map ("!" ++ ·)) = .ok excluding) (stop : Stop) :
    excluding.mentions (stop.below target) stop.isDir = isExcluded options target stop := by
  rw [Bool.eq_iff_iff]
  unfold Selection.mentions isExcluded
  rw [List.any_eq_true, List.any_eq_true]
  constructor
  · rintro ⟨line, hline, hcovers⟩
    obtain ⟨text, htext, hread⟩ := (Selection.mem_iff_of_ofTexts h).1 hline
    obtain ⟨pattern, hpattern, rfl⟩ := List.mem_map.1 htext
    exact ⟨pattern, hpattern, by rw [hread]; exact hcovers⟩
  · rintro ⟨pattern, hpattern, hcovers⟩
    split at hcovers
    · next line hread =>
      exact ⟨line, (Selection.mem_iff_of_ofTexts h).2 ⟨_, List.mem_map_of_mem hpattern, hread⟩,
        hcovers⟩
    · cases hcovers

/-- The lines of exclude patterns exclude. -/
theorem excludes_of_mem {line : SelectionLine}
    (h : Selection.ofTexts (options.excludes.map ("!" ++ ·)) = .ok excluding)
    (hline : line ∈ excluding) : line.excludes = true := by
  obtain ⟨text, htext, hread⟩ := (Selection.mem_iff_of_ofTexts h).1 hline
  obtain ⟨pattern, -, rfl⟩ := List.mem_map.1 htext
  exact SelectionLine.excludes_of_ofText_bang hread

/-- Of all lines of the options, a stop is not left out exactly if the include patterns spare it. -/
theorem leavesOut_eq_false_iff_spared
    (h : Selection.ofTexts (options.excludes.map ("!" ++ ·)) = .ok excluding) (stop : Stop) :
    Selection.leavesOut (excluding ++ including) (stop.below target) stop.isDir = false ↔
      Spared options including target stop := by
  rw [Selection.leavesOut_append fun line hline => excludes_of_mem h hline,
    mentions_eq_isExcluded h stop]
  unfold Spared
  split
  · rw [bne_eq_false_iff_eq]
  · rfl

/-- **An exclude pattern excludes exactly where include patterns do not have the last word.** A run
on a directory finds, in the order of their paths, the class files below it whose stops the include
patterns all spare; so it finds none with a stop that an exclude pattern is about exactly if the
include patterns do not spare all stops of any such file. -/
theorem run_omits_excluded_iff {fs : FileSystem} {entries : Listing} {files : List String}
    (htarget : fs.locate target = .ok (.dir entries)) (hrun : run fs target options = .ok files) :
    ∃ (including : Selection) (found : List (List String)),
      Selection.ofTexts options.includes = .ok including ∧
      files = (found.map (pathTo target)).mergeSort Path.le ∧
      (∀ names, names ∈ found ↔ IsClassFileBelow target entries names ∧
        ∀ stop ∈ stops names, Spared options including target stop) ∧
      ((∀ names ∈ found, ∀ stop ∈ stops names, isExcluded options target stop = false) ↔
        ∀ names, IsClassFileBelow target entries names →
          (∃ stop ∈ stops names, isExcluded options target stop = true) →
          ∃ stop ∈ stops names, ¬ Spared options including target stop) := by
  obtain ⟨lines, found, hlines, hfiles, hfound⟩ := run_dir_eq_ok htarget hrun
  obtain ⟨excluding, including, hexcluding, hincluding, -, rfl⟩ := selection_eq_ok_iff.1 hlines
  have hspared : ∀ names, names ∈ found ↔ IsClassFileBelow target entries names ∧
      ∀ stop ∈ stops names, Spared options including target stop := by
    intro names
    rw [hfound names]
    unfold Passes IsClassFileBelow
    simp only [and_assoc, ← leavesOut_eq_false_iff_spared hexcluding, Stop.below]
  refine ⟨including, found, hincluding, hfiles, hspared, ?_⟩
  constructor
  · rintro homits names hbelow ⟨stop, hstop, hexcluded⟩
    have hnotFound : names ∉ found := by
      intro hmem
      have hfalse := homits names hmem stop hstop
      rw [hexcluded] at hfalse
      cases hfalse
    rw [hspared names, not_and] at hnotFound
    simpa only [Classical.not_forall, exists_prop] using hnotFound hbelow
  · intro hleft names hmem stop hstop
    obtain ⟨hbelow, hall⟩ := (hspared names).1 hmem
    cases hexcluded : isExcluded options target stop with
    | false => rfl
    | true =>
      obtain ⟨other, hother, hnot⟩ := hleft names hbelow ⟨stop, hstop, hexcluded⟩
      exact absurd (hall other hother) hnot

/-! ## Overlapping patterns -/

/-- Two class files in a package. -/
def package : Listing :=
  .dir "com" (.dir "example" (.file "App.class" [] (.file "AppTest.class" [] .nil)) .nil) .nil

/-- An include and an exclude pattern that are both about `com/example/AppTest.class`. -/
def overlapping : DiscoveryOptions where
  includes := ["com/example/**"]
  excludes := ["**/*Test.class"]

/-- The line of the include pattern. -/
def inPackage : SelectionLine where
  glob := ⟨"com/example/**/*", "com/example".toList.map .literal ++ [.deepMiddle, .star], true⟩
  excludes := false
  dirOnly := false

/-- The line of the exclude pattern. -/
def notTest : SelectionLine where
  glob := ⟨"**/*Test.class", [.deepStart, .star] ++ "Test.class".toList.map .literal, true⟩
  excludes := true
  dirOnly := false

theorem ofTexts_inPackage : Selection.ofTexts overlapping.includes = .ok [inPackage] :=
  Selection.ofTexts_cons_eq_ok_iff.2 ⟨some inPackage, [], rfl, rfl, rfl⟩

/-- The excluding line stands first, although the options name it last. -/
theorem selection_overlapping : selection overlapping = .ok [notTest, inPackage] := by
  refine selection_eq_ok_iff.2 ⟨[notTest], [inPackage], ?_, ofTexts_inPackage, by cbv, rfl⟩
  exact Selection.ofTexts_cons_eq_ok_iff.2 ⟨some notTest, [], rfl, rfl, rfl⟩

theorem run_overlapping :
    run ⟨package, []⟩ "." overlapping =
      .ok ["./com/example/App.class", "./com/example/AppTest.class"] := by
  have hlocate : FileSystem.locate ⟨package, []⟩ "." = .ok (.dir package) := rfl
  have hinput : isStandardInput "." = false := by decide +kernel
  have hreach : outOfReach? (fun path => Selection.leavesOut [notTest, inPackage]
      (Selection.pathBelow "." path)) "." package = none := by decide +kernel
  have hbelow : filesBelow (fun path => Selection.leavesOut [notTest, inPackage]
      (Selection.pathBelow "." path)) "." package =
        ["./com/example/App.class", "./com/example/AppTest.class"] := by decide +kernel
  have hsorted : ["./com/example/App.class", "./com/example/AppTest.class"].Pairwise
      (fun a b => Path.le a b = true) := by decide +kernel
  simp only [run, hlocate, selection_overlapping, hinput, Except.bind_eq_ok_iff]
  refine ⟨_, rfl, ?_⟩
  simp only [hreach, hbelow, List.mergeSort_of_pairwise hsorted]
  rfl

/-- The include pattern is about the file of the exclude pattern and so has the last word. -/
theorem run_omits_excluded_iff_overlapping :
    FileSystem.locate ⟨package, []⟩ "." = .ok (.dir package) ∧
      run ⟨package, []⟩ "." overlapping =
        .ok ["./com/example/App.class", "./com/example/AppTest.class"] ∧
      ∃ found : List (List String),
        ["./com/example/App.class", "./com/example/AppTest.class"] =
            (found.map (pathTo ".")).mergeSort Path.le ∧
          ["com", "example", "AppTest.class"] ∈ found ∧
          ¬ ∀ names ∈ found, ∀ stop ∈ stops names, isExcluded overlapping "." stop = false := by
  have hlocate : FileSystem.locate ⟨package, []⟩ "." = .ok (.dir package) := rfl
  refine ⟨hlocate, run_overlapping, ?_⟩
  obtain ⟨including, found, hincluding, hfiles, hfound, -⟩ :=
    run_omits_excluded_iff hlocate run_overlapping
  cases ofTexts_inPackage.symm.trans hincluding
  have hmem : ["com", "example", "AppTest.class"] ∈ found := by
    refine (hfound _).2 ⟨⟨by decide +kernel, ?_, by decide +kernel⟩, by decide +kernel⟩
    exact .inside (.inside (.afterFile (.here _ _ _)))
  refine ⟨found, hfiles, hmem, fun homits => ?_⟩
  have hfalse := homits _ hmem ⟨["com", "example", "AppTest.class"], false⟩ (by decide)
  revert hfalse
  decide +kernel

end ClassImports.Discovery
