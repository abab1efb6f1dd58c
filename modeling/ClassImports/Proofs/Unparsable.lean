import Mathlib
import ClassImports.Proofs.Analysis
import ClassImports.Proofs.Discovery.Run
import ClassImports.Proofs.FileSystem.SameClassFiles

/-!
# Files that do not parse

Files that are no class files do not influence what is told of the others
(`output_of_sameButUnparsable`). In two file systems in which a target is a directory with the same
class files (`FileSystem.AlikeAt`), runs of the discovery find the same class files, at whatever
places among the other files (`AlikeAt.filter_parses_eq`), so the reports are the same and come in
the same order (`AlikeAt.reports_eq`).
-/

namespace ClassImports

/-- Two file systems in which a target is a directory with the same class files. -/
structure FileSystem.AlikeAt (target : String) (fs fs' : FileSystem) (entries entries' : Listing) :
    Prop where
  located : fs.locate target = .ok (.dir entries)
  located' : fs'.locate target = .ok (.dir entries')
  wellFormed : entries.WellFormed
  wellFormed' : entries'.WellFormed
  sameClassFiles : entries.SameClassFiles entries'

namespace FileSystem.AlikeAt

variable {target : String} {fs fs' : FileSystem} {entries entries' : Listing}
  {options : DiscoveryOptions} {paths paths' : List String}

theorem symm (h : AlikeAt target fs fs' entries entries') :
    AlikeAt target fs' fs entries' entries :=
  ⟨h.located', h.located, h.wellFormed', h.wellFormed, h.sameClassFiles.symm⟩

/-- A class file that a run finds in one of the file systems is found by a run in the other one. -/
theorem mem_run (h : AlikeAt target fs fs' entries entries')
    (hrun : Discovery.run fs target options = .ok paths)
    (hrun' : Discovery.run fs' target options = .ok paths') {path : String} (hpath : path ∈ paths)
    {file : ClassFile} (hread : fs.readClass path = .ok file) :
    path ∈ paths' ∧ fs'.readClass path = .ok file := by
  obtain ⟨names, content, -, hat, hcontent, hother⟩ :=
    Discovery.exists_of_mem_run h.wellFormed h.located hrun hpath
  obtain ⟨found, hlocate, hclass⟩ := FileSystem.readClass_eq_ok_iff.1 hread
  cases hcontent _ hlocate
  have hat' := (h.sameClassFiles names content ⟨file, hclass⟩).1 hat
  obtain ⟨hpath', hsame⟩ := hother _ _ _ h.located' hrun' hat'
  exact ⟨hpath', (FileSystem.readClass_eq hsame).symm.trans hread⟩

theorem mem_filter_parses (h : AlikeAt target fs fs' entries entries')
    (hrun : Discovery.run fs target options = .ok paths)
    (hrun' : Discovery.run fs' target options = .ok paths') {path : String}
    (hmem : path ∈ paths.filter fs.parses) : path ∈ paths'.filter fs'.parses := by
  obtain ⟨hpath, hparses⟩ := List.mem_filter.1 hmem
  obtain ⟨file, hread⟩ := FileSystem.parses_iff.1 hparses
  obtain ⟨hpath', hread'⟩ := h.mem_run hrun hrun' hpath hread
  exact List.mem_filter.2 ⟨hpath', FileSystem.parses_iff.2 ⟨file, hread'⟩⟩

/-- **The same class files are found**, in the same order, wherever they stand among the other
files. -/
theorem filter_parses_eq (h : AlikeAt target fs fs' entries entries')
    (hrun : Discovery.run fs target options = .ok paths)
    (hrun' : Discovery.run fs' target options = .ok paths') :
    paths.filter fs.parses = paths'.filter fs'.parses := by
  apply Discovery.eq_of_pairwise_before
  · exact (Discovery.pairwise_run h.wellFormed h.located hrun).filter fs.parses
  · exact (Discovery.pairwise_run h.wellFormed' h.located' hrun').filter fs'.parses
  · exact fun path => ⟨h.mem_filter_parses hrun hrun', h.symm.mem_filter_parses hrun' hrun⟩

theorem reports_eq (h : AlikeAt target fs fs' entries entries')
    (hrun : Discovery.run fs target options = .ok paths)
    (hrun' : Discovery.run fs' target options = .ok paths') (reporting : ReportOptions) :
    (Analysis.run fs' reporting paths').reports = (Analysis.run fs reporting paths).reports := by
  have hsorted := (Discovery.pairwise_run h.wellFormed h.located hrun).imp And.left
  have hsorted' := (Discovery.pairwise_run h.wellFormed' h.located' hrun').imp And.left
  rw [Analysis.reports_run hsorted, Analysis.reports_run hsorted', ← h.filter_parses_eq hrun hrun']
  apply List.filterMap_congr
  intro path hmem
  obtain ⟨hpath, hparses⟩ := List.mem_filter.1 hmem
  obtain ⟨file, hread⟩ := FileSystem.parses_iff.1 hparses
  unfold Analysis.reportOn
  rw [hread, (h.mem_run hrun hrun' hpath hread).2]

end FileSystem.AlikeAt

namespace Discovery

/-- Files do not matter for whether a run on a directory succeeds. -/
theorem exists_run_of_sameDirs {target : String} {fs fs' : FileSystem} {entries entries' : Listing}
    {options : DiscoveryOptions} {paths : List String} (hwell : entries.WellFormed)
    (hwell' : entries'.WellFormed) (htarget : fs.locate target = .ok (.dir entries))
    (htarget' : fs'.locate target = .ok (.dir entries')) (hsame : entries.SameDirs entries')
    (hrun : run fs target options = .ok paths) : ∃ paths', run fs' target options = .ok paths' := by
  obtain ⟨lines, hlines, hreach⟩ := (exists_run_eq_ok_iff hwell htarget).1 ⟨paths, hrun⟩
  apply (exists_run_eq_ok_iff hwell' htarget').2
  refine ⟨lines, hlines, fun hinput names hne hdir => ?_⟩
  exact hreach hinput names hne ((hsame names).2 hdir)

end Discovery

namespace Command

/-- Whether a command gives the same output in two file systems, and in each of them a message for
every file among the given paths that is no class file. -/
def SameOutput (command : FileSystem → Except Failure CommandOutput) (fs fs' : FileSystem)
    (paths paths' : List String) : Prop :=
  ∃ output errors errors',
    command fs = .ok { output, errors } ∧ command fs' = .ok { output, errors := errors' } ∧
      Analysis.TellsOf fs paths errors ∧ Analysis.TellsOf fs' paths' errors'

/-- A command that only looks at the reports of a scan gives the same output for the same
reports. -/
theorem sameOutput_of_reports_eq {fs fs' : FileSystem} {target : String} {settings : Settings}
    {paths paths' : List String} (render : List Report → String)
    (hscan : scan fs target settings = .ok (Analysis.run fs settings.report paths))
    (hscan' : scan fs' target settings = .ok (Analysis.run fs' settings.report paths'))
    (hreports : (Analysis.run fs' settings.report paths').reports =
      (Analysis.run fs settings.report paths).reports) :
    SameOutput (fun fs => (scan fs target settings).map fun analysis =>
      { output := render analysis.reports, errors := analysis.errors }) fs fs' paths paths' := by
  refine ⟨render (Analysis.run fs settings.report paths).reports, _, _, ?_, ?_,
    Analysis.tellsOf_run fs settings.report paths, Analysis.tellsOf_run fs' settings.report paths'⟩
  · simp only [hscan, Except.map]
  · simp only [hscan', Except.map, hreports]

/-- **Files that do not parse only give messages.** A scan that finds some files fails if and only
if none of them is a class file. Otherwise the output depends on the class files alone, whatever
other files there are and wherever they stand among them; each of those that are found gives one
message, in the order of their paths. -/
theorem output_of_sameButUnparsable {fs : FileSystem} {target : String} {entries : Listing}
    (settings : Settings) {paths : List String} (htarget : fs.locate target = .ok (.dir entries))
    (hrun : Discovery.run fs target settings.discovery = .ok paths) :
    ((∃ failure, scan fs target settings = .error failure) ↔
      paths ≠ [] ∧ ∀ path ∈ paths, fs.parses path = false) ∧
    ((∃ path ∈ paths, fs.parses path = true) →
      ∀ fs' : FileSystem, fs'.workDir = fs.workDir → fs.root.SameButUnparsable fs'.root →
        ∃ paths', Discovery.run fs' target settings.discovery = .ok paths' ∧
          paths.Pairwise Discovery.Before ∧ paths'.Pairwise Discovery.Before ∧
          ∀ format,
            SameOutput (imports · target settings format) fs fs' paths paths' ∧
            SameOutput (summary · target settings format) fs fs' paths paths') := by
  refine ⟨exists_scan_eq_error_iff hrun, ?_⟩
  rintro ⟨path, hpath, hparses⟩ fs' hworkDir hroot
  obtain ⟨entries', htarget', hsame⟩ := FileSystem.locate_dir_of_related
    Listing.keptBelow_sameButUnparsable hworkDir hroot htarget
  obtain ⟨paths', hrun'⟩ := Discovery.exists_run_of_sameDirs hsame.wellFormed hsame.wellFormed'
    htarget htarget' hsame.sameDirs hrun
  have halike : FileSystem.AlikeAt target fs fs' entries entries' :=
    ⟨htarget, htarget', hsame.wellFormed, hsame.wellFormed', hsame.sameClassFiles⟩
  have hscan := scan_eq_ok hrun hpath hparses
  have hscan' : scan fs' target settings = .ok (Analysis.run fs' settings.report paths') := by
    have hmem' := halike.mem_filter_parses hrun hrun' (List.mem_filter.2 ⟨hpath, hparses⟩)
    obtain ⟨hpath', hparses'⟩ := List.mem_filter.1 hmem'
    exact scan_eq_ok hrun' hpath' hparses'
  have hreports := halike.reports_eq hrun hrun' settings.report
  refine ⟨paths', hrun', Discovery.pairwise_run hsame.wellFormed htarget hrun,
    Discovery.pairwise_run hsame.wellFormed' htarget' hrun', fun format => ⟨?_, ?_⟩⟩
  · exact sameOutput_of_reports_eq (Report.renderAll · format) hscan hscan' hreports
  · exact sameOutput_of_reports_eq (fun reports => (Summary.ofReports reports).render format) hscan
      hscan' hreports

/-! ## A cut file -/

/-- The shortest class file, of a class without a name. -/
def nameless : Bytes :=
  [0xCA, 0xFE, 0xBA, 0xBE, 0, 0, 0, 52, 0, 1, 0, 0x21, 0, 0, 0, 0]

/-- A directory with a class file and one that was cut. -/
def cut : Listing :=
  .dir "out" (.file "A.class" nameless (.file "Cut.class" (nameless.take 9) (.dir "sub" .nil .nil)))
    .nil

/-- The directory after the file was cut once more, and another file like it was added. -/
def cutAgain : Listing :=
  .dir "out" (.file "A.class" nameless (.file "Cut.class" (nameless.take 2)
    (.dir "sub" (.file "Cut.class" [] .nil) .nil))) .nil

theorem sameButUnparsable_cut : cut.SameButUnparsable cutAgain := by
  have hedited : Listing.Edited cut cutAgain :=
    .keepDir (.keepFile (.change (by decide +kernel) (by decide +kernel)
      (.keepDir (.add (by decide +kernel) .nil) .nil))) .nil
  have hwell : cut.WellFormed :=
    .dir (by decide) rfl (.file (by decide) (by rfl) (.file (by decide) (by rfl)
      (.dir (by decide) rfl .nil .nil))) .nil
  have hwell' : cutAgain.WellFormed :=
    .dir (by decide) rfl (.file (by decide) (by rfl) (.file (by decide) (by rfl)
      (.dir (by decide) rfl (.file (by decide) rfl .nil) .nil))) .nil
  exact hedited.sameButUnparsable hwell hwell'

theorem locate_cut : FileSystem.locate ⟨cut, []⟩ "out" = .ok (.dir (cut.entriesOf "out")) :=
  rfl

theorem run_cut : Discovery.run ⟨cut, []⟩ "out" {} = .ok ["out/A.class", "out/Cut.class"] :=
  Discovery.run_eq_ok_of_sorted locate_cut rfl (by decide +kernel) (by decide +kernel)
    (by decide +kernel) (by decide +kernel)

/-- The cut file and the other one like it do not change what is told of the class file. -/
theorem output_of_sameButUnparsable_cut :
    FileSystem.locate ⟨cut, []⟩ "out" = .ok (.dir (cut.entriesOf "out")) ∧
      Discovery.run ⟨cut, []⟩ "out" {} = .ok ["out/A.class", "out/Cut.class"] ∧
      (∃ path ∈ ["out/A.class", "out/Cut.class"], FileSystem.parses ⟨cut, []⟩ path = true) ∧
      cut.SameButUnparsable cutAgain ∧
      ¬(∃ failure, scan ⟨cut, []⟩ "out" {} = .error failure) ∧
      ∃ paths', Discovery.run ⟨cutAgain, []⟩ "out" {} = .ok paths' ∧
        SameOutput (imports · "out" {} .text) ⟨cut, []⟩ ⟨cutAgain, []⟩
          ["out/A.class", "out/Cut.class"] paths' := by
  have hparses : ∃ path ∈ ["out/A.class", "out/Cut.class"],
      FileSystem.parses ⟨cut, []⟩ path = true :=
    ⟨"out/A.class", List.mem_cons_self, by decide +kernel⟩
  obtain ⟨hfails, houtput⟩ := output_of_sameButUnparsable {} locate_cut run_cut
  obtain ⟨paths', hrun', -, -, hsame⟩ := houtput hparses ⟨cutAgain, []⟩ rfl sameButUnparsable_cut
  refine ⟨locate_cut, run_cut, hparses, sameButUnparsable_cut, ?_, paths', hrun', (hsame .text).1⟩
  rw [hfails]
  rintro ⟨-, hnone⟩
  obtain ⟨path, hpath, htrue⟩ := hparses
  have hcontra := (hnone path hpath).symm.trans htrue
  cases hcontra

end Command

end ClassImports
