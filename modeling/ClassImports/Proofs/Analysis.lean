import Mathlib
import ClassImports.Command
import ClassImports.Proofs.Results

/-!
# What becomes of the files that are read

An analysis of files in the order of their paths has the reports on those that parse, in that order
(`reports_run`), and a message for each of the others (`tellsOf_run`). So a scan fails when there
are files and none of them parses (`exists_scan_eq_error_iff`), and otherwise is this analysis.
-/

namespace ClassImports

namespace FileSystem

theorem readClass_eq_ok_iff {fs : FileSystem} {path : String} {file : ClassFile} :
    fs.readClass path = .ok file ↔
      ∃ content, fs.locate path = .ok (.file content) ∧ ClassFile.ofBytes content = .ok file := by
  unfold readClass read
  cases fs.locate path with
  | error error => simp
  | ok node =>
    cases node with
    | dir entries => simp
    | file content => simp [Except.mapError_eq_ok_iff]

theorem readClass_eq {fs fs' : FileSystem} {path : String}
    (h : fs.locate path = fs'.locate path) : fs.readClass path = fs'.readClass path := by
  unfold readClass read
  rw [h]

/-- Whether the file at a path can be read and is a class file. -/
def parses (fs : FileSystem) (path : String) : Bool :=
  (fs.readClass path).toOption.isSome

theorem parses_iff {fs : FileSystem} {path : String} :
    fs.parses path = true ↔ ∃ file, fs.readClass path = .ok file := by
  simp only [parses, Option.isSome_iff_exists, Except.toOption_eq_some_iff]

theorem parses_eq_false_iff {fs : FileSystem} {path : String} :
    fs.parses path = false ↔ ∃ failure, fs.readClass path = .error failure := by
  simp only [parses, Option.isSome_eq_false_iff, Option.isNone_iff_eq_none,
    Except.toOption_eq_none_iff]

end FileSystem

namespace Analysis

variable {fs : FileSystem} {options : ReportOptions} {paths : List String}

/-- An analysis depends on what is read at its paths alone. -/
theorem run_congr {fs' : FileSystem} (h : ∀ path ∈ paths, fs.readClass path = fs'.readClass path) :
    run fs options paths = run fs' options paths := by
  have hresults : paths.map (reportOn fs options) = paths.map (reportOn fs' options) := by
    apply List.map_congr_left
    intro path hpath
    unfold reportOn
    rw [h path hpath]
  unfold run
  rw [hresults]

theorem path_of_reportOn {path : String} {report : Report}
    (h : reportOn fs options path = .ok report) : report.path = path := by
  unfold reportOn at h
  obtain ⟨file, -, rfl⟩ := Except.map_eq_ok_iff.1 h
  rfl

theorem isSome_toOption_reportOn (fs : FileSystem) (options : ReportOptions) (path : String) :
    (reportOn fs options path).toOption.isSome = fs.parses path := by
  unfold reportOn FileSystem.parses
  cases fs.readClass path <;> rfl

/-- The reports of an analysis, before they are sorted, have the paths of the files that parse. -/
theorem map_path_successes (fs : FileSystem) (options : ReportOptions) (paths : List String) :
    (successes (paths.map (reportOn fs options))).map Report.path = paths.filter fs.parses := by
  unfold successes
  rw [List.filterMap_map, List.map_filterMap, ← List.filterMap_eq_filter]
  refine List.filterMap_congr fun path _ => ?_
  rw [Function.comp_apply, Option.guard, ← isSome_toOption_reportOn fs options]
  cases hreport : reportOn fs options path with
  | error failure => rfl
  | ok report => simp [Except.toOption, path_of_reportOn hreport]

/-- Where the files come in the order of their paths, so do the reports. -/
theorem reports_run (h : paths.Pairwise fun a b => Path.le a b = true) :
    (run fs options paths).reports =
      (paths.filter fs.parses).filterMap fun path => (reportOn fs options path).toOption := by
  have hsorted : (successes (paths.map (reportOn fs options))).Pairwise
      fun a b => Path.le a.path b.path = true := by
    have hpaths := h.sublist (List.filter_sublist (p := fs.parses))
    rw [← map_path_successes fs options] at hpaths
    exact List.pairwise_map.1 hpaths
  unfold run
  simp only
  rw [List.mergeSort_of_pairwise hsorted, successes, List.filterMap_map, List.filterMap_filter]
  refine List.filterMap_congr fun path _ => ?_
  rw [Function.comp_apply, ← isSome_toOption_reportOn fs options]
  cases (reportOn fs options path).toOption <;> rfl

/-- Whether some messages tell why files do not parse: one of each of the paths that is not that of
a class file, in the order of the paths. -/
def TellsOf (fs : FileSystem) (paths messages : List String) : Prop :=
  List.Forall₂
    (fun path message => ∃ failure, fs.readClass path = .error failure ∧ message = failure.message)
    (paths.filter fun path => !fs.parses path) messages

theorem tellsOf_run (fs : FileSystem) (options : ReportOptions) (paths : List String) :
    TellsOf fs paths (run fs options paths).errors := by
  show TellsOf fs paths (messages (paths.map (reportOn fs options)))
  induction paths with
  | nil => exact .nil
  | cons path paths ih =>
    unfold TellsOf messages at ih ⊢
    cases hread : fs.readClass path with
    | ok file =>
      have hparses : fs.parses path = true := FileSystem.parses_iff.2 ⟨file, hread⟩
      simpa [hparses, reportOn, hread, Except.map] using ih
    | error failure =>
      have hfails : fs.parses path = false := FileSystem.parses_eq_false_iff.2 ⟨failure, hread⟩
      simpa [hfails, reportOn, hread, Except.map] using ih

theorem reports_eq_nil_iff (options : ReportOptions) :
    (run fs options paths).reports = [] ↔ ∀ path ∈ paths, fs.parses path = false := by
  unfold run successes
  rw [← List.length_eq_zero_iff, List.length_mergeSort, List.length_eq_zero_iff,
    List.filterMap_map, List.filterMap_eq_nil_iff]
  refine forall₂_congr fun path _ => ?_
  rw [Function.comp_apply, ← isSome_toOption_reportOn fs options, Option.isSome_eq_false_iff,
    Option.isNone_iff_eq_none]

theorem TellsOf.eq_nil_iff {messages : List String} (h : TellsOf fs paths messages) :
    messages = [] ↔ ∀ path ∈ paths, fs.parses path = true := by
  rw [← List.length_eq_zero_iff, ← List.Forall₂.length_eq h, List.length_eq_zero_iff,
    List.filter_eq_nil_iff]
  simp

end Analysis

namespace Command

variable {fs : FileSystem} {target : String} {settings : Settings} {paths : List String}

theorem scan_eq (hrun : Discovery.run fs target settings.discovery = .ok paths) :
    scan fs target settings =
      match (Analysis.run fs settings.report paths).reports,
        (Analysis.run fs settings.report paths).errors with
      | [], first :: rest => .error (.noReadableClass target (rest.length + 1) first)
      | _, _ => .ok (Analysis.run fs settings.report paths) := by
  unfold scan
  rw [hrun]
  rfl

/-- **When a scan fails** on the files that were found: when there are some and none of them
parses. -/
theorem exists_scan_eq_error_iff (hrun : Discovery.run fs target settings.discovery = .ok paths) :
    (∃ failure, scan fs target settings = .error failure) ↔
      paths ≠ [] ∧ ∀ path ∈ paths, fs.parses path = false := by
  have htells := (Analysis.tellsOf_run fs settings.report paths).eq_nil_iff
  rw [scan_eq hrun, ← Analysis.reports_eq_nil_iff settings.report]
  cases hreports : (Analysis.run fs settings.report paths).reports with
  | cons report reports => simp
  | nil =>
    have hnone := (Analysis.reports_eq_nil_iff _).1 hreports
    cases herrors : (Analysis.run fs settings.report paths).errors with
    | nil =>
      -- all files parse and none does, so there is none
      have hall := htells.1 herrors
      have hnil : paths = [] := by
        apply List.eq_nil_iff_forall_not_mem.2
        intro path hmem
        have hcontra := (hnone path hmem).symm.trans (hall path hmem)
        cases hcontra
      simp [hnil]
    | cons first rest =>
      refine iff_of_true ⟨_, rfl⟩ ⟨?_, rfl⟩
      rintro rfl
      cases herrors

theorem scan_eq_ok (hrun : Discovery.run fs target settings.discovery = .ok paths) {path : String}
    (hpath : path ∈ paths) (hparses : fs.parses path = true) :
    scan fs target settings = .ok (Analysis.run fs settings.report paths) := by
  rw [scan_eq hrun]
  split
  · next hnone _ =>
    have hfails := (Analysis.reports_eq_nil_iff _).1 hnone path hpath
    rw [hparses] at hfails
    cases hfails
  · rfl

end Command

end ClassImports
