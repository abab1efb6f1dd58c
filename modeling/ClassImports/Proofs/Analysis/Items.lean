import Mathlib
import ClassImports.Proofs.Analysis
import ClassImports.Proofs.FileSystem.Sorting

/-!
# One item for each file

Each file of an analysis gives one item, which depends on that file alone (`gives_iff`,
`gives_congr`): a report if it is a class file, and otherwise a message that says why it is none. An
analysis has the reports in the stable order of their paths, and the messages in the order of the
files (`run_parts_items`). So it does not matter in which order files come, as long as no two of
their paths have the same components.
-/

namespace ClassImports.Analysis

/-- What the file at a path gives: a report, or a message. -/
inductive Gives (fs : FileSystem) (options : ReportOptions) (path : String) :
    Report ⊕ String → Prop where
  | report {content : Bytes} {file : ClassFile} (hfile : fs.locate path = .ok (.file content))
    (hread : ClassFile.ofBytes content = .ok file) :
    Gives fs options path (.inl (Report.ofClassFile path file options))
  | invalid {content : Bytes} {error : ClassFile.ReadError}
    (hfile : fs.locate path = .ok (.file content))
    (hread : ClassFile.ofBytes content = .error error) :
    Gives fs options path (.inr ("failed to parse " ++ path ++ ": " ++ error.message))
  | directory {entries : Listing} (hdir : fs.locate path = .ok (.dir entries)) :
    Gives fs options path
      (.inr ("failed to read " ++ path ++ ": " ++ AccessError.isDirectory.message))
  | unreadable {error : AccessError} (hlocate : fs.locate path = .error error) :
    Gives fs options path (.inr ("failed to read " ++ path ++ ": " ++ error.message))

/-- A result as an item. -/
def item : Except Failure Report → Report ⊕ String
  | .ok report => .inl report
  | .error failure => .inr failure.message

variable {fs : FileSystem} {options : ReportOptions} {paths others : List String}

/-! ## Items of files -/

/-- A file gives one item. -/
theorem gives_iff {path : String} {given : Report ⊕ String} :
    Gives fs options path given ↔ given = item (reportOn fs options path) := by
  constructor
  · intro h
    unfold reportOn FileSystem.readClass FileSystem.read
    cases h with
    | report hfile hread =>
      simp only [hfile, hread]
      rfl
    | invalid hfile hread =>
      simp only [hfile, hread]
      rfl
    | directory hdir =>
      simp only [hdir]
      rfl
    | unreadable hlocate =>
      simp only [hlocate]
      rfl
  · rintro rfl
    unfold reportOn FileSystem.readClass FileSystem.read
    cases hlocate : fs.locate path with
    | error error => exact .unreadable hlocate
    | ok node =>
      cases node with
      | dir entries => exact .directory hlocate
      | file content =>
        cases hread : ClassFile.ofBytes content with
        | error error =>
          simp only [hread, Except.mapError, Except.map]
          exact .invalid hlocate hread
        | ok file =>
          simp only [hread, Except.mapError, Except.map]
          exact .report hlocate hread

/-- What a file gives depends on what is at its path alone. -/
theorem gives_congr {fs' : FileSystem} {path : String} (h : fs.locate path = fs'.locate path)
    (given : Report ⊕ String) : Gives fs options path given ↔ Gives fs' options path given := by
  rw [gives_iff, gives_iff, reportOn, reportOn, FileSystem.readClass_eq h]

/-- Files give one item each. -/
theorem forall₂_gives_iff {items : List (Report ⊕ String)} :
    List.Forall₂ (Gives fs options) paths items ↔
      items = (paths.map (reportOn fs options)).map item := by
  have hgives : Gives fs options = fun path given => (item ∘ reportOn fs options) path = given := by
    funext path given
    exact propext (gives_iff.trans eq_comm)
  rw [hgives, ← List.forall₂_map_left_iff, List.forall₂_eq_eq_eq, List.map_map, eq_comm]

/-! ## The items of an analysis -/

theorem filterMap_getLeft?_items (results : List (Except Failure Report)) :
    (results.map item).filterMap Sum.getLeft? = successes results := by
  rw [List.filterMap_map, successes]
  refine List.filterMap_congr fun result _ => ?_
  cases result <;> rfl

theorem filterMap_getRight?_items (results : List (Except Failure Report)) :
    (results.map item).filterMap Sum.getRight? = messages results := by
  rw [List.filterMap_map, messages]
  refine List.filterMap_congr fun result _ => ?_
  cases result <;> rfl

theorem length_successes_add_length_messages (results : List (Except Failure Report)) :
    (successes results).length + (messages results).length = results.length := by
  induction results with
  | nil => rfl
  | cons result results ih =>
    unfold successes messages at ih ⊢
    rw [List.length_cons, ← ih]
    cases result with
    | ok report =>
      simp only [List.filterMap_cons, Except.toOption, List.length_cons]
      omega
    | error failure =>
      simp only [List.filterMap_cons, Except.toOption, List.length_cons]
      omega

theorem reports_eq_of_perm (hperm : paths.Perm others)
    (hapart : (paths.map Path.components).Nodup) :
    (run fs options others).reports = (run fs options paths).reports := by
  have hsuccesses : (successes (paths.map (reportOn fs options))).Perm
      (successes (others.map (reportOn fs options))) := (hperm.map _).filterMap _
  have hnodup : ((successes (paths.map (reportOn fs options))).map
      fun report => Path.components report.path).Nodup := by
    have hsublist : ((paths.filter fs.parses).map Path.components).Nodup :=
      hapart.sublist (List.filter_sublist.map Path.components)
    rw [← map_path_successes fs options, List.map_map] at hsublist
    exact hsublist
  exact (Path.mergeSort_eq_of_perm hsuccesses hnodup).symm

/-- **Nothing is lost and the order does not matter.** Each file gives one item, which depends on
that file alone. An analysis has the reports among them in the one stable order of their paths and
the messages in the order of the files. Files in another order have the same reports, if no two of
their paths have the same components, and the same messages in another order. -/
theorem run_parts_items (fs : FileSystem) (options : ReportOptions) (paths : List String) :
    (∃ items, (∀ others, List.Forall₂ (Gives fs options) paths others ↔ others = items) ∧
      (∀ sorted, Path.IsStableSort Report.path (items.filterMap Sum.getLeft?) sorted ↔
        sorted = (run fs options paths).reports) ∧
      (run fs options paths).errors = items.filterMap Sum.getRight?) ∧
    (run fs options paths).reports.length + (run fs options paths).errors.length = paths.length ∧
    (∀ fs' path, fs.locate path = FileSystem.locate fs' path →
      ∀ given, Gives fs options path given ↔ Gives fs' options path given) ∧
    ∀ others, paths.Perm others → (paths.map Path.components).Nodup →
      (run fs options others).reports = (run fs options paths).reports ∧
        (run fs options others).errors.Perm (run fs options paths).errors := by
  refine ⟨⟨(paths.map (reportOn fs options)).map item, fun others => forall₂_gives_iff,
    fun sorted => ?_, ?_⟩, ?_, fun fs' path hsame => gives_congr hsame,
    fun others hperm hapart => ⟨?_, ?_⟩⟩
  · have hreports : Path.IsStableSort Report.path (successes (paths.map (reportOn fs options)))
        (run fs options paths).reports := Path.isStableSort_mergeSort Report.path _
    rw [filterMap_getLeft?_items]
    constructor
    · exact fun hsorted => hsorted.unique hreports
    · rintro rfl
      exact hreports
  · rw [filterMap_getRight?_items]
    rfl
  · have hlength := length_successes_add_length_messages (paths.map (reportOn fs options))
    rw [List.length_map] at hlength
    unfold run
    rw [List.length_mergeSort]
    exact hlength
  · exact reports_eq_of_perm hperm hapart
  · exact ((hperm.map _).filterMap _).symm

/-! ## Class files and others -/

/-- The octets of a class file with a name and nothing else. -/
def named : Bytes :=
  [0xCA, 0xFE, 0xBA, 0xBE, 0, 0, 0, 52, 0, 3, 1, 0, 1, 0x41, 7, 0, 1, 0, 33, 0, 2, 0, 0]

/-- The class file that these octets hold. -/
def namedFile : ClassFile where
  version := ⟨52, 0⟩
  pool := .ofConstants [.utf8 "A", .classInfo 1]
  accessFlags := 33
  thisClass := 2
  superClass := 0

theorem ofBytes_named : ClassFile.ofBytes named = .ok namedFile := by
  decide +kernel

/-- Two class files, a file that is cut off and a directory. -/
def mixed : FileSystem :=
  ⟨.file "A.class" named (.file "Cut.class" [0xCA, 0xFE] (.dir "Dir.class" .nil
    (.dir "lib" (.file "A.class" named .nil) .nil))), []⟩

/-- In whatever order the files are given, there are the same two reports. -/
theorem run_parts_items_mixed :
    ["lib/A.class", "Dir.class", "Cut.class", "A.class"].Perm
        ["A.class", "Cut.class", "Dir.class", "lib/A.class"] ∧
      (["lib/A.class", "Dir.class", "Cut.class", "A.class"].map Path.components).Nodup ∧
      (run mixed {} ["lib/A.class", "Dir.class", "Cut.class", "A.class"]).errors =
        ["failed to read Dir.class: Is a directory (os error 21)",
          "failed to parse Cut.class: unexpected end of class file at byte 0 (needed 4 more)"] ∧
      (run mixed {} ["lib/A.class", "Dir.class", "Cut.class", "A.class"]).reports.length = 2 ∧
      (run mixed {} ["A.class", "Cut.class", "Dir.class", "lib/A.class"]).reports =
        (run mixed {} ["lib/A.class", "Dir.class", "Cut.class", "A.class"]).reports := by
  have hperm : ["lib/A.class", "Dir.class", "Cut.class", "A.class"].Perm
      ["A.class", "Cut.class", "Dir.class", "lib/A.class"] :=
    (List.reverse_perm ["A.class", "Cut.class", "Dir.class", "lib/A.class"])
  have hapart : (["lib/A.class", "Dir.class", "Cut.class", "A.class"].map
      Path.components).Nodup := by decide +kernel
  have hfirst : mixed.locate "lib/A.class" = .ok (.file named) := by decide +kernel
  have hlast : mixed.locate "A.class" = .ok (.file named) := by decide +kernel
  have hdir : mixed.locate "Dir.class" = .ok (.dir .nil) := by decide +kernel
  have hcut : mixed.locate "Cut.class" = .ok (.file [0xCA, 0xFE]) := by decide +kernel
  have hread : ClassFile.ofBytes [0xCA, 0xFE] = .error (.truncated 0 4) := by decide +kernel
  obtain ⟨⟨items, hitems, -, herrors⟩, hlength, -, horder⟩ :=
    run_parts_items mixed {} ["lib/A.class", "Dir.class", "Cut.class", "A.class"]
  have hgiven := (hitems _).1 (.cons (.report hfirst ofBytes_named) (.cons (.directory hdir)
    (.cons (.invalid hcut hread) (.cons (.report hlast ofBytes_named) .nil))))
  rw [← hgiven] at herrors
  have hmessages : (run mixed {} ["lib/A.class", "Dir.class", "Cut.class", "A.class"]).errors =
      ["failed to read Dir.class: Is a directory (os error 21)",
        "failed to parse Cut.class: unexpected end of class file at byte 0 (needed 4 more)"] :=
    herrors
  refine ⟨hperm, hapart, hmessages, ?_, (horder _ hperm hapart).1⟩
  rw [hmessages] at hlength
  simpa using hlength

end ClassImports.Analysis
