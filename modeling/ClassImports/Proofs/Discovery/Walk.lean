import Mathlib
import ClassImports.Discovery
import ClassImports.Proofs.Results

/-!
# What the walk of a directory finds

The files below a directory are told apart by the names that lead to them, since that is what
decides about them: every directory on the way, and the file itself, is a stop that must not be left
out. `namesBelow` is the walk `filesBelow` with names in place of paths, and `mem_namesBelow_iff`
says what it finds.
-/

namespace ClassImports

/-- Whether names lead from a directory with the given content to a file. -/
inductive Listing.File : Listing → List String → Prop where
  | here (name : String) (content : Bytes) (rest : Listing) :
    File (.file name content rest) [name]
  | inside {name : String} {entries rest : Listing} {names : List String} :
    File entries names → File (.dir name entries rest) (name :: names)
  | afterFile {name : String} {content : Bytes} {rest : Listing} {names : List String} :
    File rest names → File (.file name content rest) names
  | afterDir {name : String} {entries rest : Listing} {names : List String} :
    File rest names → File (.dir name entries rest) names

theorem Listing.not_file_nil (names : List String) : ¬ Listing.nil.File names := by
  intro h
  cases h

theorem Listing.file_file_iff {name : String} {content : Bytes} {rest : Listing}
    {names : List String} :
    (Listing.file name content rest).File names ↔ names = [name] ∨ rest.File names := by
  constructor
  · intro h
    cases h with
    | here => exact .inl rfl
    | afterFile h => exact .inr h
  · rintro (rfl | h)
    · exact .here name content rest
    · exact .afterFile h

theorem Listing.file_dir_iff {name : String} {entries rest : Listing} {names : List String} :
    (Listing.dir name entries rest).File names ↔
      (∃ inner, entries.File inner ∧ names = name :: inner) ∨ rest.File names := by
  constructor
  · intro h
    cases h with
    | inside h => exact .inl ⟨_, h, rfl⟩
    | afterDir h => exact .inr h
  · rintro (⟨inner, h, rfl⟩ | h)
    · exact .inside h
    · exact .afterDir h

theorem Listing.File.ne_nil {listing : Listing} {names : List String} (h : listing.File names) :
    names ≠ [] := by
  induction h with
  | here name content rest => exact List.cons_ne_nil name []
  | inside h ih => exact List.cons_ne_nil _ _
  | afterFile h ih => exact ih
  | afterDir h ih => exact ih

namespace Discovery

/-! ## The way to a file -/

/-- A place on the way to a file: the names that lead there from where the walk starts. -/
structure Stop where
  names : List String
  isDir : Bool
  deriving DecidableEq, Repr

/-- The stop that is reached by the same names from the directory above. -/
def Stop.inside (name : String) (stop : Stop) : Stop :=
  { stop with names := name :: stop.names }

/-- The stops on the way to a file: the directories that names lead through, and the file. -/
def stops : List String → List Stop
  | [] => []
  | [name] => [⟨[name], false⟩]
  | name :: names => ⟨[name], true⟩ :: (stops names).map (Stop.inside name)

theorem stops_singleton (name : String) : stops [name] = [⟨[name], false⟩] :=
  rfl

theorem stops_cons (name : String) {names : List String} (h : names ≠ []) :
    stops (name :: names) = ⟨[name], true⟩ :: (stops names).map (Stop.inside name) := by
  cases names with
  | nil => exact absurd rfl h
  | cons next names => rfl

/-- The path to which names lead from a directory. -/
def pathTo (dir : String) (names : List String) : String :=
  names.foldl Path.join dir

theorem pathTo_singleton (dir name : String) : pathTo dir [name] = Path.join dir name :=
  rfl

theorem pathTo_cons (dir name : String) (names : List String) :
    pathTo dir (name :: names) = pathTo (Path.join dir name) names :=
  rfl

/-! ## The walk -/

/-- The names that lead to the class files that `filesBelow` finds. -/
def namesBelow (leavesOut : String → Bool → Bool) (dir : String) : Listing → List (List String)
  | .nil => []
  | .file name _ rest =>
    let path := Path.join dir name
    if !leavesOut path false && isClassFile path then [name] :: namesBelow leavesOut dir rest
    else namesBelow leavesOut dir rest
  | .dir name entries rest =>
    let path := Path.join dir name
    if leavesOut path true then namesBelow leavesOut dir rest
    else (namesBelow leavesOut path entries).map (name :: ·) ++ namesBelow leavesOut dir rest

theorem filesBelow_eq_map_namesBelow (leavesOut : String → Bool → Bool) (dir : String)
    (listing : Listing) :
    filesBelow leavesOut dir listing = (namesBelow leavesOut dir listing).map (pathTo dir) := by
  induction listing generalizing dir with
  | nil => rfl
  | file name content rest ih =>
    simp only [filesBelow, namesBelow, ih]
    split
    · rw [List.map_cons, pathTo_singleton]
    · rfl
  | dir name entries rest ihEntries ihRest =>
    simp only [filesBelow, namesBelow, ihEntries, ihRest]
    split
    · rfl
    · rw [List.map_append, List.map_map]
      rfl

/-- Whether names lead to a class file, and no stop on the way is left out. -/
def Passes (leavesOut : String → Bool → Bool) (dir : String) (names : List String) : Prop :=
  isClassFile (pathTo dir names) = true ∧
    ∀ stop ∈ stops names, leavesOut (pathTo dir stop.names) stop.isDir = false

theorem passes_singleton {leavesOut : String → Bool → Bool} {dir name : String} :
    Passes leavesOut dir [name] ↔
      (!leavesOut (Path.join dir name) false && isClassFile (Path.join dir name)) = true := by
  unfold Passes
  rw [stops_singleton, List.forall_mem_singleton, pathTo_singleton, Bool.and_eq_true,
    Bool.not_eq_true', and_comm]

/-- A file below a directory passes if the directory does and the file passes from there. -/
theorem passes_cons {leavesOut : String → Bool → Bool} {dir name : String} {names : List String}
    (h : names ≠ []) :
    Passes leavesOut dir (name :: names) ↔
      leavesOut (Path.join dir name) true = false ∧
        Passes leavesOut (Path.join dir name) names := by
  unfold Passes
  rw [stops_cons name h, List.forall_mem_cons, List.forall_mem_map, pathTo_singleton, pathTo_cons]
  constructor
  · rintro ⟨hclass, hdir, hstops⟩
    exact ⟨hdir, hclass, hstops⟩
  · rintro ⟨hdir, hclass, hstops⟩
    exact ⟨hclass, hdir, hstops⟩

/-- **What the walk finds**: the files below the directory that pass. -/
theorem mem_namesBelow_iff {leavesOut : String → Bool → Bool} {dir : String} {listing : Listing}
    {names : List String} :
    names ∈ namesBelow leavesOut dir listing ↔
      listing.File names ∧ Passes leavesOut dir names := by
  induction listing generalizing dir names with
  | nil =>
    have hfile := Listing.not_file_nil names
    simp [namesBelow, hfile]
  | file name content rest ih =>
    rw [Listing.file_file_iff, or_and_right, ← ih]
    simp only [namesBelow]
    split
    · next hpasses =>
      rw [List.mem_cons]
      apply or_congr_left
      constructor
      · rintro rfl
        exact ⟨rfl, passes_singleton.2 hpasses⟩
      · exact fun h => h.1
    · next hpasses =>
      constructor
      · exact .inr
      · rintro (⟨rfl, h⟩ | h)
        · exact absurd (passes_singleton.1 h) hpasses
        · exact h
  | dir name entries rest ihEntries ihRest =>
    rw [Listing.file_dir_iff, or_and_right, ← ihRest]
    simp only [namesBelow]
    split
    · next hleft =>
      constructor
      · exact .inr
      · rintro (⟨⟨inner, hfile, rfl⟩, hpasses⟩ | h)
        · have hentered := ((passes_cons hfile.ne_nil).1 hpasses).1
          rw [hleft] at hentered
          cases hentered
        · exact h
    · next hentered =>
      rw [Bool.not_eq_true] at hentered
      rw [List.mem_append, List.mem_map]
      apply or_congr_left
      constructor
      · rintro ⟨inner, hinner, rfl⟩
        obtain ⟨hfile, hpasses⟩ := ihEntries.1 hinner
        exact ⟨⟨inner, hfile, rfl⟩, (passes_cons hfile.ne_nil).2 ⟨hentered, hpasses⟩⟩
      · rintro ⟨⟨inner, hfile, rfl⟩, hpasses⟩
        exact ⟨inner, ihEntries.2 ⟨hfile, ((passes_cons hfile.ne_nil).1 hpasses).2⟩, rfl⟩

/-! ## Runs on directories -/

theorem selection_eq_ok_iff {options : DiscoveryOptions} {lines : Selection} :
    selection options = .ok lines ↔
      ∃ excluding including,
        Selection.ofTexts (options.excludes.map ("!" ++ ·)) = .ok excluding ∧
          Selection.ofTexts options.includes = .ok including ∧
          Glob.checkDepth ((excluding ++ including).map SelectionLine.glob) = .ok () ∧
          lines = excluding ++ including := by
  unfold selection
  simp only [Except.bind_eq_ok_iff, Except.mapError_eq_ok_iff, pure, Except.pure, Except.ok.injEq]
  constructor
  · rintro ⟨excluding, hexcluding, including, hincluding, ⟨⟩, hdepth, rfl⟩
    exact ⟨excluding, including, hexcluding, hincluding, hdepth, rfl⟩
  · rintro ⟨excluding, including, hexcluding, hincluding, hdepth, rfl⟩
    exact ⟨excluding, hexcluding, including, hincluding, (), hdepth, rfl⟩

/-- **A run on a directory** gives, in the order of their paths, the class files that the lines of
the options let pass; below the standard input there are none. -/
theorem run_dir_eq_ok {fs : FileSystem} {target : String} {entries : Listing}
    {options : DiscoveryOptions} {files : List String}
    (htarget : fs.locate target = .ok (.dir entries)) (hrun : run fs target options = .ok files) :
    ∃ (lines : Selection) (found : List (List String)), selection options = .ok lines ∧
      files = (found.map (pathTo target)).mergeSort Path.le ∧
      ∀ names, names ∈ found ↔ isStandardInput target = false ∧ entries.File names ∧
        Passes (fun path => lines.leavesOut (Selection.pathBelow target path)) target names := by
  simp only [run, htarget, Except.bind_eq_ok_iff] at hrun
  obtain ⟨lines, hlines, hfiles⟩ := hrun
  refine ⟨lines, ?_⟩
  split at hfiles
  · next hinput =>
    cases hfiles
    exact ⟨[], hlines, by simp, by simp [hinput]⟩
  · next hinput =>
    rw [Bool.not_eq_true] at hinput
    split at hfiles
    · cases hfiles
    · cases hfiles
      refine ⟨_, hlines, by rw [filesBelow_eq_map_namesBelow], fun names => ?_⟩
      rw [mem_namesBelow_iff]
      simp [hinput]

end Discovery

end ClassImports
