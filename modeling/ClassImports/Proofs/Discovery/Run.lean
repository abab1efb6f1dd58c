import Mathlib
import ClassImports.Proofs.FileSystem.Location
import ClassImports.Proofs.FileSystem.Order

/-!
# Runs of the discovery on directories

* `run_eq_ok_iff`: a run on a directory succeeds if its lines can be used and no directory that it
  would enter is out of reach, and gives the walk's files in the order of their paths.
* `pairwise_run`: the order is strict, so no file comes twice, and the members tell the list.
* `exists_of_mem_run`: what one run finds is found by a run on another directory with the same file.
* `outOfReach?_eq_none_iff`, `outOfReach_of_outOfReach?`: a directory is out of reach only if it is
  entered and its path is too long; what there is besides directories does not matter for this.
* `run_dir_cases`: a run on a directory succeeds, or its lines cannot be used, or it comes to a
  directory that is out of reach.
-/

namespace ClassImports.Discovery

variable {leavesOut : String → Bool → Bool}

/-! ## Files come once -/

theorem nodup_namesBelow {listing : Listing} (h : listing.WellFormed) (dir : String) :
    (namesBelow leavesOut dir listing).Nodup := by
  -- names that lead through one entry of a directory do not lead through a later one
  have hlater : ∀ {name : String} {names : List String} {rest : Listing} (path : String),
      rest.find? name = none → name :: names ∉ namesBelow leavesOut path rest := by
    intro name names rest path hnew hmem
    exact (mem_namesBelow_iff.1 hmem).1.find?_ne_none hnew
  induction h generalizing dir with
  | nil => exact List.nodup_nil
  | file hname hnew hrest ih =>
    simp only [namesBelow]
    split
    · exact List.nodup_cons.2 ⟨hlater dir hnew, ih dir⟩
    · exact ih dir
  | dir hname hnew hentries hrest ihEntries ihRest =>
    simp only [namesBelow]
    split
    · exact ihRest dir
    · apply List.Nodup.append
      · exact (ihEntries _).map (List.cons_injective)
      · exact ihRest dir
      · intro names hinside hbeside
        obtain ⟨inner, -, rfl⟩ := List.mem_map.1 hinside
        exact hlater dir hnew hbeside

theorem pathTo_injective {target : String} (htarget : target ≠ "") {names others : List String}
    (hnames : ∀ name ∈ names, Path.IsEntryName name)
    (hothers : ∀ name ∈ others, Path.IsEntryName name)
    (h : Path.components (pathTo target names) = Path.components (pathTo target others)) :
    names = others := by
  rw [Path.components_pathTo htarget hnames, Path.components_pathTo htarget hothers,
    List.append_cancel_left_eq] at h
  have hinjective : Function.Injective Path.Component.name := by
    intro a b hab
    cases hab
    rfl
  exact hinjective.list_map h

/-- Whether a file is a class file is told by the extension of its name. -/
theorem isClassFile_pathTo_iff {target : String} (htarget : target ≠ "") {names : List String}
    (hne : names ≠ []) (hvalid : ∀ name ∈ names, Path.IsEntryName name) :
    isClassFile (pathTo target names) = true ↔
      names.getLast?.bind Path.extensionOf? = some "class" := by
  have hmap : names.map Path.Component.name ≠ [] := by simpa using hne
  unfold isClassFile Path.extension? Path.fileName?
  rw [beq_iff_eq, Path.components_pathTo htarget hvalid, List.getLast?_append_of_ne_nil _ hmap,
    List.getLast?_map, List.getLast?_eq_some_getLast hne]
  rfl

/-! ## Runs -/

theorem run_eq_ok_iff {fs : FileSystem} {target : String} {entries : Listing}
    {options : DiscoveryOptions} (htarget : fs.locate target = .ok (.dir entries))
    {files : List String} :
    run fs target options = .ok files ↔
      ∃ lines : Selection, selection options = .ok lines ∧
        if isStandardInput target then files = []
        else
          outOfReach? (fun path => lines.leavesOut (Selection.pathBelow target path)) target entries
            = none ∧
          files = ((namesBelow (fun path => lines.leavesOut (Selection.pathBelow target path)) target
            entries).map (pathTo target)).mergeSort Path.le := by
  simp only [run, htarget, Except.bind_eq_ok_iff]
  refine exists_congr fun lines => and_congr_right fun _ => ?_
  split
  · simp [pure, Except.pure, eq_comm]
  · rw [filesBelow_eq_map_namesBelow]
    split
    · next hreach => simp [hreach]
    · next hreach => simp [hreach, pure, Except.pure, eq_comm]

/-- A run gives the files as they are found if that is the order of their paths. -/
theorem run_eq_ok_of_sorted {fs : FileSystem} {target : String} {entries : Listing}
    {options : DiscoveryOptions} {lines : Selection} {files : List String}
    (htarget : fs.locate target = .ok (.dir entries)) (hlines : selection options = .ok lines)
    (hinput : isStandardInput target = false)
    (hreach : outOfReach? (fun path => lines.leavesOut (Selection.pathBelow target path)) target
      entries = none)
    (hfiles : filesBelow (fun path => lines.leavesOut (Selection.pathBelow target path)) target
      entries = files)
    (hsorted : files.Pairwise fun a b => Path.le a b = true) :
    run fs target options = .ok files := by
  rw [run_eq_ok_iff htarget]
  refine ⟨lines, hlines, ?_⟩
  rw [hinput, if_neg Bool.false_ne_true, ← filesBelow_eq_map_namesBelow, hfiles,
    List.mergeSort_of_pairwise hsorted]
  exact ⟨hreach, rfl⟩

/-- Whether a path comes before another one and not behind it. -/
def Before (a b : String) : Prop :=
  Path.le a b = true ∧ Path.le b a = false

theorem Before.asymm {a b : String} (h : Before a b) : ¬Before b a := by
  intro hback
  exact absurd hback.1 (by simp [h.2])

theorem Before.ne {a b : String} (h : Before a b) : a ≠ b := by
  rintro rfl
  exact h.asymm h

/-- What is in strictly ascending order is told by its members. -/
theorem eq_of_pairwise_before {paths others : List String} (h : paths.Pairwise Before)
    (hothers : others.Pairwise Before) (hmem : ∀ path, path ∈ paths ↔ path ∈ others) :
    paths = others := by
  have hperm : paths.Perm others := by
    rw [List.perm_ext_iff_of_nodup (h.imp Before.ne) (hothers.imp Before.ne)]
    exact hmem
  exact hperm.eq_of_pairwise (fun _ _ _ _ hab hba => absurd hba hab.asymm) h hothers

theorem ne_empty_of_locate {fs : FileSystem} {target : String} {node : Node}
    (h : fs.locate target = .ok node) : target ≠ "" :=
  (FileSystem.locate_eq_ok_iff.1 h).2.1

/-- The files that a run finds are in strictly ascending order. -/
theorem pairwise_run {fs : FileSystem} {target : String} {entries : Listing}
    {options : DiscoveryOptions} {files : List String} (hwell : entries.WellFormed)
    (htarget : fs.locate target = .ok (.dir entries)) (hrun : run fs target options = .ok files) :
    files.Pairwise Before := by
  obtain ⟨lines, -, hfiles⟩ := (run_eq_ok_iff htarget).1 hrun
  split at hfiles
  · rw [hfiles]
    exact List.Pairwise.nil
  obtain ⟨-, rfl⟩ := hfiles
  generalize (fun path => lines.leavesOut (Selection.pathBelow target path)) = leavesOut
  have hempty := ne_empty_of_locate htarget
  have hsorted := List.pairwise_mergeSort Path.le_trans Path.le_total
    ((namesBelow leavesOut target entries).map (pathTo target))
  have hvalid : ∀ names ∈ namesBelow leavesOut target entries,
      ∀ name ∈ names, Path.IsEntryName name :=
    fun names hmem => (mem_namesBelow_iff.1 hmem).1.isEntryName hwell
  have hapart : ((namesBelow leavesOut target entries).map (pathTo target)).Pairwise
      fun a b => Path.components a ≠ Path.components b := by
    rw [List.pairwise_map]
    apply (nodup_namesBelow hwell target).imp_of_mem
    intro names others hnames hothers hne heq
    exact hne (pathTo_injective hempty (hvalid names hnames) (hvalid others hothers) heq)
  have hapartSorted := (List.mergeSort_perm _ Path.le).symm.pairwise hapart fun h => h.symm
  apply (hsorted.and hapartSorted).imp
  rintro a b ⟨hle, hne⟩
  refine ⟨hle, Bool.eq_false_iff.2 fun hback => hne ?_⟩
  exact Path.components_eq_of_le_of_le hle hback

theorem mem_run_iff {fs : FileSystem} {target : String} {entries : Listing}
    {options : DiscoveryOptions} {files : List String}
    (htarget : fs.locate target = .ok (.dir entries)) (hrun : run fs target options = .ok files)
    {lines : Selection} (hlines : selection options = .ok lines) {path : String} :
    path ∈ files ↔ isStandardInput target = false ∧ ∃ names, path = pathTo target names ∧
      entries.File names ∧
      Passes (fun path => lines.leavesOut (Selection.pathBelow target path)) target names := by
  obtain ⟨_, hlines', hfiles⟩ := (run_eq_ok_iff htarget).1 hrun
  cases hlines.symm.trans hlines'
  split at hfiles
  · next hinput => simp [hfiles, hinput]
  · next hinput =>
    obtain ⟨-, rfl⟩ := hfiles
    rw [List.mem_mergeSort, List.mem_map]
    simp only [Bool.not_eq_true] at hinput
    simp only [hinput, true_and, mem_namesBelow_iff]
    constructor
    · rintro ⟨names, hnames, rfl⟩
      exact ⟨names, rfl, hnames⟩
    · rintro ⟨names, rfl, hnames⟩
      exact ⟨names, hnames, rfl⟩

/-- **Found elsewhere.** Names with the extension of class files lead to every file that a run finds;
where they lead to the same file in another file system, the run finds it there, too. -/
theorem exists_of_mem_run {fs : FileSystem} {target : String} {entries : Listing}
    {options : DiscoveryOptions} {files : List String} (hwell : entries.WellFormed)
    (htarget : fs.locate target = .ok (.dir entries)) (hrun : run fs target options = .ok files)
    {path : String} (hpath : path ∈ files) :
    ∃ names content, names.getLast?.bind Path.extensionOf? = some "class" ∧
      (Node.dir entries).at? names = some (.file content) ∧
      (∀ node, fs.locate path = .ok node → node = .file content) ∧
      ∀ fs' entries' files', FileSystem.locate fs' target = .ok (.dir entries') →
        run fs' target options = .ok files' →
        (Node.dir entries').at? names = some (.file content) →
        path ∈ files' ∧ fs.locate path = fs'.locate path := by
  obtain ⟨lines, hlines, -⟩ := (run_eq_ok_iff htarget).1 hrun
  obtain ⟨hinput, names, rfl, hfile, hpasses⟩ := (mem_run_iff htarget hrun hlines).1 hpath
  have hne : names ≠ [] := hfile.ne_nil
  have hvalid := hfile.isEntryName hwell
  obtain ⟨content, hat⟩ := (Listing.file_iff_exists_at? hwell).1 hfile
  refine ⟨names, content, ?_, hat, ?_, ?_⟩
  · exact (isClassFile_pathTo_iff (ne_empty_of_locate htarget) hne hvalid).1 hpasses.1
  · intro node hlocate
    have hnode := ((FileSystem.locate_pathTo_eq_ok_iff htarget hne hvalid).1 hlocate).2
    exact Option.some_inj.1 (hnode.symm.trans hat)
  · intro fs' entries' files' htarget' hrun' hat'
    constructor
    · apply (mem_run_iff htarget' hrun' hlines).2
      exact ⟨hinput, names, rfl, Listing.file_of_at? hat', hpasses⟩
    · exact FileSystem.locate_pathTo_eq htarget htarget' hne hvalid hat hat'

/-! ## Directories out of reach -/

/-- Whether none of the directories that names lead through is left out. -/
def Enters (leavesOut : String → Bool → Bool) : String → List String → Prop
  | _, [] => True
  | dir, name :: names =>
    leavesOut (Path.join dir name) true = false ∧ Enters leavesOut (Path.join dir name) names

/-- Whether every directory that is entered below `dir` has a path that can be followed. -/
def WithinReach (leavesOut : String → Bool → Bool) (dir : String) (listing : Listing) : Prop :=
  ∀ names, names ≠ [] → listing.HasDir names → Enters leavesOut dir names →
    (pathTo dir names).utf8ByteSize ≤ FileSystem.pathLimit

theorem withinReach_file_iff {dir name : String} {content : Bytes} {rest : Listing}
    (hnew : rest.find? name = none) :
    WithinReach leavesOut dir (.file name content rest) ↔ WithinReach leavesOut dir rest := by
  refine forall₂_congr fun names _ => ?_
  rw [Listing.hasDir_file_iff hnew]

theorem withinReach_dir_iff {dir name : String} {entries rest : Listing}
    (hnew : rest.find? name = none) :
    WithinReach leavesOut dir (.dir name entries rest) ↔
      (leavesOut (Path.join dir name) true = false →
        (Path.join dir name).utf8ByteSize ≤ FileSystem.pathLimit ∧
          WithinReach leavesOut (Path.join dir name) entries) ∧
      WithinReach leavesOut dir rest := by
  constructor
  · intro h
    refine ⟨fun hkept => ⟨?_, fun names _ hdir henters => ?_⟩, fun names hne hdir henters => ?_⟩
    · exact h [name] (List.cons_ne_nil _ _)
        ((Listing.hasDir_dir_iff hnew).2 (.inl ⟨rfl, Listing.hasDir_nil _⟩)) ⟨hkept, trivial⟩
    · exact h (name :: names) (List.cons_ne_nil _ _)
        ((Listing.hasDir_dir_iff hnew).2 (.inl ⟨rfl, hdir⟩)) ⟨hkept, henters⟩
    · cases names with
      | nil => exact absurd rfl hne
      | cons next names =>
        exact h _ hne ((Listing.hasDir_dir_iff hnew).2 (.inr hdir)) henters
  · rintro ⟨hinside, hbeside⟩ names hne hdir henters
    cases names with
    | nil => exact absurd rfl hne
    | cons next names =>
      rcases (Listing.hasDir_dir_iff hnew).1 hdir with ⟨rfl, hinner⟩ | hlater
      · obtain ⟨hkept, henters⟩ := henters
        obtain ⟨hshort, hbelow⟩ := hinside hkept
        cases names with
        | nil => exact hshort
        | cons _ _ => exact hbelow _ (List.cons_ne_nil _ _) hinner henters
      · exact hbeside _ hne hlater henters

theorem outOfReach?_eq_none_iff {listing : Listing} (h : listing.WellFormed) (dir : String) :
    outOfReach? leavesOut dir listing = none ↔ WithinReach leavesOut dir listing := by
  induction h generalizing dir with
  | nil =>
    refine iff_of_true rfl fun names hne hdir _ => ?_
    obtain ⟨inner, hinner⟩ := hdir
    cases names with
    | nil => exact absurd rfl hne
    | cons name names => cases hinner
  | file hname hnew hrest ih =>
    rw [withinReach_file_iff hnew]
    exact ih dir
  | dir hname hnew hentries hrest ihEntries ihRest =>
    rw [withinReach_dir_iff hnew, ← ihEntries, ← ihRest]
    simp only [outOfReach?]
    split
    · next hleft => simp [hleft]
    · next hkept =>
      rw [Bool.not_eq_true] at hkept
      split
      · next hlong => simp [hkept, Nat.not_le.2 hlong]
      · next hshort => simp [hkept, Nat.not_lt.1 hshort]

/-- Whether a path is that of a directory below `dir` that is to be entered, and too long to be
followed. -/
def OutOfReach (leavesOut : String → Bool → Bool) (dir : String) (listing : Listing)
    (path : String) : Prop :=
  ∃ names, names ≠ [] ∧ listing.HasDir names ∧ Enters leavesOut dir names ∧
    path = pathTo dir names ∧ FileSystem.pathLimit < path.utf8ByteSize

theorem withinReach_iff {dir : String} {listing : Listing} :
    WithinReach leavesOut dir listing ↔ ∀ path, ¬OutOfReach leavesOut dir listing path := by
  constructor
  · rintro hwithin path ⟨names, hne, hdir, henters, rfl, hlong⟩
    exact absurd hlong (Nat.not_lt.2 (hwithin names hne hdir henters))
  · intro h names hne hdir henters
    by_contra hlong
    exact h _ ⟨names, hne, hdir, henters, rfl, Nat.not_le.1 hlong⟩

theorem outOfReach_of_outOfReach? {listing : Listing} (h : listing.WellFormed) {dir path : String}
    (hfound : outOfReach? leavesOut dir listing = some path) :
    OutOfReach leavesOut dir listing path := by
  induction h generalizing dir with
  | nil => cases hfound
  | file hname hnew hrest ih =>
    obtain ⟨names, hne, hdir, hbelow⟩ := ih hfound
    exact ⟨names, hne, (Listing.hasDir_file_iff hnew).2 hdir, hbelow⟩
  | @dir name entries rest hname hnew hentries hrest ihEntries ihRest =>
    have hbeside : OutOfReach leavesOut dir rest path →
        OutOfReach leavesOut dir (.dir name entries rest) path := by
      rintro ⟨names, hne, hdir, hbelow⟩
      cases names with
      | nil => exact absurd rfl hne
      | cons next names =>
        exact ⟨next :: names, hne, (Listing.hasDir_dir_iff hnew).2 (.inr hdir), hbelow⟩
    simp only [outOfReach?] at hfound
    split at hfound
    · exact hbeside (ihRest hfound)
    · next hkept =>
      rw [Bool.not_eq_true] at hkept
      split at hfound
      · next hlong =>
        cases hfound
        exact ⟨[name], List.cons_ne_nil _ _,
          (Listing.hasDir_dir_iff hnew).2 (.inl ⟨rfl, Listing.hasDir_nil _⟩), ⟨hkept, trivial⟩, rfl,
          hlong⟩
      · rcases Option.or_eq_some_iff.1 hfound with hinside | ⟨-, hlater⟩
        · obtain ⟨names, -, hdir, henters, hpath, hlong⟩ := ihEntries hinside
          exact ⟨name :: names, List.cons_ne_nil _ _,
            (Listing.hasDir_dir_iff hnew).2 (.inl ⟨rfl, hdir⟩), ⟨hkept, henters⟩, hpath, hlong⟩
        · exact hbeside (ihRest hlater)

/-- A run on a directory succeeds if its lines can be used and the directories are within reach. -/
theorem exists_run_eq_ok_iff {fs : FileSystem} {target : String} {entries : Listing}
    {options : DiscoveryOptions} (hwell : entries.WellFormed)
    (htarget : fs.locate target = .ok (.dir entries)) :
    (∃ files, run fs target options = .ok files) ↔
      ∃ lines : Selection, selection options = .ok lines ∧
        (isStandardInput target = false →
          WithinReach (fun path => lines.leavesOut (Selection.pathBelow target path)) target
            entries) := by
  simp only [run_eq_ok_iff htarget, outOfReach?_eq_none_iff hwell]
  rw [exists_comm]
  refine exists_congr fun lines => ?_
  rw [exists_and_left]
  refine and_congr_right fun _ => ?_
  cases isStandardInput target <;> simp

/-- Whether a run comes to a directory below its target that it is to enter, but whose path is too
long to be followed. -/
def ComesTo (options : DiscoveryOptions) (target : String) (entries : Listing) (path : String) :
    Prop :=
  ∃ lines : Selection, selection options = .ok lines ∧
    OutOfReach (fun path => lines.leavesOut (Selection.pathBelow target path)) target entries path

theorem run_of_selection_error {fs : FileSystem} {target : String} {entries : Listing}
    {options : DiscoveryOptions} (htarget : fs.locate target = .ok (.dir entries))
    {failure : Failure} (hlines : selection options = .error failure) :
    run fs target options = .error failure := by
  simp only [run, htarget, hlines]
  rfl

/-- Below a target that is spelled like the standard input a run finds nothing, even where there is a
directory of that name. -/
theorem run_of_isStandardInput {fs : FileSystem} {target : String} {entries : Listing}
    {options : DiscoveryOptions} {lines : Selection}
    (htarget : fs.locate target = .ok (.dir entries)) (hlines : selection options = .ok lines)
    (hinput : isStandardInput target = true) : run fs target options = .ok [] := by
  rw [run_eq_ok_iff htarget]
  exact ⟨lines, hlines, by rw [if_pos hinput]⟩

/-- A run fails at the first directory that is out of reach. -/
theorem run_of_outOfReach? {fs : FileSystem} {target path : String} {entries : Listing}
    {options : DiscoveryOptions} {lines : Selection}
    (htarget : fs.locate target = .ok (.dir entries)) (hlines : selection options = .ok lines)
    (hinput : isStandardInput target = false)
    (hfound : outOfReach? (fun path => lines.leavesOut (Selection.pathBelow target path)) target
      entries = some path) :
    run fs target options = .error (.directoryUnreadable path .nameTooLong) := by
  simp only [run, htarget, hlines, hinput, hfound, bind, Except.bind, Bool.false_eq_true, if_false]

/-- What can become of a run on a directory. -/
theorem run_dir_cases {fs : FileSystem} {target : String} {entries : Listing}
    (hwell : entries.WellFormed) (htarget : fs.locate target = .ok (.dir entries))
    (options : DiscoveryOptions) :
    (∃ failure, selection options = .error failure) ∨
      (∃ files, run fs target options = .ok files) ∨
      ∃ path, ComesTo options target entries path ∧
        run fs target options = .error (.directoryUnreadable path .nameTooLong) := by
  cases hlines : selection options with
  | error failure => exact .inl ⟨failure, rfl⟩
  | ok lines =>
    right
    cases hinput : isStandardInput target with
    | true => exact .inl ⟨[], run_of_isStandardInput htarget hlines hinput⟩
    | false =>
      cases hfound : outOfReach? (fun path => lines.leavesOut (Selection.pathBelow target path))
          target entries with
      | none =>
        left
        apply (exists_run_eq_ok_iff hwell htarget).2
        exact ⟨lines, hlines, fun _ => (outOfReach?_eq_none_iff hwell target).1 hfound⟩
      | some path =>
        exact .inr ⟨path, ⟨lines, hlines, outOfReach_of_outOfReach? hwell hfound⟩,
          run_of_outOfReach? htarget hlines hinput hfound⟩

end ClassImports.Discovery
