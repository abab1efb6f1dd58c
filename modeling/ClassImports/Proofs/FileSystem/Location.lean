import Mathlib
import ClassImports.Proofs.FileSystem.Tree

/-!
# Where names below a directory are found

The path to which names lead from another path has the parts of that path, without the empty part
behind a slash at its end, and then the names (`split_pathTo`); its components are those of the path
and the names (`components_pathTo`). So what is found there is what the names lead to from the
directory at the path, as long as the path can be followed at all (`locate_pathTo_eq_ok_iff`), and
nothing else about the file system matters (`locate_pathTo_eq`).

A path of the working directory, however it is spelt, has parts that stay where they are
(`locate_of_stays`).
-/

namespace ClassImports

namespace Path

open Discovery (pathTo pathTo_cons)

/-! ## Parts -/

theorem splitFrom_append_slash (part before after : List Char) :
    splitFrom part (before ++ '/' :: after) = splitFrom part before ++ splitFrom [] after := by
  induction before generalizing part with
  | nil => simp [splitFrom]
  | cons c rest ih =>
    rw [List.cons_append, splitFrom, splitFrom]
    split
    · rw [ih, List.cons_append]
    · exact ih _

theorem splitFrom_of_notMem {text : List Char} (h : '/' ∉ text) (part : List Char) :
    splitFrom part text = [String.ofList (part.reverse ++ text)] := by
  induction text generalizing part with
  | nil => simp [splitFrom]
  | cons c rest ih =>
    rw [List.mem_cons, not_or] at h
    rw [splitFrom, if_neg (Ne.symm h.1), ih h.2]
    simp

theorem splitFrom_ne_nil (part text : List Char) : splitFrom part text ≠ [] := by
  induction text generalizing part with
  | nil => exact List.cons_ne_nil _ _
  | cons c rest ih =>
    unfold splitFrom
    split
    · exact List.cons_ne_nil _ _
    · exact ih _

/-- The parts of a path to which a name can be added: the empty part behind a slash at its end does
not count. -/
def openParts (path : String) : List String :=
  if path.toList.getLast?.all (· == '/') then (split path).dropLast else split path

theorem exists_append_slash {path : List Char} (hne : path ≠ [])
    (hlast : path.getLast?.all (· == '/') = true) : ∃ before, path = before ++ ['/'] := by
  have hslash : path.getLast hne = '/' := by
    rw [List.getLast?_eq_some_getLast hne] at hlast
    simpa using hlast
  exact ⟨path.dropLast, by rw [← hslash, List.dropLast_append_getLast hne]⟩

theorem split_eq_openParts_or (path : String) :
    split path = openParts path ∨ split path = openParts path ++ [""] := by
  unfold openParts
  split
  · next hlast =>
    right
    unfold split
    by_cases hne : path.toList = []
    · rw [hne]
      rfl
    · obtain ⟨before, hbefore⟩ := exists_append_slash hne hlast
      rw [hbefore, splitFrom_append_slash]
      simp [splitFrom]
  · exact .inl rfl

theorem openParts_ne_nil {path : String} (h : path ≠ "") : openParts path ≠ [] := by
  have hne : path.toList ≠ [] := fun hnil => h (String.toList_eq_nil_iff.1 hnil)
  unfold openParts split
  split
  · next hlast =>
    obtain ⟨before, hbefore⟩ := exists_append_slash hne hlast
    rw [hbefore, splitFrom_append_slash]
    simp [splitFrom, splitFrom_ne_nil]
  · exact splitFrom_ne_nil _ _

theorem split_join (path : String) {name : String} (h : IsName name) :
    split (join path name) = openParts path ++ [name] := by
  unfold split openParts
  rw [toList_join]
  unfold openEnd
  split
  · next hlast =>
    by_cases hne : path.toList = []
    · rw [hne, List.nil_append, splitFrom_of_notMem h.slash_notMem]
      unfold split
      simp [hne, splitFrom]
    · obtain ⟨before, hbefore⟩ := exists_append_slash hne hlast
      unfold split
      rw [hbefore, List.append_assoc, List.singleton_append, splitFrom_append_slash,
        splitFrom_append_slash, splitFrom_of_notMem h.slash_notMem]
      simp [splitFrom]
  · rw [List.append_assoc, List.singleton_append, splitFrom_append_slash,
      splitFrom_of_notMem h.slash_notMem]
    simp [split]

/-- A name does not end with a slash, so its path is open for another one as it is. -/
theorem openParts_join (path : String) {name : String} (h : IsName name) :
    openParts (join path name) = openParts path ++ [name] := by
  have hne : name.toList ≠ [] := fun hnil => h.ne_empty (String.toList_eq_nil_iff.1 hnil)
  have hlast : name.toList.getLast hne ≠ '/' := by
    intro hslash
    apply h.slash_notMem
    rw [← hslash]
    exact List.getLast_mem hne
  have hopen : ¬(join path name).toList.getLast?.all (· == '/') = true := by
    rw [toList_join, List.getLast?_append, List.getLast?_eq_some_getLast hne]
    simp [hlast]
  rw [openParts, if_neg hopen, split_join path h]

theorem split_pathTo (path : String) {names : List String} (hne : names ≠ [])
    (hvalid : ∀ name ∈ names, IsName name) :
    split (pathTo path names) = openParts path ++ names := by
  induction names generalizing path with
  | nil => exact absurd rfl hne
  | cons name rest ih =>
    have hname := hvalid name List.mem_cons_self
    rw [pathTo_cons]
    cases rest with
    | nil => exact split_join path hname
    | cons next rest =>
      rw [ih _ (List.cons_ne_nil _ _) fun other h => hvalid other (List.mem_cons_of_mem _ h),
        openParts_join path hname, List.append_assoc, List.singleton_append]

/-! ## Components -/

theorem ne_empty_of_join {path : String} (h : path ≠ "") (name : String) : join path name ≠ "" := by
  intro hempty
  have hchars := congrArg String.toList hempty
  rw [toList_join] at hchars
  apply h
  rcases openEnd_eq_or path.toList with hopen | hopen
  · rw [hopen] at hchars
    exact String.toList_eq_nil_iff.1 (List.append_eq_nil_iff.1 hchars).1
  · rw [hopen] at hchars
    simp at hchars

theorem isAbsolute_join {path : String} (h : path ≠ "") (name : String) :
    isAbsolute (join path name) = isAbsolute path := by
  have hne : path.toList ≠ [] := fun hnil => h (String.toList_eq_nil_iff.1 hnil)
  obtain ⟨c, rest, hpath⟩ := List.exists_cons_of_ne_nil hne
  unfold isAbsolute
  rw [toList_join]
  rcases openEnd_eq_or path.toList with hopen | hopen
  · rw [hopen, hpath]
    rfl
  · rw [hopen, hpath]
    rfl

theorem pathTo_ne_empty {path : String} (h : path ≠ "") (names : List String) :
    pathTo path names ≠ "" := by
  induction names generalizing path with
  | nil => exact h
  | cons name rest ih =>
    rw [pathTo_cons]
    exact ih (ne_empty_of_join h name)

theorem isAbsolute_pathTo {path : String} (h : path ≠ "") (names : List String) :
    isAbsolute (pathTo path names) = isAbsolute path := by
  induction names generalizing path with
  | nil => rfl
  | cons name rest ih =>
    rw [pathTo_cons, ih (ne_empty_of_join h name), isAbsolute_join h name]

theorem component?_of_isEntryName {name : String} (h : IsEntryName name) :
    component? name = some (.name name) := by
  unfold component?
  rw [if_neg (not_or.2 ⟨h.ne_empty, h.ne_current⟩), if_neg h.ne_parent]

theorem filterMap_component?_split (path : String) :
    (split path).filterMap component? = (openParts path).filterMap component? := by
  rcases split_eq_openParts_or path with hsplit | hsplit
  · rw [hsplit]
  · rw [hsplit, List.filterMap_append]
    exact List.append_nil _

theorem components_pathTo {path : String} (h : path ≠ "") {names : List String}
    (hvalid : ∀ name ∈ names, IsEntryName name) :
    components (pathTo path names) = components path ++ names.map .name := by
  by_cases hne : names = []
  · subst hne
    exact (List.append_nil _).symm
  have hnames : names.filterMap component? = names.map .name := by
    rw [← List.filterMap_eq_map]
    exact List.filterMap_congr fun name hname => component?_of_isEntryName (hvalid name hname)
  have hhead : (split (pathTo path names)).head? = (split path).head? := by
    have hopen := openParts_ne_nil h
    rw [split_pathTo path hne fun name hname => (hvalid name hname).toIsName,
      List.head?_append_of_ne_nil _ hopen]
    rcases split_eq_openParts_or path with hsplit | hsplit
    · rw [hsplit]
    · rw [hsplit, List.head?_append_of_ne_nil _ hopen]
  simp only [components, isAbsolute_pathTo h names, hhead]
  rw [filterMap_component?_split path, List.append_assoc,
    split_pathTo path hne fun name hname => (hvalid name hname).toIsName, List.filterMap_append,
    hnames]

end Path

namespace FileSystem

open Discovery (pathTo)

theorem locate_eq_ok_iff {fs : FileSystem} {path : String} {node : Node} :
    fs.locate path = .ok node ↔
      '\x00' ∉ path.toList ∧ path ≠ "" ∧ path.utf8ByteSize ≤ pathLimit ∧
        follow [] (.dir fs.root)
          ((if Path.isAbsolute path then [] else fs.workDir) ++ Path.split path) = .ok node := by
  unfold locate
  by_cases hnul : '\x00' ∈ path.toList
  · simp [hnul]
  by_cases hempty : path = ""
  · simp [hempty]
  by_cases hlong : pathLimit < path.utf8ByteSize
  · simp [hnul, hempty, hlong]
  simp only [hnul, hempty, hlong, if_false, not_false_eq_true, ne_eq, Nat.not_lt.1 hlong, true_and]
  split <;> rfl

/-- A path that leads to a directory leads from related file systems to related directories. -/
theorem locate_dir_of_related {R : Listing → Listing → Prop} (hR : KeptBelow R)
    {fs fs' : FileSystem} (hworkDir : fs'.workDir = fs.workDir) (hroot : R fs.root fs'.root)
    {path : String} {entries : Listing} (h : fs.locate path = .ok (.dir entries)) :
    ∃ entries', fs'.locate path = .ok (.dir entries') ∧ R entries entries' := by
  obtain ⟨hnul, hempty, hlong, hfollow⟩ := locate_eq_ok_iff.1 h
  obtain ⟨entries', hfollow', hrelated⟩ := follow_dir_of_related hR .nil hroot hfollow
  rw [← hworkDir] at hfollow'
  exact ⟨entries', locate_eq_ok_iff.2 ⟨hnul, hempty, hlong, hfollow'⟩, hrelated⟩

/-- An empty part at the end of a path does not matter where the path leads to a directory. -/
theorem follow_openParts {above : List Listing} {node : Node} {start : List String} {path : String}
    {entries : Listing} (h : follow above node (start ++ Path.split path) = .ok (.dir entries)) :
    follow above node (start ++ Path.openParts path) = .ok (.dir entries) := by
  rcases Path.split_eq_openParts_or path with hsplit | hsplit
  · rwa [hsplit] at h
  · rw [hsplit, ← List.append_assoc, follow_append (by simp), Except.bind_eq_ok_iff] at h
    obtain ⟨found, hfound, hlast⟩ := h
    cases found with
    | file content => cases hlast
    | dir inner =>
      cases hlast
      exact hfound

/-- Names below a directory are followed from there, if their path can be followed at all. -/
theorem locate_pathTo {fs : FileSystem} {target : String} {entries : Listing}
    (htarget : fs.locate target = .ok (.dir entries)) {names : List String} (hne : names ≠ [])
    (hvalid : ∀ name ∈ names, Path.IsEntryName name) :
    fs.locate (pathTo target names) =
      if '\x00' ∈ (pathTo target names).toList then .error .invalidName
      else if pathLimit < (pathTo target names).utf8ByteSize then .error .nameTooLong
      else follow [] (.dir entries) names := by
  obtain ⟨-, hempty, -, hfollow⟩ := locate_eq_ok_iff.1 htarget
  have hback : ".." ∉ names := fun hmem => (hvalid _ hmem).ne_parent rfl
  have hnames : follow [] (.dir fs.root)
      ((if Path.isAbsolute target then [] else fs.workDir) ++ (Path.openParts target ++ names)) =
        follow [] (.dir entries) names := by
    rw [← List.append_assoc, follow_append hback, follow_openParts hfollow]
    rfl
  unfold locate
  rw [if_neg (Path.pathTo_ne_empty hempty names), ← hnames]
  simp only [Path.isAbsolute_pathTo hempty names,
    Path.split_pathTo target hne fun name hname => (hvalid name hname).toIsName]
  cases Path.isAbsolute target <;> rfl

/-- **What is found below a directory** at a path that can be followed is what the names lead to
from the directory. -/
theorem locate_pathTo_eq_ok_iff {fs : FileSystem} {target : String} {entries : Listing}
    (htarget : fs.locate target = .ok (.dir entries)) {names : List String} (hne : names ≠ [])
    (hvalid : ∀ name ∈ names, Path.IsEntryName name) {node : Node} :
    fs.locate (pathTo target names) = .ok node ↔
      ('\x00' ∉ (pathTo target names).toList ∧
        (pathTo target names).utf8ByteSize ≤ pathLimit ∧
        ∀ name ∈ names, name.utf8ByteSize ≤ nameLimit) ∧
      (Node.dir entries).at? names = some node := by
  have hfollow : follow [] (.dir entries) names = .ok node ↔ _ := follow_eq_ok_iff hvalid
  rw [locate_pathTo htarget hne hvalid, and_assoc, and_assoc, ← hfollow]
  split
  · next hnul => simp [hnul]
  · next hnul =>
    split
    · next hlong => simp [Nat.not_le.2 hlong]
    · next hshort => simp [hnul, Nat.not_lt.1 hshort]

/-- Where names lead to the same file from two directories, the same is found at their path. -/
theorem locate_pathTo_eq {fs fs' : FileSystem} {target : String} {entries entries' : Listing}
    (htarget : fs.locate target = .ok (.dir entries))
    (htarget' : fs'.locate target = .ok (.dir entries')) {names : List String} (hne : names ≠ [])
    (hvalid : ∀ name ∈ names, Path.IsEntryName name) {node : Node}
    (hat : (Node.dir entries).at? names = some node)
    (hat' : (Node.dir entries').at? names = some node) :
    fs.locate (pathTo target names) = fs'.locate (pathTo target names) := by
  rw [locate_pathTo htarget hne hvalid, locate_pathTo htarget' hne hvalid,
    follow_of_at? hvalid [] hat, follow_of_at? hvalid [] hat']

/-! ## Paths of the working directory -/

/-- Whether all parts of a path are empty or `.`. -/
def Stays (parts : List String) : Prop :=
  ∀ part ∈ parts, part = "" ∨ part = "."

theorem follow_of_stays (above : List Listing) (entries : Listing) {parts : List String}
    (h : Stays parts) : follow above (.dir entries) parts = .ok (.dir entries) := by
  induction parts with
  | nil => rfl
  | cons part parts ih =>
    rw [follow_dir_cons, if_pos (h part List.mem_cons_self)]
    exact ih fun other hother => h other (List.mem_cons_of_mem _ hother)

theorem locate_of_stays (root : Listing) {path : String} (hparts : Stays (Path.split path))
    (hnul : '\x00' ∉ path.toList) (hempty : path ≠ "") (hshort : path.utf8ByteSize ≤ pathLimit) :
    FileSystem.locate ⟨root, []⟩ path = .ok (.dir root) := by
  rw [locate_eq_ok_iff, ite_self, List.nil_append]
  exact ⟨hnul, hempty, hshort, follow_of_stays [] root hparts⟩

/-- A path without names does not stand for the standard input. -/
theorem isStandardInput_of_stays {path : String} (hparts : Stays (Path.split path)) :
    Discovery.isStandardInput path = false := by
  have hnone : (Path.split path).filterMap Path.component? = [] :=
    List.filterMap_eq_nil_iff.2 fun part hpart => if_pos (hparts part hpart)
  unfold Discovery.isStandardInput Path.components
  simp only [hnone, List.append_nil]
  split_ifs <;> rfl

end FileSystem

end ClassImports
