import Mathlib
import ClassImports.Proofs.Discovery.Run

/-!
# A target whose path is nearly too long

A target may be spelt so long that its files are found, but that the name of a directory makes its
path too long to be followed. Then whether a run succeeds depends on whether its lines leave this
directory out (`run_far_of_leavesOut`, `run_far_of_kept`).
-/

namespace ClassImports

namespace Path

/-- The working directory, with that many slashes behind it. -/
def slashed (slashes : Nat) : String :=
  String.ofList ('.' :: List.replicate slashes '/')

theorem toList_slashed (slashes : Nat) :
    (slashed slashes).toList = '.' :: List.replicate slashes '/' :=
  String.toList_ofList

theorem utf8ByteSize_slashed (slashes : Nat) : (slashed slashes).utf8ByteSize = slashes + 1 := by
  have hlen : String.utf8Len (List.replicate slashes '/') = slashes := by
    induction slashes with
    | zero => rfl
    | succ slashes ih => rw [List.replicate_succ, String.utf8Len_cons, ih]; rfl
  rw [slashed, String.utf8ByteSize_ofList, String.utf8Len_cons, hlen]
  rfl

theorem splitFrom_replicate_slash (part : List Char) (slashes : Nat) :
    splitFrom part (List.replicate slashes '/') =
      String.ofList part.reverse :: List.replicate slashes "" := by
  induction slashes generalizing part with
  | zero => rfl
  | succ slashes ih =>
    rw [List.replicate_succ, splitFrom, if_pos rfl, ih]
    rfl

theorem stays_slashed (slashes : Nat) : FileSystem.Stays (split (slashed slashes)) := by
  intro part hpart
  rw [split, toList_slashed, splitFrom, if_neg (by decide), splitFrom_replicate_slash,
    List.mem_cons] at hpart
  rcases hpart with rfl | hpart
  · exact .inr rfl
  · exact .inl (List.eq_of_mem_replicate hpart)

theorem join_slashed {slashes : Nat} (hpos : 0 < slashes) (name : String) :
    join (slashed slashes) name = slashed slashes ++ name := by
  obtain ⟨fewer, rfl⟩ := Nat.exists_eq_succ_of_ne_zero hpos.ne'
  have hopen : openEnd (slashed (fewer + 1)).toList = (slashed (fewer + 1)).toList := by
    rw [toList_slashed, List.replicate_succ', ← List.cons_append, openEnd, if_pos]
    rw [List.getLast?_concat]
    rfl
  rw [← String.toList_inj, toList_join, String.toList_append, hopen]

/-- The lines of a selection see the names below such a target. -/
theorem not_here_slashed (slashes : Nat) :
    ¬['.', '/', '.', '/'] <+: (slashed slashes).toList := by
  rintro ⟨rest, hrest⟩
  rw [toList_slashed] at hrest
  have hmem : '.' ∈ List.replicate slashes '/' := by
    rw [← (List.cons_eq_cons.1 hrest).2]
    exact List.mem_cons_of_mem _ List.mem_cons_self
  exact absurd (List.eq_of_mem_replicate hmem) (by decide)

end Path

namespace FileSystem

theorem locate_slashed (root : Listing) {slashes : Nat} (hshort : slashes < pathLimit) :
    FileSystem.locate ⟨root, []⟩ (Path.slashed slashes) = .ok (.dir root) := by
  apply locate_of_stays root (Path.stays_slashed slashes)
  · rw [Path.toList_slashed]
    intro hnul
    rcases List.mem_cons.1 hnul with h | h
    · exact absurd h (by decide)
    · exact absurd (List.eq_of_mem_replicate h) (by decide)
  · intro hempty
    have hchars := congrArg String.toList hempty
    rw [Path.toList_slashed] at hchars
    cases hchars
  · rw [Path.utf8ByteSize_slashed]
    exact hshort

end FileSystem

namespace Discovery

/-! ## A directory that is too far -/

/-- A class file, and beside it an empty directory with a longer name. -/
def farTree : Listing :=
  .file "A.class" [] (.dir "build-intermediates" .nil .nil)

/-- Whether the path of the class file can be followed behind so many slashes, and that of the
directory not. -/
structure IsNearlyTooLong (slashes : Nat) : Prop where
  short : slashes + 8 ≤ FileSystem.pathLimit
  long : FileSystem.pathLimit < slashes + 20

variable {slashes : Nat}

theorem IsNearlyTooLong.pos (h : IsNearlyTooLong slashes) : 0 < slashes := by
  have hlong := h.long
  rw [FileSystem.pathLimit] at hlong
  omega

theorem wellFormed_farTree : farTree.WellFormed :=
  .file (by decide) (by decide) (.dir (by decide) rfl .nil .nil)

theorem locate_far (h : IsNearlyTooLong slashes) :
    FileSystem.locate ⟨farTree, []⟩ (Path.slashed slashes) = .ok (.dir farTree) := by
  have hshort := h.short
  exact FileSystem.locate_slashed farTree (by omega)

theorem pathLimit_lt_far (h : IsNearlyTooLong slashes) :
    FileSystem.pathLimit < (Path.slashed slashes ++ "build-intermediates").utf8ByteSize := by
  rw [String.utf8ByteSize_append, Path.utf8ByteSize_slashed]
  exact h.long

theorem pathBelow_slashed (h : IsNearlyTooLong slashes) {name : String} (hname : Path.IsName name) :
    Selection.pathBelow (Path.slashed slashes) (Path.slashed slashes ++ name) = name := by
  have hbelow := pathBelow_pathTo (Path.not_here_slashed slashes) (List.cons_ne_nil name [])
    (List.forall_mem_singleton.2 hname)
  rwa [pathTo_singleton, String.intercalate_singleton, Path.join_slashed h.pos] at hbelow

theorem isName_farDir : Path.IsName "build-intermediates" :=
  ⟨by decide, by decide, by decide⟩

theorem isEntryName_farFile : Path.IsEntryName "A.class" := by
  decide

variable {options : DiscoveryOptions} {lines : Selection}

/-- A run fails if its lines keep the directory. -/
theorem run_far_of_kept (h : IsNearlyTooLong slashes) (hlines : selection options = .ok lines)
    (hkept : lines.leavesOut "build-intermediates" true = false) :
    run ⟨farTree, []⟩ (Path.slashed slashes) options =
      .error (.directoryUnreadable (Path.slashed slashes ++ "build-intermediates") .nameTooLong) := by
  have hdir := pathBelow_slashed h isName_farDir
  have hreach : outOfReach?
      (fun path => lines.leavesOut (Selection.pathBelow (Path.slashed slashes) path))
      (Path.slashed slashes) farTree = some (Path.slashed slashes ++ "build-intermediates") := by
    simp only [farTree, outOfReach?, Path.join_slashed h.pos, hdir, hkept, pathLimit_lt_far h,
      if_true, Bool.false_eq_true, if_false]
  have hinput := FileSystem.isStandardInput_of_stays (Path.stays_slashed slashes)
  exact run_of_outOfReach? (locate_far h) hlines hinput hreach

/-- A run gives the class file if its lines leave out the directory, but not the file. -/
theorem run_far_of_leavesOut (h : IsNearlyTooLong slashes) (hlines : selection options = .ok lines)
    (hleft : lines.leavesOut "build-intermediates" true = true)
    (hkept : lines.leavesOut "A.class" false = false) :
    run ⟨farTree, []⟩ (Path.slashed slashes) options = .ok [Path.slashed slashes ++ "A.class"] := by
  have hjoin := Path.join_slashed h.pos
  have hdir := pathBelow_slashed h isName_farDir
  have hfile := pathBelow_slashed h isEntryName_farFile.toIsName
  have hclass : isClassFile (Path.slashed slashes ++ "A.class") = true := by
    rw [← hjoin, ← pathTo_singleton, isClassFile_pathTo_iff (ne_empty_of_locate (locate_far h))
      (List.cons_ne_nil _ _) (List.forall_mem_singleton.2 isEntryName_farFile)]
    decide
  have hinput := FileSystem.isStandardInput_of_stays (Path.stays_slashed slashes)
  refine run_eq_ok_of_sorted (locate_far h) hlines hinput ?_ ?_ (List.pairwise_singleton _ _)
  · simp only [farTree, outOfReach?, hjoin, hdir, hleft, if_true]
  · simp only [farTree, filesBelow, hjoin, hdir, hfile, hleft, hkept, hclass, Bool.not_false,
      Bool.and_self, if_true]

end Discovery

end ClassImports
