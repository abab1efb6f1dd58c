import Mathlib
import ClassImports.Import.Set

/-!
# Import sets keep first occurrences

* `Valid set`: the two ways in which a set keeps its names agree, and it has no name twice. The
  empty set is valid, and putting names in keeps a set valid (`Valid.insert`, `Valid.insertAll`).
* `Valid.toList_insertAll`: what a valid set lists after names are put in are its own names and then
  those of the given ones that it did not have, without repetitions. The set of a list therefore has
  the list's names in the order of their first occurrences (`toList_ofList`).
-/

namespace ClassImports.ImportSet

/-- The names for look-up are those that are listed, and none is listed twice. -/
structure Valid (set : ImportSet) : Prop where
  contains_iff : ∀ name, set.contains name = true ↔ name ∈ set.toList
  nodup : set.toList.Nodup

theorem valid_empty : empty.Valid :=
  ⟨by simp [empty, contains, toList], by simp [empty, toList]⟩

/-! ## One name -/

theorem insert_of_contains {set : ImportSet} {name : String} (h : set.contains name = true) :
    set.insert name = set := by
  rw [insert, insertNew, if_pos h]

theorem toList_insert_of_not_contains {set : ImportSet} {name : String}
    (h : ¬set.contains name = true) : (set.insert name).toList = set.toList ++ [name] := by
  rw [insert, insertNew, if_neg h]
  exact Array.toList_push

theorem contains_insert (set : ImportSet) (name other : String) :
    (set.insert name).contains other = true ↔ name = other ∨ set.contains other = true := by
  by_cases h : set.contains name = true
  · rw [insert_of_contains h]
    exact ⟨.inr, fun hother => hother.elim (fun heq => heq ▸ h) id⟩
  · rw [insert, insertNew, if_neg h]
    simp [contains]

theorem Valid.insert {set : ImportSet} (h : set.Valid) (name : String) :
    (set.insert name).Valid := by
  by_cases hold : set.contains name = true
  · rwa [insert_of_contains hold]
  · have hnew : name ∉ set.toList := fun hmem => hold ((h.contains_iff name).2 hmem)
    constructor
    · intro other
      rw [contains_insert, toList_insert_of_not_contains hold, List.mem_append,
        List.mem_singleton, h.contains_iff, or_comm, eq_comm]
    · rw [toList_insert_of_not_contains hold, ← List.concat_eq_append]
      exact h.nodup.concat hnew

/-! ## Many names -/

theorem insertAll_append (set : ImportSet) (names others : List String) :
    set.insertAll (names ++ others) = (set.insertAll names).insertAll others :=
  List.foldl_append

theorem Valid.insertAll {set : ImportSet} (h : set.Valid) (names : List String) :
    (set.insertAll names).Valid := by
  induction names generalizing set with
  | nil => exact h
  | cons name rest ih => exact ih (h.insert name)

/-- Names that a set has already are passed over, and so are repetitions. -/
theorem Valid.toList_insertAll {set : ImportSet} (h : set.Valid) (names : List String) :
    (set.insertAll names).toList = set.toList ++ (names.removeAll set.toList).eraseDups := by
  induction names generalizing set with
  | nil => simp [ImportSet.insertAll, List.removeAll]
  | cons name rest ih =>
    show ((set.insert name).insertAll rest).toList = _
    rw [ih (h.insert name)]
    by_cases hold : set.contains name = true
    · have hmem : name ∈ set.toList := (h.contains_iff name).1 hold
      rw [insert_of_contains hold, List.removeAll, List.removeAll, List.filter_cons_of_neg]
      simpa using hmem
    · have hmem : name ∉ set.toList := fun hmem => hold ((h.contains_iff name).2 hmem)
      have hrest : rest.removeAll (set.toList ++ [name]) =
          (rest.removeAll set.toList).filter fun other => !other == name := by
        rw [List.removeAll, List.removeAll, List.filter_filter]
        refine List.filter_congr fun other _ => ?_
        simp [Bool.and_comm, Bool.beq_eq_decide_eq]
      have hfirst : (name :: rest).removeAll set.toList = name :: rest.removeAll set.toList := by
        rw [List.removeAll, List.filter_cons_of_pos (by simpa using hmem), List.removeAll]
      rw [toList_insert_of_not_contains hold, hrest, hfirst, List.eraseDups_cons,
        List.append_assoc, List.singleton_append]

theorem eraseDups_of_nodup {names : List String} (h : names.Nodup) : names.eraseDups = names := by
  induction names with
  | nil => rfl
  | cons name names ih =>
    obtain ⟨hname, hnames⟩ := List.nodup_cons.1 h
    have hrest : (names.filter fun other => !other == name) = names := by
      rw [List.filter_eq_self]
      intro other hother
      rw [Bool.not_eq_true', beq_eq_false_iff_ne]
      exact fun hsame => hname (hsame ▸ hother)
    rw [List.eraseDups_cons, hrest, ih hnames]

/-- Of the names of another set, those are put in that are new. -/
theorem Valid.toList_insertAll_toList {set other : ImportSet} (h : set.Valid)
    (hother : other.Valid) :
    (set.insertAll other.toList).toList = set.toList ++ other.toList.filter (· ∉ set.toList) := by
  have hremoved : other.toList.removeAll set.toList = other.toList.filter (· ∉ set.toList) := by
    refine List.filter_congr fun name _ => ?_
    simp
  rw [h.toList_insertAll, hremoved, eraseDups_of_nodup (hother.nodup.filter _)]

/-- Names that a set has already do not change it. -/
theorem insertAll_filter_of_contains {set : ImportSet} {name : String}
    (h : set.contains name = true) (names : List String) :
    set.insertAll (names.filter fun other => !other == name) = set.insertAll names := by
  induction names generalizing set with
  | nil => rfl
  | cons other names ih =>
    show _ = (set.insert other).insertAll names
    by_cases hsame : other = name
    · subst hsame
      rw [List.filter_cons_of_neg (by simp), insert_of_contains h]
      exact ih h
    · rw [List.filter_cons_of_pos (by simpa using hsame)]
      exact ih ((contains_insert set other name).2 (.inr h))

/-- Repetitions do not change what is put in. -/
theorem insertAll_eraseDups (set : ImportSet) (names : List String) :
    set.insertAll names.eraseDups = set.insertAll names := by
  induction hlength : names.length using Nat.strong_induction_on generalizing set names with
  | _ length ih =>
    cases names with
    | nil => rfl
    | cons name names =>
      have hshorter : (names.filter fun other => !other == name).length < length := by
        rw [← hlength, List.length_cons]
        exact Nat.lt_succ_of_le (List.length_filter_le _ names)
      rw [List.eraseDups_cons]
      show (set.insert name).insertAll _ = (set.insert name).insertAll names
      rw [ih _ hshorter _ _ rfl]
      exact insertAll_filter_of_contains ((contains_insert set name name).2 (.inl rfl)) names

/-- The set of a list has its names in the order of their first occurrences. -/
theorem toList_ofList (names : List String) : (ofList names).toList = names.eraseDups := by
  rw [ofList, valid_empty.toList_insertAll]
  simp [empty, toList, List.removeAll]

end ClassImports.ImportSet
