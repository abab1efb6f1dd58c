import Mathlib
import ClassImports.Proofs.FileSystem.Order

/-!
# Sorting by paths

Items that have paths are sorted stably: those whose paths have the same components keep their order
(`isStableSort_mergeSort`). There is only one such order (`IsStableSort.unique`). Where no two paths
have the same components, it does not matter in which order the items come
(`mergeSort_eq_of_perm`).
-/

namespace ClassImports.Path

variable {α : Type} {path : α → String} {items others sorted : List α}

theorem components_eq_iff {a b : String} :
    components a = components b ↔ le a b = true ∧ le b a = true := by
  refine ⟨fun h => ?_, fun h => components_eq_of_le_of_le h.1 h.2⟩
  rw [le_iff, le_iff, keys, keys, h]
  exact ⟨le_rfl, le_rfl⟩

theorem pairwise_mergeSort (path : α → String) (items : List α) :
    (items.mergeSort fun a b => le (path a) (path b)).Pairwise
      fun a b => le (path a) (path b) = true :=
  List.pairwise_mergeSort (fun a b c => le_trans (path a) (path b) (path c))
    (fun a b => le_total (path a) (path b)) items

/-- The items whose paths have the given components. -/
def withComponents (path : α → String) (components : List Component) (items : List α) : List α :=
  items.filter fun item => Path.components (path item) = components

theorem withComponents_cons (path : α → String) (components : List Component) (item : α)
    (items : List α) :
    withComponents path components (item :: items) =
      if Path.components (path item) = components then item :: withComponents path components items
      else withComponents path components items := by
  unfold withComponents
  rw [List.filter_cons]
  simp only [decide_eq_true_eq]

/-- Lists with the same items of any components have the same items. -/
theorem mem_iff_of_withComponents_eq
    (h : ∀ components, withComponents path components items = withComponents path components others)
    (item : α) : item ∈ items ↔ item ∈ others := by
  have hitem := congrArg (item ∈ ·) (h (components (path item)))
  simpa [withComponents] using hitem

/-- Whether a list has the items of another one in the order of their paths, those with the same
components in the order in which they were. -/
structure IsStableSort (path : α → String) (items sorted : List α) : Prop where
  perm : sorted.Perm items
  ordered : sorted.Pairwise fun a b => le (path a) (path b) = true
  stable : ∀ components,
    withComponents path components sorted = withComponents path components items

theorem isStableSort_mergeSort (path : α → String) (items : List α) :
    IsStableSort path items (items.mergeSort fun a b => le (path a) (path b)) where
  perm := List.mergeSort_perm _ _
  ordered := pairwise_mergeSort path items
  stable components := by
    -- items with the same components are in order as they come, so sorting keeps them so
    have hordered : (withComponents path components items).Pairwise
        fun a b => le (path a) (path b) = true := by
      apply List.pairwise_of_forall_mem_list
      intro a ha b hb
      have hsame := (of_decide_eq_true (List.mem_filter.1 ha).2).trans
        (of_decide_eq_true (List.mem_filter.1 hb).2).symm
      exact (components_eq_iff.1 hsame).1
    have hkept := List.sublist_mergeSort (fun a b c => le_trans (path a) (path b) (path c))
      (fun a b => le_total (path a) (path b)) hordered List.filter_sublist
    have hfiltered := hkept.filter fun item => Path.components (path item) = components
    rw [withComponents, List.filter_filter] at hfiltered
    simp only [Bool.and_self] at hfiltered
    exact (hfiltered.eq_of_length ((List.mergeSort_perm _ _).filter _).length_eq.symm).symm

/-- Lists in order with the same items of any components are the same. -/
theorem eq_of_withComponents_eq (h : items.Pairwise fun a b => le (path a) (path b) = true)
    (hothers : others.Pairwise fun a b => le (path a) (path b) = true)
    (hsame : ∀ components,
      withComponents path components items = withComponents path components others) :
    items = others := by
  have hmem := mem_iff_of_withComponents_eq hsame
  induction items generalizing others with
  | nil =>
    symm
    exact List.eq_nil_iff_forall_not_mem.2 fun item => (hmem item).not.1 List.not_mem_nil
  | cons first items ih =>
    cases others with
    | nil => exact absurd ((hmem first).1 List.mem_cons_self) List.not_mem_nil
    | cons other others =>
      rw [List.pairwise_cons] at h hothers
      -- each of the first items comes before the other one, so their components are the same
      have hfirst : components (path other) = components (path first) := by
        rcases List.mem_cons.1 ((hmem other).2 List.mem_cons_self) with rfl | hlater
        · rfl
        rcases List.mem_cons.1 ((hmem first).1 List.mem_cons_self) with rfl | hlater'
        · rfl
        exact components_eq_of_le_of_le (hothers.1 first hlater') (h.1 other hlater)
      have hheads := hsame (components (path first))
      rw [withComponents_cons, withComponents_cons, if_pos rfl, if_pos hfirst] at hheads
      obtain rfl := (List.cons_eq_cons.1 hheads).1
      have htails : ∀ components,
          withComponents path components items = withComponents path components others := by
        intro components
        have hlists := hsame components
        rw [withComponents_cons, withComponents_cons] at hlists
        split at hlists
        · exact (List.cons_eq_cons.1 hlists).2
        · exact hlists
      rw [ih h.2 hothers.2 htails (mem_iff_of_withComponents_eq htails)]

/-- There is one stable order only. -/
theorem IsStableSort.unique {sorted' : List α} (h : IsStableSort path items sorted)
    (h' : IsStableSort path items sorted') : sorted = sorted' :=
  eq_of_withComponents_eq h.ordered h'.ordered fun components =>
    (h.stable components).trans (h'.stable components).symm

/-- Where no two paths have the same components, the order in which items come does not matter. -/
theorem mergeSort_eq_of_perm (hperm : items.Perm others)
    (hapart : (items.map fun item => components (path item)).Nodup) :
    (items.mergeSort fun a b => le (path a) (path b)) =
      others.mergeSort fun a b => le (path a) (path b) := by
  have hsorted := (List.mergeSort_perm items fun a b => le (path a) (path b)).trans
    (hperm.trans (List.mergeSort_perm others fun a b => le (path a) (path b)).symm)
  refine hsorted.eq_of_pairwise (fun a b ha hb hab hba => ?_) (pairwise_mergeSort path items)
    (pairwise_mergeSort path others)
  refine List.inj_on_of_nodup_map hapart (List.mem_mergeSort.1 ha) ?_
    (components_eq_of_le_of_le hab hba)
  exact hperm.mem_iff.2 (List.mem_mergeSort.1 hb)

end ClassImports.Path
