import Mathlib
import ClassImports.Proofs.Text.Order
import ClassImports.Summary

/-!
# Packages in ascending order

A list in ascending order has the texts that were given, each once, in the order of their octets
(`mem_ascending`, `pairwise_ascending`), and nothing but these tells it (`ascending_eq`). So the
packages of names are told by the packages that they have (`mem_packagesOf`), and those of two lists
of names are the union of both (`packagesOf_append`).
-/

namespace ClassImports.Summary

/-! ## Ascending lists -/

theorem mem_eraseReps_loop {text first : String} {texts before : List String} :
    text ∈ List.eraseRepsBy.loop (· == ·) first texts before ↔
      text ∈ before ∨ text = first ∨ text ∈ texts := by
  induction texts generalizing first before with
  | nil =>
    rw [List.eraseRepsBy.loop, List.mem_reverse, List.mem_cons]
    simp [or_comm]
  | cons next texts ih =>
    rw [List.eraseRepsBy.loop]
    split
    · next hsame =>
      rw [ih, List.mem_cons, eq_of_beq hsame]
      tauto
    · rw [ih, List.mem_cons, List.mem_cons]
      tauto

theorem pairwise_eraseReps_loop {first : String} {texts before : List String}
    (hbefore : (first :: before).Pairwise (· > ·)) (htexts : (first :: texts).Pairwise (· ≤ ·)) :
    (List.eraseRepsBy.loop (· == ·) first texts before).Pairwise (· < ·) := by
  induction texts generalizing first before with
  | nil =>
    rw [List.eraseRepsBy.loop, List.pairwise_reverse]
    exact hbefore
  | cons next texts ih =>
    obtain ⟨hfirst, hrest⟩ := List.pairwise_cons.1 htexts
    rw [List.eraseRepsBy.loop]
    split
    · exact ih hbefore (htexts.sublist ((List.sublist_cons_self next texts).cons_cons first))
    · next hother =>
      have hlt : first < next :=
        lt_of_le_of_ne (hfirst next List.mem_cons_self) (by simpa using hother)
      refine ih (List.pairwise_cons.2 ⟨fun text htext => ?_, hbefore⟩) hrest
      rcases List.mem_cons.1 htext with rfl | hlater
      · exact hlt
      · exact ((List.pairwise_cons.1 hbefore).1 text hlater).trans hlt

theorem mem_eraseReps {text : String} {texts : List String} :
    text ∈ texts.eraseReps ↔ text ∈ texts := by
  cases texts with
  | nil => rfl
  | cons first rest =>
    show text ∈ List.eraseRepsBy.loop (· == ·) first rest [] ↔ _
    rw [mem_eraseReps_loop, List.mem_cons]
    simp

theorem pairwise_eraseReps {texts : List String} (h : texts.Pairwise (· ≤ ·)) :
    texts.eraseReps.Pairwise (· < ·) := by
  cases texts with
  | nil => exact .nil
  | cons first rest => exact pairwise_eraseReps_loop (List.pairwise_singleton _ _) h

theorem mem_ascending {text : String} {texts : List String} :
    text ∈ ascending texts ↔ text ∈ texts := by
  rw [ascending, mem_eraseReps, List.mem_mergeSort]

theorem pairwise_ascending (texts : List String) : (ascending texts).Pairwise (· < ·) := by
  have htrans : ∀ a b c : String, decide (a ≤ b) = true → decide (b ≤ c) = true →
      decide (a ≤ c) = true := by
    simp only [decide_eq_true_eq]
    exact fun a b c => le_trans
  have htotal : ∀ a b : String, (decide (a ≤ b) || decide (b ≤ a)) = true := by
    simp only [Bool.or_eq_true, decide_eq_true_eq]
    exact le_total
  have hsorted := List.pairwise_mergeSort htrans htotal texts
  simp only [decide_eq_true_eq] at hsorted
  exact pairwise_eraseReps hsorted

/-- An ascending list is told by its members. -/
theorem ascending_eq {texts others : List String} (h : ∀ text, text ∈ texts ↔ text ∈ others) :
    ascending texts = ascending others := by
  apply (pairwise_ascending texts).eq_of_mem_iff (pairwise_ascending others)
  intro text
  rw [mem_ascending, mem_ascending, h]

/-! ## Packages -/

/-- The packages of names are those that are not empty. -/
theorem mem_packagesOf {package : String} {names : List String} :
    package ∈ packagesOf names ↔ package ≠ "" ∧ ∃ name ∈ names, packageOf name = package := by
  rw [packagesOf, mem_ascending, List.mem_filter, List.mem_map, and_comm]
  simp

theorem packagesOf_eq {names others : List String} (h : ∀ name, name ∈ names ↔ name ∈ others) :
    packagesOf names = packagesOf others := by
  apply ascending_eq
  intro package
  simp only [List.mem_filter, List.mem_map, h]

/-- Whether a list has the texts of two others, each once and in the order of their octets. -/
structure IsUnion (texts others union : List String) : Prop where
  ascending : union.Pairwise fun a b => Utf8.encode a.toList < Utf8.encode b.toList
  mem_iff : ∀ text, text ∈ union ↔ text ∈ texts ∨ text ∈ others

theorem isUnion_ascending_append (texts others : List String) :
    IsUnion texts others (Summary.ascending (texts ++ others)) where
  ascending := by
    refine (pairwise_ascending _).imp fun h => ?_
    rw [Utf8.encode_lt_encode_iff, ← String.lt_iff_toList_lt]
    exact h
  mem_iff text := by rw [mem_ascending, List.mem_append]

theorem packagesOf_append {names others both : List String}
    (h : ∀ name, name ∈ both ↔ name ∈ names ∨ name ∈ others) :
    packagesOf both = Summary.ascending (packagesOf names ++ packagesOf others) := by
  apply ascending_eq
  intro package
  rw [List.mem_append, mem_packagesOf, mem_packagesOf, ← and_or_left, ← mem_ascending, ← packagesOf,
    mem_packagesOf]
  simp only [h, or_and_right, exists_or]

end ClassImports.Summary
