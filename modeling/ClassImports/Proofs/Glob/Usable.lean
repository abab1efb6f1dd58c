import Mathlib
import ClassImports.Glob.Depth

/-!
# Globs that can be used

Whether globs can be used together is decided one by one (`checkDepth_eq_ok_iff`): each of them must
be decided by its characters alone, or have an expression that is not too deep. The size of what an
expression compiles to is not modelled, so nothing is said of it.
-/

namespace ClassImports.Glob

/-- Whether a glob can be used: it is decided by its characters alone, or its expression is not too
deep. -/
def Usable (glob : Glob) : Prop :=
  glob.form = .plain ∨ glob.depth ≤ depthLimit

instance (glob : Glob) : Decidable glob.Usable :=
  inferInstanceAs (Decidable (glob.form = .plain ∨ glob.depth ≤ depthLimit))

theorem isTooDeep_eq_false_iff {glob : Glob} :
    glob.isTooDeep = false ↔ glob.depth ≤ depthLimit := by
  rw [isTooDeep, decide_eq_false_iff_not, Nat.not_lt]

/-- Globs can be used together exactly if each of them can be used. -/
theorem checkDepth_eq_ok_iff {globs : List Glob} :
    checkDepth globs = .ok () ↔ ∀ glob ∈ globs, glob.Usable := by
  have hform : ∀ form : Form, (∀ glob ∈ globs.filter fun glob => glob.form == form,
      glob.isTooDeep = false) ↔ ∀ glob ∈ globs, glob.form = form → glob.depth ≤ depthLimit := by
    intro form
    simp only [List.mem_filter, beq_iff_eq, and_imp, isTooDeep_eq_false_iff]
  have hparts : checkDepth globs = .ok () ↔
      (∀ glob ∈ globs, glob.form = .ending → glob.depth ≤ depthLimit) ∧
        ∀ glob ∈ globs, glob.form = .general → glob.depth ≤ depthLimit := by
    rw [← hform, ← hform]
    unfold checkDepth
    cases hending : (globs.filter fun glob => glob.form == .ending).find? isTooDeep with
    | some glob =>
      have hdeep := List.find?_some hending
      have hmem := List.mem_of_find?_eq_some hending
      refine iff_of_false (fun h => by cases h) (fun h => ?_)
      rw [h.1 glob hmem] at hdeep
      cases hdeep
    | none =>
      rw [List.find?_eq_none] at hending
      simp only [Bool.not_eq_true] at hending
      rw [and_iff_right hending]
      cases hgeneral : (globs.filter fun glob => glob.form == .general).findIdx? isTooDeep with
      | none => exact iff_of_true rfl (List.findIdx?_eq_none_iff.1 hgeneral)
      | some place =>
        refine iff_of_false (fun h => by cases h) (fun h => ?_)
        rw [List.findIdx?_eq_none_iff.2 h] at hgeneral
        cases hgeneral
  rw [hparts, ← forall₂_and]
  refine forall₂_congr fun glob _ => ?_
  unfold Usable
  cases glob.form <;> simp

end ClassImports.Glob
