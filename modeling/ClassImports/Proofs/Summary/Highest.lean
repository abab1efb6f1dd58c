import Mathlib
import ClassImports.Summary

/-!
# The highest version

Versions are ordered by their major number and then by their minor number (`Version.le_iff`), and
tell these apart (`Version.rank_injective`). The highest version of a list is the maximum in this
order, no version counting as lowest (`rank?_highest?`). So that of two lists is the higher one of
both (`rank?_highest?_append`), and the order of a list does not matter (`highest?_eq_of_perm`).
-/

namespace ClassImports

namespace Version

/-- What a version is ordered by. -/
def rank (version : Version) : ℕ ×ₗ ℕ :=
  toLex (version.major.toNat, version.minor.toNat)

theorem rank_injective : Function.Injective rank := by
  intro a b h
  have hnumbers := toLex.injective h
  rw [Prod.mk.injEq] at hnumbers
  obtain ⟨hmajor, hminor⟩ := hnumbers
  cases a
  cases b
  rw [Version.mk.injEq, ← UInt16.toNat_inj, ← UInt16.toNat_inj]
  exact ⟨hmajor, hminor⟩

theorem le_iff (a b : Version) : a.le b = true ↔ a.rank ≤ b.rank := by
  unfold le rank
  rw [Prod.Lex.toLex_le_toLex, Bool.or_eq_true, Bool.and_eq_true, decide_eq_true_eq, beq_iff_eq,
    decide_eq_true_eq, UInt16.lt_iff_toNat_lt, UInt16.le_iff_toNat_le, ← UInt16.toNat_inj]

theorem rank_later (a b : Version) : (a.later b).rank = max a.rank b.rank := by
  unfold later
  split
  · next h => rw [max_eq_right ((le_iff a b).1 h)]
  · next h => rw [max_eq_left (le_of_not_ge fun hle => h ((le_iff a b).2 hle))]

end Version

namespace Summary

/-- What a version is ordered by, if there is one. -/
def rank? : Option Version → WithBot (ℕ ×ₗ ℕ)
  | none => ⊥
  | some version => version.rank

theorem rank?_injective : Function.Injective rank? := by
  intro a b h
  cases a with
  | none =>
    cases b with
    | none => rfl
    | some b => cases h
  | some a =>
    cases b with
    | none => cases h
    | some b => rw [Version.rank_injective (WithBot.coe_injective h)]

theorem rank?_foldl (best : Option Version) (versions : List Version) :
    rank? (versions.foldl (fun best version => some (best.elim version (·.later version))) best) =
      max (rank? best) (versions.map Version.rank).maximum := by
  induction versions generalizing best with
  | nil => simp
  | cons version versions ih =>
    rw [List.foldl_cons, ih, List.map_cons, List.maximum_cons, ← max_assoc]
    congr 1
    cases best with
    | none => exact (max_eq_right bot_le).symm
    | some best =>
      show ((best.later version).rank : WithBot (ℕ ×ₗ ℕ)) = max (best.rank : WithBot (ℕ ×ₗ ℕ)) _
      rw [Version.rank_later, WithBot.coe_max]

/-- The highest version is the maximum. -/
theorem rank?_highest? (versions : List Version) :
    rank? (highest? versions) = (versions.map Version.rank).maximum := by
  rw [highest?, rank?_foldl]
  exact max_eq_right bot_le

/-- The highest version of two lists is the higher one of both. -/
theorem rank?_highest?_append (versions others : List Version) :
    rank? (highest? (versions ++ others)) =
      max (rank? (highest? versions)) (rank? (highest? others)) := by
  rw [rank?_highest?, rank?_highest?, rank?_highest?, List.map_append,
    List.maximum_append]

theorem rank?_highest?_toList (version : Option Version) :
    rank? (highest? version.toList) = rank? version := by
  cases version <;> rfl

theorem highest?_append (versions others : List Version) :
    highest? (versions ++ others) =
      highest? ((highest? versions).toList ++ (highest? others).toList) := by
  apply rank?_injective
  rw [rank?_highest?_append, rank?_highest?_append, rank?_highest?_toList, rank?_highest?_toList]

theorem highest?_eq_of_perm {versions others : List Version} (h : versions.Perm others) :
    highest? versions = highest? others := by
  apply rank?_injective
  rw [rank?_highest?, rank?_highest?, (h.map Version.rank).maximum_eq]

end Summary

end ClassImports
