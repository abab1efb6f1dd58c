import Mathlib
import ClassImports.FileSystem.Path

/-!
# The order of paths

Components are ordered by their rank and then by their text, and paths by the lexicographic order of
the lists of these keys (`le_iff`). So the order of paths is transitive and total (`le_trans`,
`le_total`), and paths that come before each other have the same components
(`components_eq_of_le_of_le`).
-/

namespace ClassImports.Path

/-- What a component is ordered by. -/
def Component.key : Component → ℕ ×ₗ String
  | root => toLex (0, "")
  | current => toLex (1, "")
  | parent => toLex (2, "")
  | name text => toLex (3, text)

theorem Component.key_injective : Function.Injective Component.key := by
  intro a b h
  cases a <;> cases b <;> simp_all [Component.key]

theorem Component.lt_iff (a b : Component) : a.lt b = true ↔ a.key < b.key := by
  cases a <;> cases b <;> simp [Component.lt, Component.key, Component.rank, Prod.Lex.toLex_lt_toLex]

/-- What a path is ordered by. -/
def keys (path : String) : List (ℕ ×ₗ String) :=
  (components path).map Component.key

theorem leComponents_iff (as bs : List Component) :
    leComponents as bs = true ↔ ¬ bs.map Component.key < as.map Component.key := by
  induction as generalizing bs with
  | nil => simp [leComponents]
  | cons a as ih =>
    cases bs with
    | nil => simp [leComponents]
    | cons b bs =>
      rw [leComponents, List.map_cons, List.map_cons, List.cons_lt_cons_iff]
      split
      · next h =>
        subst h
        simp [ih]
      · next h =>
        have hkey : b.key ≠ a.key := fun heq => h (Component.key_injective heq.symm)
        rw [Component.lt_iff, not_or, not_lt, not_and, lt_iff_le_and_ne]
        constructor
        · rintro ⟨hle, -⟩
          exact ⟨hle, fun heq => absurd heq hkey⟩
        · rintro ⟨hle, -⟩
          exact ⟨hle, hkey.symm⟩

theorem le_iff (a b : String) : le a b = true ↔ keys a ≤ keys b :=
  (leComponents_iff _ _).trans not_lt

theorem le_trans (a b c : String) (hab : le a b = true) (hbc : le b c = true) :
    le a c = true := by
  rw [le_iff] at hab hbc ⊢
  exact hab.trans hbc

theorem le_total (a b : String) : (le a b || le b a) = true := by
  rw [Bool.or_eq_true, le_iff, le_iff]
  exact LinearOrder.le_total (keys a) (keys b)

/-- The order tells paths apart by their components. -/
theorem components_eq_of_le_of_le {a b : String} (hab : le a b = true) (hba : le b a = true) :
    components a = components b := by
  rw [le_iff] at hab hba
  exact Component.key_injective.list_map (hab.antisymm hba)

end ClassImports.Path
