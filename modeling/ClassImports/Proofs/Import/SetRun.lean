import Mathlib
import ClassImports.Proofs.Import.Set

/-!
# Runs of operations on import sets

Whatever has been done to a set that was empty at first, its two ways of keeping names agree, and
it lists the names that were given since it was last replaced or emptied, each where it was given
first (`run_lists_first_occurrences`). `Represents set names` is what one operation preserves
(`Represents.apply`), and a whole run therefore too (`represents_run`).
-/

namespace ClassImports.ImportSet

/-- Something that can be done to a set. -/
inductive Operation where
  | add (name : String)
  | extend (names : List String)
  /-- Puts the set of a list in the place of the set. -/
  | replace (names : List String)
  | clear
  deriving DecidableEq, Repr

namespace Operation

/-- The set after an operation. -/
def apply (set : ImportSet) : Operation → ImportSet
  | add name => (set.insertNew name).2
  | extend names => set.insertAll names
  | replace names => ofList names
  | clear => empty

/-- The names given since the set was last replaced or emptied, after an operation; before it, those
were `names`. -/
def record (names : List String) : Operation → List String
  | add name => names ++ [name]
  | extend more => names ++ more
  | replace others => others
  | clear => []

end Operation

/-- The set after some operations, one after the other, on the empty set. -/
def run (operations : List Operation) : ImportSet :=
  operations.foldl Operation.apply empty

/-- The names that some operations have given to the set since it was last replaced or emptied. -/
def given (operations : List Operation) : List String :=
  operations.foldl Operation.record []

/-! ## Valid sets -/

theorem insertNew_fst (set : ImportSet) (name : String) :
    (set.insertNew name).1 = !set.contains name := by
  unfold insertNew
  split
  · next h => simp [h]
  · next h => simp [h]

namespace Valid

variable {set other : ImportSet}

theorem size_seen (h : set.Valid) : set.seen.size = set.order.size := by
  have hseen : set.seen.toList.Nodup := by
    apply set.seen.distinct_toList.imp
    intro a b hab
    simpa using hab
  have hperm : set.seen.toList.Perm set.toList := by
    apply (List.perm_ext_iff_of_nodup hseen h.nodup).2
    intro name
    rw [Std.HashSet.mem_toList, ← h.contains_iff name]
    rfl
  have hlength := hperm.length_eq
  rwa [Std.HashSet.length_toList] at hlength

/-- Valid sets are equal if they list the same names in the same order: what they keep for look-up
is then the same too. -/
theorem beq_iff (h : set.Valid) (hother : other.Valid) :
    (set == other) = true ↔ set.toList = other.toList := by
  show set.beq other = true ↔ _
  unfold beq
  simp only [Bool.and_eq_true, beq_iff_eq, Std.HashSet.all_eq_true_iff_forall_mem]
  constructor
  · rintro ⟨⟨horder, -⟩, -⟩
    exact congrArg Array.toList horder
  · intro hlist
    have horder : set.order = other.order := Array.toList_inj.1 hlist
    refine ⟨⟨horder, ?_⟩, ?_⟩
    · rw [h.size_seen, hother.size_seen, horder]
    · intro name hname
      apply (hother.contains_iff name).2
      rw [← hlist]
      exact (h.contains_iff name).1 hname

end Valid

/-! ## One operation -/

/-- Whether a set is valid and lists given names, each where it was given first. -/
structure Represents (set : ImportSet) (names : List String) : Prop where
  valid : set.Valid
  toList_eq : set.toList = names.eraseDups

theorem represents_empty : empty.Represents [] :=
  ⟨valid_empty, rfl⟩

theorem represents_ofList (names : List String) : (ofList names).Represents names :=
  ⟨valid_empty.insertAll names, toList_ofList names⟩

theorem Represents.insertAll {set : ImportSet} {names : List String} (h : set.Represents names)
    (more : List String) : (set.insertAll more).Represents (names ++ more) := by
  refine ⟨h.valid.insertAll more, ?_⟩
  have hold : more.removeAll names.eraseDups = more.removeAll names := by
    unfold List.removeAll
    apply List.filter_congr
    intro name _
    simp
  rw [h.valid.toList_insertAll, h.toList_eq, hold, List.eraseDups_append]

theorem Represents.apply {set : ImportSet} {names : List String} (h : set.Represents names)
    (operation : Operation) : (operation.apply set).Represents (operation.record names) := by
  cases operation with
  | add name => exact h.insertAll [name]
  | extend more => exact h.insertAll more
  | replace others => exact represents_ofList others
  | clear => exact represents_empty

/-! ## Runs -/

theorem Represents.foldl_apply {set : ImportSet} {names : List String} (h : set.Represents names)
    (operations : List Operation) :
    (operations.foldl Operation.apply set).Represents (operations.foldl Operation.record names) := by
  induction operations generalizing set names with
  | nil => exact h
  | cons operation rest ih => exact ih (h.apply operation)

theorem represents_run (operations : List Operation) :
    (run operations).Represents (given operations) :=
  represents_empty.foldl_apply operations

theorem size_run (operations : List Operation) :
    (run operations).size = (given operations).toFinset.card := by
  have h := represents_run operations
  have hnames : (given operations).toFinset = (run operations).toList.toFinset := by
    ext name
    rw [h.toList_eq, List.mem_toFinset, List.mem_toFinset, List.mem_eraseDups]
  rw [hnames, List.toFinset_card_of_nodup h.valid.nodup]
  rfl

/-- **The two ways of keeping names stay in step through every run**: what is kept for look-up are
the names that are listed, and these are the names given since the set was last replaced or emptied,
each once and in the order in which they were given first. So a name is new exactly if it is not
listed, and a name that is not new leaves the set as it is; what the set is said to contain and how
many names it is said to have agree with the list; and sets are equal exactly if they list the same
names in the same order. -/
theorem run_lists_first_occurrences (operations : List Operation) :
    (∀ name, name ∈ (run operations).seen ↔ name ∈ (run operations).order) ∧
    (run operations).order.toList.Nodup ∧
    (run operations).order.toList = (given operations).eraseDups ∧
    (∀ name,
      (((run operations).insertNew name).1 = true ↔ name ∉ (run operations).toList) ∧
      (((run operations).insertNew name).1 = false →
        ((run operations).insertNew name).2 = run operations) ∧
      ((run operations).contains name = true ↔ name ∈ (run operations).toList)) ∧
    (run operations).size = (given operations).toFinset.card ∧
    ∀ others : List Operation,
      (run operations == run others) = true ↔ (run operations).toList = (run others).toList := by
  have h := represents_run operations
  refine ⟨fun name => ?_, h.valid.nodup, h.toList_eq, fun name => ⟨?_, fun hold => ?_, ?_⟩,
    size_run operations, fun others => ?_⟩
  · rw [← Array.mem_toList_iff]
    exact h.valid.contains_iff name
  · rw [insertNew_fst, Bool.not_eq_true', ← Bool.not_eq_true, h.valid.contains_iff]
  · rw [insertNew_fst, Bool.not_eq_false'] at hold
    exact insert_of_contains hold
  · exact h.valid.contains_iff name
  · exact h.valid.beq_iff (represents_run others).valid

end ClassImports.ImportSet
