import Mathlib
import ClassImports.Proofs.Pool.Layout

/-!
# The entries of a pool

* `mem_entries_iff`: the entries are the slots from slot 1 on, as far as 16 bits can number them,
  and `pairwise_entries` says that they are in the order of their numbers.
* `get?_eq_some_iff_mem_entries`: looking a slot up agrees with the entries.
* `isChain_usableEntries`: in a well laid out pool each usable entry is as far behind the one before
  it as that one is wide, and the first of them is in slot 1.
-/

namespace ClassImports.Pool

/-- Slots with their numbers, the first of them in slot `index`. -/
def numbered (index : Nat) (slots : List Constant) : List (Nat × Constant) :=
  (slots.zipIdx index).map fun (constant, index) => (index, constant)

theorem entries_eq_numbered (pool : Pool) :
    pool.entries = numbered 1 (pool.slots.toList.take lastIndex) :=
  rfl

/-- The entries of a pool that 16 bits can number are all its slots from slot 1 on. -/
theorem entries_of_count_le {pool : Pool} (h : pool.count ≤ lastIndex) :
    pool.entries = numbered 1 pool.slots.toList := by
  have hlength : pool.slots.toList.length ≤ lastIndex := by
    rw [Array.length_toList]
    exact Nat.le_of_succ_le h
  rw [entries_eq_numbered, List.take_of_length_le hlength]

theorem numbered_cons (index : Nat) (slot : Constant) (rest : List Constant) :
    numbered index (slot :: rest) = (index, slot) :: numbered (index + 1) rest :=
  rfl

theorem map_fst_numbered (index : Nat) (slots : List Constant) :
    (numbered index slots).map (·.1) = List.range' index slots.length := by
  rw [numbered, List.map_map]
  exact List.zipIdx_map_snd index slots

theorem mem_numbered_iff {index start : Nat} {constant : Constant} {slots : List Constant} :
    (index, constant) ∈ numbered start slots ↔
      start ≤ index ∧ slots[index - start]? = some constant := by
  rw [← List.mk_mem_zipIdx_iff_le_and_getElem?_sub, numbered, List.mem_map]
  constructor
  · rintro ⟨⟨_, _⟩, hmem, heq⟩
    cases heq
    exact hmem
  · exact fun hmem => ⟨_, hmem, rfl⟩

/-! ## All entries -/

theorem pairwise_entries (pool : Pool) : pool.entries.Pairwise (·.1 < ·.1) := by
  rw [← List.pairwise_map (f := Prod.fst) (R := (· < ·)), entries_eq_numbered, map_fst_numbered]
  exact List.pairwise_lt_range' 1

theorem mem_entries_iff {pool : Pool} {index : Nat} {constant : Constant} :
    (index, constant) ∈ pool.entries ↔
      1 ≤ index ∧ index ≤ lastIndex ∧ pool.toList[index]? = some constant := by
  rw [entries_eq_numbered, mem_numbered_iff, List.getElem?_take]
  refine and_congr_right fun hpos => ?_
  obtain ⟨index, rfl⟩ := Nat.exists_eq_add_of_le' hpos
  rw [Nat.add_sub_cancel, toList, List.getElem?_cons_succ]
  simp

/-! ## Looking slots up -/

theorem get?_eq_some_iff {pool : Pool} {index : UInt16} {constant : Constant} :
    pool.get? index = some constant ↔
      index ≠ 0 ∧ pool.toList[index.toNat]? = some constant := by
  by_cases hzero : index = 0
  · simp [hzero]
  · have hpos : index.toNat ≠ 0 := fun hnat => hzero (UInt16.toNat_inj.1 hnat)
    obtain ⟨before, hbefore⟩ := Nat.exists_eq_succ_of_ne_zero hpos
    simp [get?, toList, hzero, hbefore]

theorem text?_eq_some_iff {pool : Pool} {index : UInt16} {text : String} :
    pool.text? index = some text ↔ pool.get? index = some (.utf8 text) := by
  unfold text?
  split
  · next hget => simp [hget]
  · next hother => simpa using hother text

theorem className?_eq_some_iff {pool : Pool} {index : UInt16} {name : String} :
    pool.className? index = some name ↔
      ∃ target, pool.get? index = some (.classInfo target) ∧ pool.text? target = some name := by
  unfold className?
  split
  · next hget => simp [hget]
  · next hother => simpa using fun target hget => (hother target hget).elim

/-- Looking a slot up finds what the walk over the entries comes to under the slot's number. -/
theorem get?_eq_some_iff_mem_entries {pool : Pool} {index : UInt16} {constant : Constant} :
    pool.get? index = some constant ↔ (index.toNat, constant) ∈ pool.entries := by
  rw [get?_eq_some_iff, mem_entries_iff]
  have hlast : index.toNat ≤ lastIndex := Nat.le_of_lt_succ index.toNat_lt
  have hpos : index ≠ 0 ↔ 1 ≤ index.toNat := by
    rw [Nat.one_le_iff_ne_zero, ne_eq, ne_eq, ← UInt16.toNat_inj]
    rfl
  rw [hpos, and_iff_right hlast]

/-! ## Usable entries -/

/-- The entries that are no unusable slots. -/
def usableEntries (entries : List (Nat × Constant)) : List (Nat × Constant) :=
  entries.filter fun entry => entry.2 ≠ .unusable

/-- The usable entries of a pool that 16 bits can number are its usable slots. -/
theorem mem_usableEntries_iff {pool : Pool} (hcount : pool.count ≤ lastIndex) {index : Nat}
    {constant : Constant} :
    (index, constant) ∈ usableEntries pool.entries ↔
      constant ≠ .unusable ∧ pool.toList[index]? = some constant := by
  rw [usableEntries, List.mem_filter, mem_entries_iff, decide_eq_true_eq, and_comm]
  refine and_congr_right fun husable => ⟨fun h => h.2.2, fun hslot => ?_⟩
  have hlt : index < pool.toList.length := (List.getElem?_eq_some_iff.1 hslot).1
  have hpos : index ≠ 0 := by
    rintro rfl
    exact husable (Option.some.inj hslot).symm
  rw [length_toList] at hlt
  exact ⟨Nat.pos_of_ne_zero hpos, by omega, hslot⟩

/-- Whether an entry is as far behind another one as that one is wide. -/
def Follows (before entry : Nat × Constant) : Prop :=
  entry.1 = before.1 + before.2.width

@[simp] theorem usableEntries_cons_unusable (index : Nat) (entries : List (Nat × Constant)) :
    usableEntries ((index, .unusable) :: entries) = usableEntries entries := by
  simp [usableEntries]

theorem usableEntries_cons {slot : Constant} (h : slot ≠ .unusable) (index : Nat)
    (entries : List (Nat × Constant)) :
    usableEntries ((index, slot) :: entries) = (index, slot) :: usableEntries entries := by
  simp [usableEntries, h]

/-- Of the slots of constants, each usable one is as far behind the one before it as that one is
wide. The entry before the first slot stands for any that is that far behind. -/
theorem isChain_usableEntries_numbered {slots : List Constant} (h : Laid slots) {index : Nat}
    {before : Nat × Constant} (hindex : index = before.1 + before.2.width) :
    List.IsChain Follows (before :: usableEntries (numbered index slots)) := by
  induction h generalizing index before with
  | nil => simp [numbered, usableEntries]
  | narrow husable hnarrow _ ih =>
    rw [numbered_cons, usableEntries_cons husable, List.isChain_cons_cons]
    exact ⟨hindex, ih (by rw [Constant.width_of_not_isWide hnarrow])⟩
  | cut hwide =>
    rw [numbered_cons, usableEntries_cons (ne_unusable_of_isWide hwide), List.isChain_cons_cons]
    exact ⟨hindex, .singleton _⟩
  | wide hwide _ ih =>
    rw [numbered_cons, numbered_cons, usableEntries_cons (ne_unusable_of_isWide hwide),
      usableEntries_cons_unusable, List.isChain_cons_cons]
    exact ⟨hindex, ih (by rw [Constant.width_of_isWide hwide])⟩

/-- The usable entries of a well laid out pool, slot 0 before them. -/
theorem isChain_usableEntries {pool : Pool} (h : pool.WellLaidOut)
    (hcount : pool.count ≤ lastIndex) :
    List.IsChain Follows ((0, .unusable) :: usableEntries pool.entries) := by
  rw [entries_of_count_le hcount]
  exact isChain_usableEntries_numbered h.laid rfl

end ClassImports.Pool
