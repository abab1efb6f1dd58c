import Mathlib
import ClassImports.Proofs.Pool.Entries

/-!
# The slots of a pool

Constants that are made into a pool follow one another from slot 1 on, a wide one taking two slots,
and the slots in which none of them starts are unusable. `Holds` says so, and it says all there is:
`holds_iff`. In every pool, however it was made, slot 0 is out of reach, and looking a slot up by
its number finds exactly what the walk over the entries comes to (`Addressed`). A pool may have more
slots than 16 bits can number: `longAndNumbers 65534` has one of them.
-/

namespace ClassImports.Pool

open Constant (width)

/-! ## Where constants start -/

/-- The slot in which constant number `j` of a list starts when they follow one another from
slot 1 on. -/
def startSlot (constants : List Constant) (j : Nat) : Nat :=
  1 + ((constants.take j).map width).sum

@[simp] theorem startSlot_zero (constants : List Constant) : startSlot constants 0 = 1 := by
  simp [startSlot]

theorem startSlot_cons_succ (constant : Constant) (rest : List Constant) (j : Nat) :
    startSlot (constant :: rest) (j + 1) = startSlot rest j + constant.width := by
  simp only [startSlot, List.take_succ_cons, List.map_cons, List.sum_cons]
  omega

theorem head?_flatMap_withShadow (constants : List Constant) :
    (constants.flatMap withShadow).head? = constants.head? := by
  cases constants with
  | nil => rfl
  | cons constant rest =>
    cases hwide : constant.isWide with
    | true => simp [withShadow_of_isWide hwide]
    | false => simp [withShadow_of_not_isWide hwide]

/-- From the slot on in which a constant starts, the slots are those of this constant and the ones
after it. -/
theorem drop_startSlot (constants : List Constant) (j : Nat) :
    (ofConstants constants).toList.drop (startSlot constants j) =
      (constants.drop j).flatMap withShadow := by
  have hsplit : constants.flatMap withShadow =
      (constants.take j).flatMap withShadow ++ (constants.drop j).flatMap withShadow := by
    rw [← List.flatMap_append, List.take_append_drop]
  rw [toList_ofConstants, startSlot, Nat.add_comm, List.drop_succ_cons, hsplit,
    ← length_flatMap_withShadow, List.drop_left]

theorem getElem?_startSlot (constants : List Constant) (j : Nat) :
    (ofConstants constants).toList[startSlot constants j]? = constants[j]? := by
  rw [← List.head?_drop, drop_startSlot, head?_flatMap_withShadow, List.head?_drop]

theorem getElem?_withShadow_succ {constant : Constant} {index : Nat}
    (h : index + 1 < constant.width) : (withShadow constant)[index + 1]? = some .unusable := by
  cases hwide : constant.isWide with
  | true =>
    rw [Constant.width_of_isWide hwide] at h
    obtain rfl : index = 0 := by omega
    rw [withShadow_of_isWide hwide]
    rfl
  | false =>
    rw [Constant.width_of_not_isWide hwide] at h
    omega

/-- The slots from slot 1 on in which no constant starts are unusable: each is the shadow of a
constant that starts before it. -/
theorem getElem?_of_ne_startSlot {constants : List Constant} {index : Nat}
    (hindex : index < (constants.flatMap withShadow).length)
    (hstart : ∀ j < constants.length, index + 1 ≠ startSlot constants j) :
    (constants.flatMap withShadow)[index]? = some .unusable := by
  induction constants generalizing index with
  | nil => simp at hindex
  | cons constant rest ih =>
    rw [List.flatMap_cons, List.length_append, length_withShadow] at hindex
    rw [List.flatMap_cons]
    by_cases hwithin : index < constant.width
    · -- the slot belongs to the first constant, which does not start here
      have hpos : index ≠ 0 := by
        intro hzero
        apply hstart 0 (Nat.succ_pos _)
        rw [hzero, startSlot_zero]
      obtain ⟨index, rfl⟩ := Nat.exists_eq_succ_of_ne_zero hpos
      rw [List.getElem?_append_left (by rwa [length_withShadow])]
      exact getElem?_withShadow_succ hwithin
    · have hbehind : constant.width ≤ index := Nat.le_of_not_lt hwithin
      rw [List.getElem?_append_right (by rwa [length_withShadow]), length_withShadow]
      apply ih
      · omega
      · intro j hj hstarts
        apply hstart (j + 1) (Nat.succ_lt_succ hj)
        rw [startSlot_cons_succ]
        omega

/-! ## Pools made of constants -/

/-- Whether a pool holds constants one after the other from slot 1 on, and nothing else. -/
structure Holds (pool : Pool) (constants : List Constant) : Prop where
  count_eq : pool.count = 1 + (constants.map width).sum
  /-- Each constant is in the slot behind slot 0 and the slots of the constants before it. -/
  starts : ∀ j, (h : j < constants.length) →
    pool.toList[startSlot constants j]? = some constants[j]
  /-- The other slots, slot 0 among them, are unusable. -/
  unusable : ∀ index < pool.count, (∀ j < constants.length, index ≠ startSlot constants j) →
    pool.toList[index]? = some .unusable

theorem holds_ofConstants (constants : List Constant) : (ofConstants constants).Holds constants where
  count_eq := by
    rw [← length_toList, toList_ofConstants, List.length_cons, length_flatMap_withShadow,
      Nat.add_comm]
  starts j h := by rw [getElem?_startSlot, List.getElem?_eq_getElem h]
  unusable index hindex hstart := by
    rw [← length_toList, toList_ofConstants] at hindex
    rw [toList_ofConstants]
    cases index with
    | zero => rfl
    | succ index => exact getElem?_of_ne_startSlot (Nat.lt_of_succ_lt_succ hindex) hstart

theorem toList_injective : Function.Injective toList := by
  intro pool other h
  rw [toList, toList, List.cons_inj_right, Array.toList_inj] at h
  exact congrArg Pool.mk h

/-- A pool that holds constants one after the other is the one made of them: what `Holds` says
leaves no slot open. -/
theorem holds_iff {pool : Pool} {constants : List Constant} :
    pool.Holds constants ↔ pool = ofConstants constants := by
  constructor
  · intro h
    have hmade := holds_ofConstants constants
    have hcount : pool.count = (ofConstants constants).count := h.count_eq.trans hmade.count_eq.symm
    apply toList_injective
    apply List.ext_getElem?
    intro index
    by_cases hindex : index < pool.count
    · by_cases hstart : ∃ j < constants.length, index = startSlot constants j
      · obtain ⟨j, hj, rfl⟩ := hstart
        rw [h.starts j hj, hmade.starts j hj]
      · have hother : ∀ j < constants.length, index ≠ startSlot constants j :=
          fun j hj heq => hstart ⟨j, hj, heq⟩
        rw [h.unusable index hindex hother, hmade.unusable index (hcount ▸ hindex) hother]
    · have hend : pool.count ≤ index := Nat.le_of_not_lt hindex
      have hpast : pool.toList.length ≤ index := by rwa [length_toList]
      have hmadePast : (ofConstants constants).toList.length ≤ index := by
        rwa [length_toList, ← hcount]
      rw [List.getElem?_eq_none hpast, List.getElem?_eq_none hmadePast]
  · rintro rfl
    exact holds_ofConstants constants

/-! ## Pools made of slots -/

theorem count_ofSlots (slots : List Constant) : (ofSlots slots).count = max 1 slots.length := by
  rw [← length_toList, toList_ofSlots, List.length_cons, List.length_drop]
  omega

/-- What is given for the slots from slot 1 on stays as it is. -/
theorem getElem?_toList_ofSlots (slots : List Constant) {index : Nat} (h : index ≠ 0) :
    (ofSlots slots).toList[index]? = slots[index]? := by
  obtain ⟨before, rfl⟩ := Nat.exists_eq_succ_of_ne_zero h
  rw [toList_ofSlots, List.getElem?_cons_succ, List.getElem?_drop, Nat.add_comm]

/-- Every pool can be made of its slots. -/
theorem ofSlots_toList (pool : Pool) : ofSlots pool.toList = pool := by
  apply toList_injective
  rw [toList_ofSlots]
  rfl

/-! ## Numbers -/

/-- The entries are numbered from 1 on without gaps, as far as there are slots and 16-bit
numbers. -/
theorem map_fst_entries (pool : Pool) :
    pool.entries.map (·.1) = List.range' 1 (min (pool.count - 1) lastIndex) := by
  rw [entries_eq_numbered, map_fst_numbered, List.length_take, Array.length_toList, Nat.min_comm]
  rfl

/-- Whether slots are found by their numbers and only so: slot 0 is unusable and out of reach of all
three ways to look a slot up, which find what the numbered slot holds; and the walk over the entries
comes, in the order of the numbers from 1 on, to what looking these numbers up finds. -/
structure Addressed (pool : Pool) : Prop where
  zero : pool.toList[0]? = some .unusable
  get?_iff : ∀ index constant, pool.get? index = some constant ↔
    index ≠ 0 ∧ pool.toList[index.toNat]? = some constant
  text?_iff : ∀ index text, pool.text? index = some text ↔
    index ≠ 0 ∧ pool.toList[index.toNat]? = some (.utf8 text)
  className?_iff : ∀ index name, pool.className? index = some name ↔
    ∃ target, (index ≠ 0 ∧ pool.toList[index.toNat]? = some (.classInfo target)) ∧
      target ≠ 0 ∧ pool.toList[target.toNat]? = some (.utf8 name)
  numbers : pool.entries.map (·.1) = List.range' 1 (min (pool.count - 1) lastIndex)
  get?_iff_mem : ∀ index constant, pool.get? index = some constant ↔
    (index.toNat, constant) ∈ pool.entries

/-- **Slots are where they should be and are found there.** The pool made of constants has each of
them in the slot behind those of the constants before it, and no slot but these is usable. The pool
made of slots keeps all of them but slot 0. And in every pool, of any length and made either way, slot
0 is unusable and never found, the entries are numbered from 1 on up to the last slot or the last
16-bit number, and a slot that is looked up holds what the entries have under its number. -/
theorem slots_addressed :
    (∀ pool constants, pool = ofConstants constants ↔ pool.Holds constants) ∧
    (∀ slots, (ofSlots slots).count = max 1 slots.length ∧
      ∀ index ≠ 0, (ofSlots slots).toList[index]? = slots[index]?) ∧
    (∀ pool, pool = ofSlots pool.toList) ∧
    ∀ pool : Pool, pool.Addressed := by
  refine ⟨fun pool constants => holds_iff.symm, fun slots => ⟨count_ofSlots slots, ?_⟩,
    fun pool => (ofSlots_toList pool).symm, fun pool => ?_⟩
  · intro index hindex
    exact getElem?_toList_ofSlots slots hindex
  · refine ⟨rfl, fun index constant => get?_eq_some_iff, ?_, ?_, map_fst_entries pool,
      fun index constant => get?_eq_some_iff_mem_entries⟩
    · intro index text
      rw [text?_eq_some_iff, get?_eq_some_iff]
    · intro index name
      simp only [className?_eq_some_iff, text?_eq_some_iff, get?_eq_some_iff]

/-! ## A pool of more slots than can be numbered -/

/-- A wide constant and so many integers after it, which count up from 0 in slot 3. -/
def longAndNumbers (many : Nat) : Pool :=
  ofConstants (.long 7 :: (List.range many).map fun n => .integer (.ofNat n))

theorem toList_longAndNumbers (many : Nat) :
    (longAndNumbers many).toList = .unusable :: .long 7 :: .unusable ::
      (List.range many).map fun n => .integer (.ofNat n) := by
  rw [longAndNumbers, toList_ofConstants, List.flatMap_cons, List.flatMap_map, List.map_eq_flatMap]
  rfl

theorem count_longAndNumbers (many : Nat) : (longAndNumbers many).count = many + 3 := by
  rw [← length_toList, toList_longAndNumbers]
  simp

theorem getElem?_longAndNumbers {many n : Nat} (h : n < many) :
    (longAndNumbers many).toList[n + 3]? = some (.integer (.ofNat n)) := by
  rw [toList_longAndNumbers]
  simp [h]

/-- With 65534 integers the last one is in slot 65536, which no 16-bit number reaches: the entries
end with the one before it, and that is what looking up the last number finds. -/
theorem slots_addressed_last :
    (longAndNumbers 65534).count = 65537 ∧
      (longAndNumbers 65534).toList[65536]? = some (.integer 65533) ∧
      (longAndNumbers 65534).entries.length = 65535 ∧
      (65535, .integer 65532) ∈ (longAndNumbers 65534).entries ∧
      (longAndNumbers 65534).get? 65535 = some (.integer 65532) := by
  obtain ⟨-, -, -, haddressed⟩ := slots_addressed
  have h := haddressed (longAndNumbers 65534)
  have hcount := count_longAndNumbers 65534
  have hlength : (longAndNumbers 65534).entries.length = 65535 := by
    rw [← List.length_map (·.1), h.numbers, List.length_range', hcount]
    rfl
  have hget : (longAndNumbers 65534).get? 65535 = some (.integer 65532) :=
    (h.get?_iff 65535 _).2 ⟨by decide, getElem?_longAndNumbers (by decide)⟩
  exact ⟨hcount, getElem?_longAndNumbers (by decide), hlength, (h.get?_iff_mem 65535 _).1 hget, hget⟩

end ClassImports.Pool
