import Mathlib
import ClassImports.Pool

/-!
# The layout of constant pools

* `Fills count index constants`: constants one after the other, the first of them in slot `index`,
  fill a pool of `count` slots. `fills_iff` says it by the slots at which the constants start.
* `WellLaidOut pool`: the unusable slots after slot 0 are exactly the shadows of wide constants,
  which are the long and the double ones (`Constant.isWide_iff`).
* A pool is well laid out exactly if its slots are those of its usable constants one after the
  other, cut off at the end of the pool: `wellLaidOut_of_take` and `take_usable_of_wellLaidOut`.
  `Laid slots` builds such slots up, and proofs about them go by induction on it.
-/

namespace ClassImports

open Constant (width)

/-- The wide constants are the long and the double ones. -/
theorem Constant.isWide_iff {constant : Constant} :
    constant.isWide = true ↔
      (∃ value, constant = .long value) ∨ ∃ bits, constant = .double bits := by
  cases constant <;> simp [Constant.isWide]

theorem Constant.width_of_isWide {constant : Constant} (h : constant.isWide = true) :
    constant.width = 2 :=
  if_pos h

theorem Constant.width_of_not_isWide {constant : Constant} (h : constant.isWide = false) :
    constant.width = 1 := by
  rw [Constant.width, h]
  rfl

namespace Pool

theorem withShadow_of_isWide {constant : Constant} (h : constant.isWide = true) :
    withShadow constant = [constant, .unusable] :=
  if_pos h

theorem withShadow_of_not_isWide {constant : Constant} (h : constant.isWide = false) :
    withShadow constant = [constant] := by
  rw [withShadow, h]
  rfl

theorem length_withShadow (constant : Constant) :
    (withShadow constant).length = constant.width := by
  cases h : constant.isWide with
  | true => rw [withShadow_of_isWide h, Constant.width_of_isWide h]; rfl
  | false => rw [withShadow_of_not_isWide h, Constant.width_of_not_isWide h]; rfl

theorem length_flatMap_withShadow (constants : List Constant) :
    (constants.flatMap withShadow).length = (constants.map width).sum := by
  simp [List.length_flatMap, length_withShadow]

theorem one_le_count (pool : Pool) : 1 ≤ pool.count :=
  Nat.le_add_left 1 _

/-- The first slots of the pool of given constants, by what is stored of them. -/
theorem toList_eq_take_iff {pool : Pool} {constants : List Constant} {count : Nat}
    (h : 1 ≤ count) :
    pool.toList = (ofConstants constants).toList.take count ↔
      pool.slots.toList = (constants.flatMap withShadow).take (count - 1) := by
  obtain ⟨count, rfl⟩ := Nat.exists_eq_add_of_le' h
  rw [toList_ofConstants, List.take_succ_cons, toList, List.cons_inj_right, Nat.add_sub_cancel]

/-! ## Constants that fill a pool -/

/-- Whether constants one after the other, the first of them in slot `index`, fill a pool of `count`
slots: each starts in the pool, and together they reach its end. -/
def Fills (count : Nat) : (index : Nat) → List Constant → Prop
  | index, [] => count ≤ index
  | index, constant :: rest => index < count ∧ Fills count (index + constant.width) rest

theorem fills_iff {count index : Nat} {constants : List Constant} :
    Fills count index constants ↔
      (∀ j < constants.length, index + ((constants.take j).map width).sum < count) ∧
        count ≤ index + (constants.map width).sum := by
  induction constants generalizing index with
  | nil => simp [Fills]
  | cons constant rest ih =>
    rw [Fills, ih, List.length_cons, Nat.forall_lt_succ_left]
    simp only [List.take_succ_cons, List.take_zero, List.map_cons, List.map_nil, List.sum_cons,
      List.sum_nil, Nat.add_assoc, Nat.add_zero, and_assoc]

/-- A pool has as many slots as its constants fill. -/
theorem count_eq_of_fills {pool : Pool} {count : Nat} {constants : List Constant}
    (h : Fills count 1 constants)
    (hpool : pool.toList = (ofConstants constants).toList.take count) : pool.count = count := by
  have hreach := (fills_iff.1 h).2
  rw [← length_toList, hpool, List.length_take, toList_ofConstants, List.length_cons,
    length_flatMap_withShadow]
  omega

/-- The slots from `index` on of constants that start there: the first constant, its shadow if there
is room for one, and the slots of the others. -/
theorem take_flatMap_withShadow_cons {count index : Nat} {constant : Constant}
    (hindex : index < count) (rest : List Constant) :
    ((constant :: rest).flatMap withShadow).take (count - index) =
      constant :: ((if constant.isWide && index + 1 < count then [.unusable] else []) ++
        (rest.flatMap withShadow).take (count - (index + constant.width))) := by
  obtain ⟨room, hroom⟩ := Nat.exists_eq_add_of_lt hindex
  rw [List.flatMap_cons, show count - index = room + 1 by omega]
  cases hwide : constant.isWide with
  | false =>
    rw [withShadow_of_not_isWide hwide, Constant.width_of_not_isWide hwide,
      show count - (index + 1) = room by omega]
    rfl
  | true =>
    rw [withShadow_of_isWide hwide, Constant.width_of_isWide hwide]
    cases room with
    | zero => simp [hroom]
    | succ room =>
      have hshadow : index + 1 < count := by omega
      rw [show count - (index + 2) = room by omega]
      simp [hshadow]

/-! ## Well laid out pools -/

/-- Whether the unusable slots after slot 0 are exactly the shadows of wide constants, which are the
long and the double ones (`Constant.isWide_iff`). The shadow of a constant in the last slot would be
past the end. -/
def WellLaidOut (pool : Pool) : Prop :=
  ∀ i, (h : i + 1 < pool.toList.length) →
    (pool.toList[i + 1] = .unusable ↔ pool.toList[i].isWide = true)

/-- Whether a slot may follow another one: a shadow comes after a wide constant and only there. -/
def MayFollow (before slot : Constant) : Prop :=
  slot = .unusable ↔ before.isWide = true

theorem wellLaidOut_iff_isChain {pool : Pool} :
    pool.WellLaidOut ↔ List.IsChain MayFollow pool.toList := by
  rw [List.isChain_iff_getElem]
  rfl

/-- Constants one after the other with their shadows, cut off anywhere, are well laid out. -/
theorem isChain_take_flatMap {constants : List Constant} (h : .unusable ∉ constants) (n : Nat)
    {before : Constant} (hbefore : before.isWide = false) :
    List.IsChain MayFollow (before :: (constants.flatMap withShadow).take n) := by
  induction constants generalizing n before with
  | nil => simp
  | cons constant rest ih =>
    rw [List.mem_cons, not_or] at h
    have hfirst : MayFollow before constant := by simp [MayFollow, hbefore, Ne.symm h.1]
    rw [List.flatMap_cons]
    cases hwide : constant.isWide with
    | false =>
      rw [withShadow_of_not_isWide hwide]
      cases n with
      | zero => simp
      | succ n => exact .cons_cons hfirst (ih h.2 n hwide)
    | true =>
      rw [withShadow_of_isWide hwide]
      match n with
      | 0 => simp
      | 1 => simpa using hfirst
      | n + 2 =>
        have hshadow : MayFollow constant .unusable := by simp [MayFollow, hwide]
        exact .cons_cons hfirst (.cons_cons hshadow (ih h.2 n rfl))

theorem wellLaidOut_of_take {pool : Pool} {constants : List Constant} {count : Nat}
    (h : .unusable ∉ constants) (hpos : 1 ≤ count)
    (hpool : pool.toList = (ofConstants constants).toList.take count) : pool.WellLaidOut := by
  rw [toList_eq_take_iff hpos] at hpool
  rw [wellLaidOut_iff_isChain, toList, hpool]
  exact isChain_take_flatMap h _ rfl

/-- The constants in slots, without the unusable ones. -/
def usable (slots : List Constant) : List Constant :=
  slots.filter (· ≠ .unusable)

@[simp] theorem usable_cons_unusable (slots : List Constant) :
    usable (.unusable :: slots) = usable slots := by
  simp [usable]

theorem usable_cons {slot : Constant} (h : slot ≠ .unusable) (slots : List Constant) :
    usable (slot :: slots) = slot :: usable slots := by
  simp [usable, h]

/-- The usable constants in the slots of constants that fill a pool are these constants. -/
theorem usable_take_flatMap {count index : Nat} {constants : List Constant}
    (husable : .unusable ∉ constants) (h : Fills count index constants) :
    usable ((constants.flatMap withShadow).take (count - index)) = constants := by
  induction constants generalizing index with
  | nil => simp [usable]
  | cons constant rest ih =>
    rw [List.mem_cons, not_or] at husable
    rw [take_flatMap_withShadow_cons h.1, usable_cons (Ne.symm husable.1)]
    have hrest := ih husable.2 h.2
    split
    · rw [List.singleton_append, usable_cons_unusable, hrest]
    · rw [List.nil_append, hrest]

/-- Slots that are those of constants one after the other, cut off at the end: of a wide constant in
the last slot there is no shadow. -/
inductive Laid : List Constant → Prop where
  | nil : Laid []
  | narrow {slot : Constant} {rest : List Constant} (husable : slot ≠ .unusable)
      (hnarrow : slot.isWide = false) (hrest : Laid rest) : Laid (slot :: rest)
  | cut {slot : Constant} (hwide : slot.isWide = true) : Laid [slot]
  | wide {slot : Constant} {rest : List Constant} (hwide : slot.isWide = true)
      (hrest : Laid rest) : Laid (slot :: .unusable :: rest)

theorem ne_unusable_of_isWide {slot : Constant} (h : slot.isWide = true) : slot ≠ .unusable := by
  obtain ⟨value, rfl⟩ | ⟨bits, rfl⟩ := Constant.isWide_iff.1 h
  · exact Constant.noConfusion
  · exact Constant.noConfusion

/-- Slots that may follow one another, after one that is not wide, are those of constants. -/
theorem laid_of_isChain :
    ∀ {slots : List Constant} {before : Constant}, before.isWide = false →
      List.IsChain MayFollow (before :: slots) → Laid slots
  | [], _, _, _ => .nil
  | slot :: rest, before, hbefore, hchain => by
    rw [List.isChain_cons_cons] at hchain
    obtain ⟨hslot, hchain⟩ := hchain
    have husable : slot ≠ .unusable := fun h => by simp [MayFollow, hbefore, h] at hslot
    cases hwide : slot.isWide with
    | false => exact .narrow husable hwide (laid_of_isChain hwide hchain)
    | true =>
      cases rest with
      | nil => exact .cut hwide
      | cons next rest =>
        rw [List.isChain_cons_cons] at hchain
        obtain ⟨hnext, hchain⟩ := hchain
        -- the slot after a wide constant is its shadow, and what follows may follow a shadow
        have hshadow : next = .unusable := hnext.2 hwide
        subst hshadow
        have hunusable : Constant.unusable.isWide = false := rfl
        exact .wide hwide (laid_of_isChain hunusable hchain)

theorem WellLaidOut.laid {pool : Pool} (h : pool.WellLaidOut) : Laid pool.slots.toList := by
  have hunusable : Constant.unusable.isWide = false := rfl
  exact laid_of_isChain hunusable (wellLaidOut_iff_isChain.1 h)

/-- The slots of constants are those of their usable constants, cut off at the end, and these
constants fill them. -/
theorem take_usable_of_laid {slots : List Constant} (h : Laid slots) :
    ((usable slots).flatMap withShadow).take slots.length = slots ∧
      ∀ index, Fills (index + slots.length) index (usable slots) := by
  induction h with
  | nil => simp [usable, Fills]
  | @narrow slot rest husable hnarrow _ ih =>
    obtain ⟨htake, hfills⟩ := ih
    rw [usable_cons husable, List.flatMap_cons, withShadow_of_not_isWide hnarrow]
    refine ⟨congrArg (slot :: ·) htake, fun index => ⟨by simp, ?_⟩⟩
    have hend : index + (slot :: rest).length = index + slot.width + rest.length := by
      rw [Constant.width_of_not_isWide hnarrow, List.length_cons]
      omega
    exact hend ▸ hfills (index + slot.width)
  | cut hwide =>
    rw [usable_cons (ne_unusable_of_isWide hwide), List.flatMap_cons, withShadow_of_isWide hwide]
    simp [usable, Fills, Constant.width_of_isWide hwide]
  | @wide slot rest hwide _ ih =>
    obtain ⟨htake, hfills⟩ := ih
    rw [usable_cons (ne_unusable_of_isWide hwide), usable_cons_unusable, List.flatMap_cons,
      withShadow_of_isWide hwide]
    refine ⟨congrArg (slot :: .unusable :: ·) htake, fun index => ⟨by simp, ?_⟩⟩
    have hend : index + (slot :: .unusable :: rest).length = index + slot.width + rest.length := by
      rw [Constant.width_of_isWide hwide, List.length_cons, List.length_cons]
      omega
    exact hend ▸ hfills (index + slot.width)

/-- A well laid out pool is that of its usable constants up to its end, and they fill it. -/
theorem take_usable_of_wellLaidOut {pool : Pool} (h : pool.WellLaidOut) :
    pool.toList = (ofConstants (usable pool.slots.toList)).toList.take pool.count ∧
      Fills pool.count 1 (usable pool.slots.toList) := by
  obtain ⟨htake, hfills⟩ := take_usable_of_laid h.laid
  rw [toList_eq_take_iff (one_le_count pool)]
  refine ⟨htake.symm, ?_⟩
  have hcount : pool.count = 1 + pool.slots.toList.length := Nat.add_comm _ _
  exact hcount ▸ hfills 1

/-- The pool of constants that are all usable is well laid out. -/
theorem wellLaidOut_ofConstants {constants : List Constant} (h : .unusable ∉ constants) :
    (ofConstants constants).WellLaidOut := by
  refine wellLaidOut_of_take h (one_le_count (ofConstants constants)) ?_
  rw [← length_toList, List.take_length]

end Pool

end ClassImports
