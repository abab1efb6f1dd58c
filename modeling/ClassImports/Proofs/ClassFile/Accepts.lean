import Mathlib
import ClassImports.ClassFile.Reader
import ClassImports.Proofs.BigEndian
import ClassImports.Proofs.Results

/-!
# The languages that readers accept

`Accepts reader language` says what a reader does where it does not fail: from any position it
takes exactly the octets of a form and gives the value that the language pairs with them, whatever
follows. One lemma for each way of putting readers together gives the language of the whole from
those of the parts (`accepts_pure`, `accepts_throw`, `accepts_bind`, `accepts_map`), and one for
each elementary reader starts them off (`accepts_take`, `accepts_number`, `accepts_octet`,
`accepts_word`, `accepts_text`).
-/

namespace ClassImports.ClassFile.Reader

/-- A reader succeeds exactly on the forms of a language, which may be followed by anything, and
moves to the octet after the form. -/
def Accepts {α : Type} (reader : Reader α) (language : Bytes → α → Prop) : Prop :=
  ∀ (before after : Cursor) (value : α),
    reader before = .ok (value, after) ↔
      ∃ form, language form value ∧ before.rest = form ++ after.rest ∧
        after.offset = before.offset + form.length

variable {α β : Type}

/-! ## Combinations -/

/-- A language may be given in other words. -/
theorem Accepts.congr {reader : Reader α} {language other : Bytes → α → Prop}
    (h : Accepts reader language) (hother : ∀ form value, language form value ↔ other form value) :
    Accepts reader other := by
  intro before after value
  rw [h before after value]
  simp only [hother]

theorem accepts_pure (value : α) :
    Accepts (pure value) fun form result => form = [] ∧ result = value := by
  intro before after result
  show Except.ok (value, before) = Except.ok (result, after) ↔ _
  constructor
  · intro h
    cases h
    exact ⟨[], ⟨rfl, rfl⟩, rfl, rfl⟩
  · rintro ⟨_, ⟨rfl, rfl⟩, hrest, hoffset⟩
    cases before
    cases after
    simp_all

theorem accepts_throw (error : ReadError) :
    Accepts (throw error : Reader α) fun _ _ => False := by
  intro before after value
  show Except.error error = Except.ok (value, after) ↔ _
  simp

/-- A reader of two parts fails with the first of them and otherwise goes on with the second. -/
theorem bind_eq_ok_iff {first : Reader α} {next : α → Reader β} {before after : Cursor}
    {value : β} :
    (first >>= next) before = .ok (value, after) ↔
      ∃ a middle, first before = .ok (a, middle) ∧ next a middle = .ok (value, after) := by
  show (first before >>= fun result => next result.1 result.2) = _ ↔ _
  rw [Except.bind_eq_ok_iff, Prod.exists]

/-- One reader after the other accepts the forms of the first followed by those of the second. -/
theorem accepts_bind {first : Reader α} {next : α → Reader β} {front : Bytes → α → Prop}
    {back : α → Bytes → β → Prop} (hfirst : Accepts first front)
    (hnext : ∀ a, Accepts (next a) (back a)) :
    Accepts (first >>= next) fun form value =>
      ∃ a f g, front f a ∧ back a g value ∧ form = f ++ g := by
  intro before after value
  rw [bind_eq_ok_iff]
  constructor
  · rintro ⟨a, middle, ha, hvalue⟩
    obtain ⟨f, hf, hfrest, hfoffset⟩ := (hfirst before middle a).1 ha
    obtain ⟨g, hg, hgrest, hgoffset⟩ := (hnext a middle after value).1 hvalue
    refine ⟨f ++ g, ⟨a, f, g, hf, hg, rfl⟩, ?_, ?_⟩
    · rw [hfrest, hgrest, List.append_assoc]
    · rw [hgoffset, hfoffset, List.length_append, Nat.add_assoc]
  · rintro ⟨_, ⟨a, f, g, hf, hg, rfl⟩, hrest, hoffset⟩
    refine ⟨a, ⟨before.offset + f.length, g ++ after.rest⟩, ?_, ?_⟩
    · exact (hfirst _ _ _).2 ⟨f, hf, by rw [hrest, List.append_assoc], rfl⟩
    · refine (hnext a _ _ _).2 ⟨g, hg, rfl, ?_⟩
      rw [hoffset, List.length_append, Nat.add_assoc]

/-- A reader after a test that fails with an error. -/
theorem accepts_ite {condition : Prop} [Decidable condition] {reader : Reader α}
    {language : Bytes → α → Prop} (error : ReadError) (h : Accepts reader language) :
    Accepts (if condition then throw error else reader)
      fun form value => ¬condition ∧ language form value := by
  by_cases hcondition : condition
  · rw [if_pos hcondition]
    exact (accepts_throw error).congr fun form value => by simp [hcondition]
  · rw [if_neg hcondition]
    exact h.congr fun form value => by simp [hcondition]

/-- A reader whose value is turned into another one. -/
theorem accepts_map {reader : Reader α} {language : Bytes → α → Prop}
    (h : Accepts reader language) (f : α → β) :
    Accepts (do return f (← reader)) fun form value => ∃ a, language form a ∧ value = f a := by
  refine (accepts_bind h fun a => accepts_pure (f a)).congr fun form value => ?_
  constructor
  · rintro ⟨a, front, _, ha, ⟨rfl, rfl⟩, rfl⟩
    exact ⟨a, by rwa [List.append_nil], rfl⟩
  · rintro ⟨a, ha, rfl⟩
    exact ⟨a, form, [], ha, ⟨rfl, rfl⟩, (List.append_nil form).symm⟩

/-! ## Elementary readers -/

theorem accepts_take (n : Nat) :
    Accepts (take n) fun form value => value = form ∧ form.length = n := by
  intro before after value
  simp only [take]
  constructor
  · intro h
    split at h
    · next hlength =>
      cases h
      exact ⟨_, ⟨rfl, hlength⟩, (List.take_append_drop n before.rest).symm, by rw [hlength]⟩
    · cases h
  · rintro ⟨form, ⟨rfl, rfl⟩, hrest, hoffset⟩
    have htake : before.rest.take value.length = value := by rw [hrest, List.take_left]
    have hdrop : before.rest.drop value.length = after.rest := by rw [hrest, List.drop_left]
    simp only [htake, hdrop, ← hoffset, if_true]

/-- A number takes its octets, and all numbers that fit in these can be read. -/
theorem accepts_number (width : Nat) :
    Accepts (number width) fun form n => n < 256 ^ width ∧ form = BigEndian.encode width n := by
  refine (accepts_map (accepts_take width) BigEndian.decode).congr fun form n => ?_
  constructor
  · rintro ⟨_, ⟨rfl, rfl⟩, rfl⟩
    exact ⟨BigEndian.decode_lt _, (BigEndian.encode_decode _).symm⟩
  · rintro ⟨hn, rfl⟩
    exact ⟨_, ⟨rfl, BigEndian.length_encode width n⟩,
      ((BigEndian.decode_encode width n).trans (Nat.mod_eq_of_lt hn)).symm⟩

/-- A number of a type whose values are exactly the numbers that fit in the octets. -/
theorem accepts_number_as (width : Nat) {ofNat : Nat → α} {toNat : α → Nat}
    (hfits : ∀ a, toNat a < 256 ^ width) (hleft : ∀ a, ofNat (toNat a) = a)
    (hright : ∀ n, n < 256 ^ width → toNat (ofNat n) = n) (make : α → β) :
    Accepts (do return make (ofNat (← number width))) fun form value =>
      ∃ a, form = BigEndian.encode width (toNat a) ∧ value = make a := by
  refine (accepts_map (accepts_number width) fun n => make (ofNat n)).congr fun form value => ?_
  constructor
  · rintro ⟨n, ⟨hn, rfl⟩, rfl⟩
    exact ⟨ofNat n, by rw [hright n hn], rfl⟩
  · rintro ⟨a, rfl, rfl⟩
    exact ⟨toNat a, ⟨hfits a, rfl⟩, by rw [hleft]⟩

theorem accepts_number32 (make : UInt32 → β) :
    Accepts (do return make (← number 4).toUInt32) fun form value =>
      ∃ bits : UInt32, form = BigEndian.encode 4 bits.toNat ∧ value = make bits :=
  accepts_number_as 4 UInt32.toNat_lt (fun bits => by simp) (fun _ => UInt32.toNat_ofNat_of_lt')
    make

theorem accepts_number64 (make : UInt64 → β) :
    Accepts (do return make (← number 8).toUInt64) fun form value =>
      ∃ bits : UInt64, form = BigEndian.encode 8 bits.toNat ∧ value = make bits :=
  accepts_number_as 8 UInt64.toNat_lt (fun bits => by simp) (fun _ => UInt64.toNat_ofNat_of_lt')
    make

theorem accepts_octet : Accepts octet fun form value => form = [value] := by
  refine (accepts_number_as 1 UInt8.toNat_lt (fun value => by simp)
    (fun _ => UInt8.toNat_ofNat_of_lt') id).congr fun form value => ?_
  simp [BigEndian.encode]

theorem accepts_word :
    Accepts word fun form value => form = BigEndian.encode 2 value.toNat := by
  refine (accepts_number_as 2 UInt16.toNat_lt (fun value => by simp)
    (fun _ => UInt16.toNat_ofNat_of_lt') id).congr fun form value => ?_
  simp

/-- A text takes the count of its octets and then these octets, which may be any. -/
theorem accepts_text :
    Accepts text fun form value => ∃ payload : Bytes, payload.length ≤ 65535 ∧
      form = BigEndian.encode 2 payload.length ++ payload ∧
      value = ModifiedUtf8.decode payload := by
  refine (accepts_bind (accepts_number 2) fun n =>
    accepts_map (accepts_take n) ModifiedUtf8.decode).congr fun form value => ?_
  constructor
  · rintro ⟨n, _, payload, ⟨hn, rfl⟩, ⟨_, ⟨rfl, rfl⟩, rfl⟩, rfl⟩
    exact ⟨_, Nat.le_of_lt_succ hn, rfl, rfl⟩
  · rintro ⟨payload, hlength, rfl, rfl⟩
    exact ⟨payload.length, _, payload, ⟨Nat.lt_succ_of_le hlength, rfl⟩,
      ⟨payload, ⟨rfl, rfl⟩, rfl⟩, rfl⟩

end ClassImports.ClassFile.Reader
