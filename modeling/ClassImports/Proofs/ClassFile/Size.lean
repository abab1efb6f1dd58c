import Mathlib
import ClassImports.Proofs.ClassFile.Rewriting

/-!
# The size of class files

A class file cannot be written if its pool has too many slots, and otherwise if a text in it takes
too many octets, and then the first such text decides the error (`toBytes_eq_error_iff`). What is
written has a size that is the sum of the sizes of its slots, of which none is left out, and of 24
octets around them (`toBytes_fails_or_fills`). The size of a slot is `Constant.size`, and that of a
text in it `ModifiedUtf8.size`.
-/

namespace ClassImports

/-! ## Slots -/

/-- How many octets a slot takes: nothing is written for an unusable one, and an octet that
announces the constant for all others. -/
def Constant.size : Constant → Nat
  | .unusable => 0
  | .utf8 text => 3 + ModifiedUtf8.size text
  | .integer _ | .float _ => 5
  | .long _ | .double _ => 9
  | .classInfo _ | .link _ _ => 3
  | .pair _ _ _ => 5
  | .methodHandle _ _ => 4

namespace ClassFile

open BigEndian (encode)

variable {file : ClassFile} {slots : List Constant}

theorem length_word (n : UInt16) : (word n).length = 2 :=
  BigEndian.length_encode 2 n.toNat

theorem length_encodeBody {constant : Constant} {fields : Bytes}
    (h : encodeBody constant = .ok fields) :
    constant.tag.code?.toList.length + fields.length = constant.size := by
  cases constant with
  | unusable =>
    cases h
    rfl
  | utf8 text =>
    simp only [encodeBody, encodeText] at h
    split at h
    · cases h
      show 1 + (encode 2 _ ++ ModifiedUtf8.encode text).length = 3 + ModifiedUtf8.size text
      rw [List.length_append, BigEndian.length_encode, ModifiedUtf8.length_encode,
        ← Nat.add_assoc]
    · cases h
  | integer | float | long | double | classInfo | link | pair | methodHandle =>
    cases h
    rfl

theorem length_encodeConstant {constant : Constant} {form : Bytes}
    (h : encodeConstant constant = .ok form) : form.length = constant.size := by
  obtain ⟨fields, hfields, rfl⟩ := Except.map_eq_ok_iff.1 h
  rw [List.length_append]
  exact length_encodeBody hfields

/-- Slots are written if each of them is, one after the other. -/
theorem encodeConstants_eq_ok_iff {octets : Bytes} :
    encodeConstants slots = .ok octets ↔
      ∃ forms : List Bytes,
        List.Forall₂ (fun slot form => encodeConstant slot = .ok form) slots forms ∧
          octets = forms.flatten := by
  induction slots generalizing octets with
  | nil =>
    constructor
    · intro h
      cases h
      exact ⟨[], .nil, rfl⟩
    · rintro ⟨_, ⟨⟩, rfl⟩
      rfl
  | cons slot slots ih =>
    rw [encodeConstants_cons, Except.bind_eq_ok_iff]
    constructor
    · rintro ⟨form, hform, hrest⟩
      obtain ⟨others, hothers, rfl⟩ := Except.map_eq_ok_iff.1 hrest
      obtain ⟨forms, hforms, rfl⟩ := ih.1 hothers
      exact ⟨form :: forms, .cons hform hforms, rfl⟩
    · rintro ⟨_, hforms, rfl⟩
      cases hforms with
      | @cons _ form _ forms hform hforms =>
        refine ⟨form, hform, Except.map_eq_ok_iff.2 ⟨forms.flatten, ?_, rfl⟩⟩
        exact ih.2 ⟨forms, hforms, rfl⟩

theorem length_flatten_of_forall₂ {forms : List Bytes}
    (h : List.Forall₂ (fun slot form => encodeConstant slot = .ok form) slots forms) :
    forms.flatten.length = (slots.map Constant.size).sum := by
  induction h with
  | nil => rfl
  | cons hform _ ih =>
    rw [List.flatten_cons, List.length_append, length_encodeConstant hform, ih, List.map_cons,
      List.sum_cons]

/-! ## What is in the way -/

/-- Whether a number of octets is that of the first text in slots that takes more than 65535. -/
def FirstExcess (slots : List Constant) (length : Nat) : Prop :=
  ∃ before text after, slots = before ++ .utf8 text :: after ∧
    (∀ other, .utf8 other ∈ before → ModifiedUtf8.size other ≤ 65535) ∧
    65535 < ModifiedUtf8.size text ∧ length = ModifiedUtf8.size text

theorem excess?_eq_none_iff {constant : Constant} :
    constant.excess? = none ↔ ∀ text, constant = .utf8 text → ModifiedUtf8.size text ≤ 65535 := by
  rw [Option.eq_none_iff_forall_ne_some]
  constructor
  · intro h text htext
    by_contra hlong
    apply h (ModifiedUtf8.size text)
    rw [Constant.excess?_eq_some_iff, ← ModifiedUtf8.length_encode]
    rw [← ModifiedUtf8.length_encode] at hlong
    exact ⟨text, htext, Nat.lt_of_not_le hlong, rfl⟩
  · intro h length hexcess
    obtain ⟨text, htext, hlong, -⟩ := Constant.excess?_eq_some_iff.1 hexcess
    rw [ModifiedUtf8.length_encode] at hlong
    exact Nat.not_le_of_lt hlong (h text htext)

theorem findSome?_excess?_eq_some_iff {length : Nat} :
    slots.findSome? Constant.excess? = some length ↔ FirstExcess slots length := by
  rw [List.findSome?_eq_some_iff]
  constructor
  · rintro ⟨before, constant, after, rfl, hexcess, hbefore⟩
    obtain ⟨text, rfl, hlong, rfl⟩ := Constant.excess?_eq_some_iff.1 hexcess
    rw [ModifiedUtf8.length_encode] at hlong ⊢
    refine ⟨before, text, after, rfl, fun other hother => ?_, hlong, rfl⟩
    exact excess?_eq_none_iff.1 (hbefore _ hother) other rfl
  · rintro ⟨before, text, after, rfl, hbefore, hlong, rfl⟩
    refine ⟨before, .utf8 text, after, rfl, ?_, fun constant hconstant => ?_⟩
    · rw [← ModifiedUtf8.length_encode] at hlong ⊢
      exact Constant.excess?_eq_some_iff.2 ⟨text, rfl, hlong, rfl⟩
    · rw [excess?_eq_none_iff]
      rintro text rfl
      exact hbefore text hconstant

/-- Slot 0 holds no text. -/
theorem firstExcess_toList_iff {pool : Pool} {length : Nat} :
    FirstExcess pool.toList length ↔ FirstExcess pool.slots.toList length := by
  rw [← findSome?_excess?_eq_some_iff, ← findSome?_excess?_eq_some_iff]
  rfl

/-- The count of slots is looked at first, then the texts in the order of their slots. -/
theorem toBytes_eq_error_iff {error : WriteError} :
    toBytes file = .error error ↔
      65535 < file.pool.count ∧ error = .tooManySlots file.pool.count ∨
        file.pool.count ≤ 65535 ∧
          ∃ length, FirstExcess file.pool.toList length ∧ error = .textTooLong length := by
  rcases Nat.lt_or_ge 65535 file.pool.count with hmany | hcount
  · rw [toBytes, if_neg (Nat.not_le_of_lt hmany), Except.error.injEq]
    constructor
    · intro heq
      exact .inl ⟨hmany, heq.symm⟩
    · rintro (⟨-, heq⟩ | ⟨hcount, -⟩)
      · exact heq.symm
      · exact absurd hmany (Nat.not_lt_of_le hcount)
  · rw [toBytes_eq_map hcount, Except.map_eq_error_iff, encodeConstants_eq_error_iff]
    simp only [findSome?_excess?_eq_some_iff, firstExcess_toList_iff]
    constructor
    · intro hexcess
      exact .inr ⟨hcount, hexcess⟩
    · rintro (⟨hmany, -⟩ | ⟨-, hexcess⟩)
      · exact absurd hmany (Nat.not_lt_of_le hcount)
      · exact hexcess

theorem exists_toBytes_eq_error_iff (file : ClassFile) :
    (∃ error, toBytes file = .error error) ↔
      65535 < file.pool.count ∨
        ∃ text, .utf8 text ∈ file.pool.toList ∧ 65535 < ModifiedUtf8.size text := by
  have htexts : (∃ text, .utf8 text ∈ file.pool.toList ∧ 65535 < ModifiedUtf8.size text) ↔
      ∃ text, .utf8 text ∈ file.pool.slots.toList ∧ 65535 < ModifiedUtf8.size text := by
    simp [Pool.toList]
  rcases Nat.lt_or_ge 65535 file.pool.count with hmany | hcount
  · refine iff_of_true ⟨_, toBytes_eq_error_iff.2 (.inl ⟨hmany, rfl⟩)⟩ (.inl hmany)
  · rw [or_iff_right (Nat.not_lt_of_le hcount), htexts, toBytes_eq_map hcount]
    simp only [Except.map_eq_error_iff, exists_encodeConstants_eq_error_iff,
      ModifiedUtf8.length_encode]

/-! ## What is written -/

theorem length_frame (file : ClassFile) (constants : Bytes) :
    (frame file constants ++ emptyTables).length = 24 + constants.length := by
  unfold frame emptyTables
  simp only [List.length_append, BigEndian.length_encode, length_word, List.length_replicate]
  omega

theorem sum_size_toList (pool : Pool) :
    (pool.toList.map Constant.size).sum = (pool.slots.toList.map Constant.size).sum := by
  rw [Pool.toList, List.map_cons, List.sum_cons]
  exact Nat.zero_add _

/-- **When writing fails, and how long what is written is.** Writing fails exactly if there are more
than 65535 slots or a text takes more octets than that. Too many slots are the error whatever the
texts are, and otherwise the first text that is too long is. What is written has the octets of every
slot, of which none is cut off, and 24 others. -/
theorem toBytes_fails_or_fills (file : ClassFile) :
    ((∃ error, toBytes file = .error error) ↔
      65535 < file.pool.count ∨
        ∃ text, .utf8 text ∈ file.pool.toList ∧ 65535 < ModifiedUtf8.size text) ∧
    (∀ error, toBytes file = .error error ↔
      65535 < file.pool.count ∧ error = .tooManySlots file.pool.count ∨
        file.pool.count ≤ 65535 ∧
          ∃ length, FirstExcess file.pool.toList length ∧ error = .textTooLong length) ∧
    (∀ n, (WriteError.tooManySlots n).message =
        "constant pool count of " ++ toString n ++ " does not fit in a u16 field" ∧
      (WriteError.textTooLong n).message =
        "utf8 length of " ++ toString n ++ " does not fit in a u16 field") ∧
    ∀ octets, toBytes file = .ok octets →
      file.pool.entries.map (·.2) = file.pool.slots.toList ∧
      (∃ forms : List Bytes,
        List.Forall₂ (fun slot form => encodeConstant slot = .ok form) file.pool.slots.toList forms ∧
          octets = frame file forms.flatten ++ emptyTables) ∧
      octets.length = 24 + (file.pool.toList.map Constant.size).sum := by
  refine ⟨exists_toBytes_eq_error_iff file, fun error => toBytes_eq_error_iff,
    fun n => ⟨rfl, rfl⟩, fun octets h => ?_⟩
  obtain ⟨hcount, constants, hconstants, rfl⟩ := toBytes_eq_ok h
  obtain ⟨forms, hforms, rfl⟩ := encodeConstants_eq_ok_iff.1 hconstants
  refine ⟨map_snd_entries hcount, ⟨forms, hforms, rfl⟩, ?_⟩
  rw [length_frame, length_flatten_of_forall₂ hforms, sum_size_toList]

/-- A text of as many octets as its length says. -/
def asciiText (length : Nat) : String :=
  String.ofList (List.replicate length 'a')

theorem size_asciiText (length : Nat) : ModifiedUtf8.size (asciiText length) = length := by
  unfold ModifiedUtf8.size asciiText
  rw [String.toList_ofList, List.map_replicate, List.sum_replicate]
  exact Nat.mul_one length

/-- A file with characters of all sizes and a slot that is not written. -/
def mixedSizes : ClassFile :=
  ⟨⟨52, 0⟩, ⟨#[.utf8 "a\x00é中😀", .unusable, .long 7, .methodHandle 1 3]⟩, 33, 0, 0⟩

/-- A file with a text that just fits before two that do not. -/
def twoTooLong : ClassFile :=
  ⟨⟨52, 0⟩, ⟨#[.utf8 (asciiText 65535), .utf8 (asciiText 70000), .utf8 (asciiText 65536)]⟩, 33, 0, 0⟩

/-- The first file takes the octets of its slots and 24 others, the second one fails at the first
text that is too long. -/
theorem toBytes_fails_or_fills_mixed :
    (∃ octets, toBytes mixedSizes = .ok octets ∧
        octets.length = 24 + (3 + (1 + 2 + 2 + 3 + 6) + 0 + 9 + 4)) ∧
      toBytes twoTooLong = .error (.textTooLong 70000) := by
  constructor
  · obtain ⟨-, -, -, hfills⟩ := toBytes_fails_or_fills mixedSizes
    refine ⟨_, rfl, ?_⟩
    obtain ⟨-, -, hlength⟩ := hfills _ rfl
    rw [hlength]
    decide +kernel
  · have hfirst : FirstExcess twoTooLong.pool.toList 70000 := by
      refine ⟨[.unusable, .utf8 (asciiText 65535)], asciiText 70000, [.utf8 (asciiText 65536)], rfl,
        ?_, ?_, (size_asciiText 70000).symm⟩
      · intro other hother
        simp only [List.mem_cons, reduceCtorEq, Constant.utf8.injEq, List.not_mem_nil, or_false,
          false_or] at hother
        rw [hother, size_asciiText]
      · rw [size_asciiText]
        decide
    obtain ⟨-, herror, -, -⟩ := toBytes_fails_or_fills twoTooLong
    exact (herror _).2 (.inr ⟨by decide, 70000, hfirst, rfl⟩)

end ClassFile

end ClassImports
