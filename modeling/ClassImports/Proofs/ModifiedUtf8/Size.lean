import Mathlib
import ClassImports.Proofs.ModifiedUtf8.Malformed

/-!
# The size of text

How many octets a text takes is told by its characters (`length_encode`). Octets that are read and
written again take at most three times their room (`length_encode_decode_le`): a single octet that
is malformed becomes U+FFFD, which takes three, and no sequence grows by more. The step is
`length_encodeChar_sequence_le`.
-/

namespace ClassImports.ModifiedUtf8

/-! ## Characters -/

/-- How many octets a character takes. -/
def charSize (c : Char) : Nat :=
  if c.toNat = 0 then 2
  else if c.toNat ≤ 0x7F then 1
  else if c.toNat ≤ 0x7FF then 2
  else if c.toNat ≤ 0xFFFF then 3
  else 6

/-- How many octets a text takes. -/
def size (text : String) : Nat :=
  (text.toList.map charSize).sum

theorem length_encodeChar (c : Char) : (encodeChar c).length = charSize c := by
  unfold charSize
  split_ifs with hnul hsingle hdouble hunit
  · rw [encodeChar_nul hnul]
    rfl
  · rw [encodeChar_single (Nat.pos_of_ne_zero hnul) (Nat.lt_succ_of_le hsingle)]
    rfl
  · rw [encodeChar_double (Nat.lt_of_not_le hsingle) (Nat.lt_succ_of_le hdouble)]
    rfl
  · rw [encodeChar_unit (Nat.lt_of_not_le hdouble) (Nat.lt_succ_of_le hunit)]
    rfl
  · rw [encodeChar_pair (Nat.lt_of_not_le hunit)]
    rfl

theorem length_encode (text : String) : (encode text).length = size text := by
  unfold encode size
  rw [List.length_flatMap]
  simp only [length_encodeChar]

/-- A character that is no surrogate pair takes at most three octets. -/
theorem length_encodeChar_le_three {c : Char} (h : c.toNat < 0x10000) :
    (encodeChar c).length ≤ 3 := by
  rw [length_encodeChar, charSize]
  split_ifs <;> omega

theorem length_encodeChar_le_six (c : Char) : (encodeChar c).length ≤ 6 := by
  rw [length_encodeChar, charSize]
  split_ifs <;> omega

/-- The character whose number is that of an octet. -/
theorem toNat_ofNat_octet (octet : UInt8) : (Char.ofNat octet.toNat).toNat = octet.toNat := by
  have hlt := octet.toNat_lt
  exact toNat_ofNat_of_isValidChar (.inl (by omega))

/-! ## One sequence at a time -/

/-- A sequence is a single octet below `80` or has two octets at least. -/
theorem Readable.length_eq_one_or {form : Bytes} {c : Char} (h : Readable form c) :
    form.length = 1 ∧ c.toNat < 0x80 ∨ 2 ≤ form.length := by
  rcases h with h | h
  · cases h with
    | @single a ha =>
      refine .inl ⟨rfl, ?_⟩
      have hlead := UInt8.le_iff_toNat_le.1 ha.2
      rw [toNat_ofNat_octet]
      exact Nat.lt_succ_of_le hlead
    | nul => exact .inr (Nat.le_refl 2)
    | double => exact .inr (Nat.le_refl 2)
    | triple h => exact .inr (by rw [h.length_eq]; decide)
    | pair hfirst _ hsecond =>
      refine .inr ?_
      rw [List.length_append, hfirst.length_eq, hsecond.length_eq]
      decide
  · cases h with
    | double => exact .inr (Nat.le_refl 2)
    | triple h => exact .inr (by rw [h.length_eq]; decide)

theorem Readable.length_encodeChar_le {form : Bytes} {c : Char} (h : Readable form c) :
    (encodeChar c).length ≤ 3 * form.length := by
  rcases h.length_eq_one_or with ⟨hform, hsingle⟩ | hform
  · have hthree := length_encodeChar_le_three (c := c) (by omega)
    omega
  · have hsix := length_encodeChar_le_six c
    omega

/-- What is written for the character of a sequence is at most three times its octets, and so is
U+FFFD for an octet that is malformed. -/
theorem length_encodeChar_sequence_le (lead : UInt8) (rest : Bytes) :
    (encodeChar (sequence lead rest).1).length + 3 * (sequence lead rest).2.length ≤
      3 * (lead :: rest).length := by
  rcases sequence_eq_replacement_or lead rest with hmistake | ⟨form, hform, hsplit⟩
  · have hthree := length_encodeChar_le_three (c := replacement) (by decide)
    have hshorter := length_sequence_le lead rest
    rw [hmistake, List.length_cons]
    omega
  · have hgrowth := hform.length_encodeChar_le
    have hlength := congrArg List.length hsplit
    rw [List.length_append] at hlength
    omega

theorem length_flatMap_decodeSequences_le :
    ∀ bytes, ((decodeSequences bytes).flatMap encodeChar).length ≤ 3 * bytes.length
  | [] => by simp
  | lead :: rest => by
    have hshorter := length_sequence_le lead rest
    have hstep := length_encodeChar_sequence_le lead rest
    have hrest := length_flatMap_decodeSequences_le (sequence lead rest).2
    rw [decodeSequences_cons, List.flatMap_cons, List.length_append]
    omega
termination_by bytes => bytes.length

/-! ## As UTF-8 -/

theorem length_encodeChar_le_of_sequence {form : Bytes} {c : Char} (h : Utf8.Sequence form c) :
    (encodeChar c).length ≤ 3 * form.length := by
  have hsix := length_encodeChar_le_six c
  cases h with
  | @single a ha =>
    have hlt := a.toNat_lt
    exact length_encodeChar_le_three (by rw [toNat_ofNat_octet]; omega)
  | double => exact hsix
  | triple => exact Nat.le_trans hsix (Nat.le_add_right 6 3)
  | quadruple => exact Nat.le_trans hsix (Nat.le_add_right 6 6)

theorem length_flatMap_le_of_forall₂ {forms : List Bytes} {chars : List Char}
    (h : List.Forall₂ Utf8.Sequence forms chars) :
    (chars.flatMap encodeChar).length ≤ 3 * forms.flatten.length := by
  induction h with
  | nil => simp
  | cons hform hforms ih =>
    have hfirst := length_encodeChar_le_of_sequence hform
    rw [List.flatMap_cons, List.flatten_cons, List.length_append, List.length_append]
    omega

/-- **Text written again takes at most three times its octets**, whatever these are. -/
theorem length_encode_decode_le (payload : Bytes) :
    (encode (decode payload)).length ≤ 3 * payload.length := by
  rw [encode, decode, String.toList_ofList, decodeChars]
  cases h : decodePlain? payload with
  | none => exact length_flatMap_decodeSequences_le payload
  | some chars =>
    obtain ⟨-, hread⟩ := decodePlain?_eq_some h
    obtain ⟨forms, hforms, rfl⟩ := Utf8.sequences_of_decode? hread
    exact length_flatMap_le_of_forall₂ hforms

end ClassImports.ModifiedUtf8
