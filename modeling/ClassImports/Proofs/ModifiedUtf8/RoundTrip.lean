import Mathlib
import ClassImports.Proofs.ModifiedUtf8.Sequence

/-!
# Modified UTF-8 reads back

* `decodeSequences_encode`: read one sequence at a time, what was written for a text is the text.
  The step is `decodeSequences_encodeChar`: after the octets of a character the reading stands
  exactly at the next one.
* `decodeSequences_of_decodePlain?`: where octets below `F0` can be taken as UTF-8, both readings
  agree, so that it does not matter which of them is taken (`decodeChars_eq_decodeSequences`).
* `decode_encode_text`: reading undoes writing, by either reading, and nothing that is written
  holds an octet `00` or one from `F0` on.
-/

namespace ClassImports.ModifiedUtf8

open Utf8 (isContinuation payload isContinuation_tail payload_tail payload_lt)

/-! ## Reading what was written -/

/-- The octets of a character read as that character, and the reading goes on after them. -/
theorem decodeSequences_encodeChar (c : Char) (rest : Bytes) :
    decodeSequences (encodeChar c ++ rest) = c :: decodeSequences rest := by
  have hvalid := toNat_lt_or c
  by_cases hnul : c.toNat = 0
  · have hc : ofScalar 0 = c := hnul ▸ ofScalar_toNat c
    rw [encodeChar_nul hnul]
    exact (decodeSequences_double (by decide) (by decide) rest).trans
      (congrArg (· :: decodeSequences rest) hc)
  by_cases hsingle : c.toNat < 0x80
  · have hlead : (UInt8.ofNat c.toNat).toNat = c.toNat :=
      UInt8.toNat_ofNat_of_lt' (show _ < 256 by omega)
    have hrange : 0x01 ≤ UInt8.ofNat c.toNat ∧ UInt8.ofNat c.toNat ≤ 0x7F := by
      simp only [UInt8.le_iff_toNat_le, hlead]
      exact ⟨Nat.pos_of_ne_zero hnul, Nat.le_of_lt_succ hsingle⟩
    rw [encodeChar_single (Nat.pos_of_ne_zero hnul) hsingle]
    show decodeSequences (_ :: rest) = _
    rw [decodeSequences_single hrange, hlead, Char.ofNat_toNat]
  by_cases hdouble : c.toNat < 0x800
  · have hlead : (UInt8.ofNat (0xC0 + c.toNat / 64)).toNat = 0xC0 + c.toNat / 64 :=
      UInt8.toNat_ofNat_of_lt' (show _ < 256 by omega)
    have hrange : 0xC0 ≤ UInt8.ofNat (0xC0 + c.toNat / 64) ∧
        UInt8.ofNat (0xC0 + c.toNat / 64) ≤ 0xDF := by
      simp only [UInt8.le_iff_toNat_le, hlead]
      exact ⟨Nat.le_add_right _ _, by simp; omega⟩
    have hvalue : (0xC0 + c.toNat / 64) % 32 * 64 + c.toNat % 64 = c.toNat := by omega
    rw [encodeChar_double (Nat.le_of_not_lt hsingle) hdouble]
    show decodeSequences (_ :: _ :: rest) = _
    rw [decodeSequences_double hrange (isContinuation_tail _), hlead, payload_tail, hvalue,
      ofScalar_toNat]
  by_cases hplane : c.toNat < 0x10000
  · have hunit : isHighSurrogate c.toNat = false := by
      rw [← Bool.not_eq_true, isHighSurrogate_iff]
      omega
    rw [encodeChar_unit (Nat.le_of_not_lt hdouble) hplane,
      decodeSequences_unit (unit?_encodeUnit hplane rest) hunit, ofScalar_toNat]
  · have hhigh : isHighSurrogate (0xD800 + (c.toNat - 0x10000) / 1024) = true := by
      rw [isHighSurrogate_iff]
      omega
    have hlow : isLowSurrogate (0xDC00 + (c.toNat - 0x10000) % 1024) = true := by
      rw [isLowSurrogate_iff]
      omega
    have hvalue : 0x10000 + (0xD800 + (c.toNat - 0x10000) / 1024 - 0xD800) * 1024 +
        (0xDC00 + (c.toNat - 0x10000) % 1024 - 0xDC00) = c.toNat := by omega
    rw [encodeChar_pair (Nat.le_of_not_lt hplane), List.append_assoc,
      decodeSequences_pair (unit?_encodeUnit (by omega) _) hhigh (unit?_encodeUnit (by omega) rest)
        hlow, hvalue, ofScalar_toNat]

/-- Read one sequence at a time, what was written for a text is the text. -/
theorem decodeSequences_encode (text : String) : decodeSequences (encode text) = text.toList := by
  have h : ∀ chars : List Char, decodeSequences (chars.flatMap encodeChar) = chars := by
    intro chars
    induction chars with
    | nil => exact decodeSequences_nil
    | cons c chars ih => rw [List.flatMap_cons, decodeSequences_encodeChar, ih]
  exact h text.toList

/-! ## Octets that are written -/

theorem ofNat_ne_zero_lt {n : Nat} (hpos : 0 < n) (h : n < 0xF0) :
    UInt8.ofNat n ≠ 0x00 ∧ UInt8.ofNat n < 0xF0 := by
  have hn : (UInt8.ofNat n).toNat = n := UInt8.toNat_ofNat_of_lt' (show n < 256 by omega)
  constructor
  · intro hzero
    rw [hzero] at hn
    exact absurd hn.symm (Nat.ne_of_gt hpos)
  · rw [UInt8.lt_iff_toNat_lt, hn]
    exact h

theorem ne_zero_lt_of_mem_encodeUnit {unit : Nat} (h : unit < 0x10000) {octet : UInt8}
    (hoctet : octet ∈ encodeUnit unit) : octet ≠ 0x00 ∧ octet < 0xF0 := by
  simp only [encodeUnit, List.mem_cons, List.not_mem_nil, or_false] at hoctet
  rcases hoctet with rfl | rfl | rfl
  · exact ofNat_ne_zero_lt (by omega) (by omega)
  · exact ofNat_ne_zero_lt (by omega) (by omega)
  · exact ofNat_ne_zero_lt (by omega) (by omega)

/-- What is written for a character holds neither `00` nor an octet from `F0` on. -/
theorem ne_zero_lt_of_mem_encodeChar {c : Char} {octet : UInt8} (hoctet : octet ∈ encodeChar c) :
    octet ≠ 0x00 ∧ octet < 0xF0 := by
  have hvalid := toNat_lt_or c
  by_cases hnul : c.toNat = 0
  · rw [encodeChar_nul hnul, List.mem_pair] at hoctet
    rcases hoctet with rfl | rfl
    · decide
    · decide
  by_cases hsingle : c.toNat < 0x80
  · rw [encodeChar_single (Nat.pos_of_ne_zero hnul) hsingle, List.mem_singleton] at hoctet
    exact hoctet ▸ ofNat_ne_zero_lt (by omega) (by omega)
  by_cases hdouble : c.toNat < 0x800
  · rw [encodeChar_double (Nat.le_of_not_lt hsingle) hdouble, List.mem_pair] at hoctet
    rcases hoctet with rfl | rfl
    · exact ofNat_ne_zero_lt (by omega) (by omega)
    · exact ofNat_ne_zero_lt (by omega) (by omega)
  by_cases hplane : c.toNat < 0x10000
  · rw [encodeChar_unit (Nat.le_of_not_lt hdouble) hplane] at hoctet
    exact ne_zero_lt_of_mem_encodeUnit hplane hoctet
  · rw [encodeChar_pair (Nat.le_of_not_lt hplane), List.mem_append] at hoctet
    rcases hoctet with hhigh | hlow
    · exact ne_zero_lt_of_mem_encodeUnit (by omega) hhigh
    · exact ne_zero_lt_of_mem_encodeUnit (by omega) hlow

/-- What is written for a text holds neither `00` nor an octet from `F0` on. -/
theorem ne_zero_lt_of_mem_encode {text : String} {octet : UInt8} (hoctet : octet ∈ encode text) :
    octet ≠ 0x00 ∧ octet < 0xF0 := by
  obtain ⟨c, _, hc⟩ := List.mem_flatMap.1 hoctet
  exact ne_zero_lt_of_mem_encodeChar hc

/-! ## The two readings -/

/-- A well-formed sequence of octets below `F0`, none of which tells of the modified form, reads as
the same character one sequence at a time. -/
theorem decodeSequences_of_sequence {form : Bytes} {c : Char} (h : Utf8.Sequence form c)
    (hbelow : ∀ octet ∈ form, octet < 0xF0) (hplain : ∀ octet ∈ form, isTelling octet = false)
    (rest : Bytes) : decodeSequences (form ++ rest) = c :: decodeSequences rest := by
  cases h with
  | @single a ha =>
    have hlead := hplain a List.mem_cons_self
    exact decodeSequences_single (by simp [isTelling] at hlead; grind) rest
  | @double a x ha hx =>
    have hvalid : (a.toNat % 32 * 64 + payload x).isValidChar := by
      have := payload_lt x
      exact .inl (by omega)
    rw [← ofScalar_of_isValidChar hvalid]
    exact decodeSequences_double (by grind) hx rest
  | @triple a x y ha hx hy hshortest hsurrogate =>
    have hlead := hplain a List.mem_cons_self
    -- `ED` is the lead octet of all surrogates, and it is one of the telling octets
    have hnibble : a.toNat % 16 ≠ 13 := by
      intro h
      have := UInt8.le_iff_toNat_le.1 ha.1
      have := UInt8.lt_iff_toNat_lt.1 ha.2
      have : a = 0xED := UInt8.toNat_inj.1 (by simp at *; omega)
      subst this
      exact absurd hlead (by decide)
    have hx' := payload_lt x
    have hy' := payload_lt y
    have hunit : isHighSurrogate (a.toNat % 16 * 4096 + payload x * 64 + payload y) = false := by
      rw [← Bool.not_eq_true, isHighSurrogate_iff]
      omega
    have hvalid : (a.toNat % 16 * 4096 + payload x * 64 + payload y).isValidChar := by
      by_cases h : a.toNat % 16 < 13
      · exact .inl (by omega)
      · exact .inr ⟨by omega, by omega⟩
    rw [← ofScalar_of_isValidChar hvalid]
    exact decodeSequences_unit (unit?_cons (by grind) hx hy rest) hunit
  | @quadruple a x y z ha =>
    exact absurd (hbelow a List.mem_cons_self) (UInt8.not_lt.2 ha.1)

/-- Octets are taken as UTF-8 only if none of them tells of the modified form. -/
theorem decodePlain?_eq_some {bytes : Bytes} {chars : List Char}
    (h : decodePlain? bytes = some chars) :
    (∀ octet ∈ bytes, isTelling octet = false) ∧ Utf8.decode? bytes = some chars := by
  unfold decodePlain? at h
  split at h
  · cases h
  · next htelling =>
    simp only [Bool.not_eq_true, List.any_eq_false] at htelling
    exact ⟨fun octet hoctet => by simpa using htelling octet hoctet, h⟩

/-- Where octets below `F0` can be taken as UTF-8, this is how they read one sequence at a time. -/
theorem decodeSequences_of_decodePlain? {bytes : Bytes} {chars : List Char}
    (h : decodePlain? bytes = some chars) (hbelow : ∀ octet ∈ bytes, octet < 0xF0) :
    decodeSequences bytes = chars := by
  obtain ⟨hplain, hread⟩ := decodePlain?_eq_some h
  obtain ⟨forms, hforms, rfl⟩ := Utf8.sequences_of_decode? hread
  clear h hread
  induction hforms with
  | nil => exact decodeSequences_nil
  | cons hform hforms ih =>
    rw [List.flatten_cons] at hbelow hplain ⊢
    rw [List.forall_mem_append] at hbelow hplain
    rw [decodeSequences_of_sequence hform hbelow.1 hplain.1, ih hbelow.2 hplain.2]

/-- On octets below `F0` it does not matter which reading is taken. -/
theorem decodeChars_eq_decodeSequences {bytes : Bytes} (hbelow : ∀ octet ∈ bytes, octet < 0xF0) :
    decodeChars bytes = decodeSequences bytes := by
  rw [decodeChars]
  cases h : decodePlain? bytes with
  | none => rfl
  | some chars => exact (decodeSequences_of_decodePlain? h hbelow).symm

/-! ## The round trip -/

theorem decode_encode_eq (text : String) : decode (encode text) = text := by
  have hbelow : ∀ octet ∈ encode text, octet < 0xF0 := fun _ h => (ne_zero_lt_of_mem_encode h).2
  rw [decode, decodeChars_eq_decodeSequences hbelow, decodeSequences_encode, String.ofList_toList]

/-- **Reading undoes writing**, for every text and by either reading: the octets of a text read as
that text one sequence at a time, and as UTF-8 too if they can be taken as UTF-8. No octet that is
written is `00` or one of `F0` to `FF`. -/
theorem decode_encode_text (text : String) :
    decode (encode text) = text ∧
      decodeSequences (encode text) = text.toList ∧
      (∀ chars, decodePlain? (encode text) = some chars → chars = text.toList) ∧
      ∀ octet ∈ encode text, octet ≠ 0x00 ∧ octet < 0xF0 := by
  have hbelow : ∀ octet ∈ encode text, octet ≠ 0x00 ∧ octet < 0xF0 :=
    fun _ h => ne_zero_lt_of_mem_encode h
  refine ⟨decode_encode_eq text, decodeSequences_encode text, ?_, hbelow⟩
  intro chars hchars
  rw [← decodeSequences_encode text,
    decodeSequences_of_decodePlain? hchars fun octet h => (hbelow octet h).2]

/-- The first text has characters of all kinds and is read one sequence at a time; the second one
is taken as UTF-8. -/
theorem decode_encode_text_mixed :
    decode (encode "a\x00é\uD7FF\uFFFD😀") = "a\x00é\uD7FF\uFFFD😀" ∧
      decodePlain? (encode "é") = some ['é'] ∧ ['é'] = "é".toList ∧
      0xC3 ∈ encode "é" ∧ (0xC3 ≠ (0x00 : UInt8) ∧ (0xC3 : UInt8) < 0xF0) := by
  have hplain : decodePlain? (encode "é") = some ['é'] := by cbv
  have hmem : 0xC3 ∈ encode "é" := by decide
  obtain ⟨-, -, hchars, hoctets⟩ := decode_encode_text "é"
  exact ⟨(decode_encode_text _).1, hplain, hchars _ hplain, hmem, hoctets _ hmem⟩

end ClassImports.ModifiedUtf8
