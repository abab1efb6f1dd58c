import Mathlib
import ClassImports.Proofs.ModifiedUtf8.RoundTrip

/-!
# UTF-8 read as modified UTF-8

What becomes of a text whose octets are UTF-8. Read one sequence at a time, its characters are
themselves but for those that the modified form writes otherwise: NUL reads as U+FFFD, and a
character above U+FFFF as four of them (`decodeSequences_encode_standard`). Octets that can be taken
as UTF-8 escape this, and those of a text can if it holds neither NUL nor a character of the block
of octet `ED` (`any_isTelling_encode_iff`). So a text reads as itself unless it holds NUL, or
characters of both kinds (`decode_toUTF8_eq_self_iff`).
-/

namespace ClassImports.ModifiedUtf8

open Utf8 (isContinuation isContinuation_iff isContinuation_tail)

/-- What a character in UTF-8 reads as, one sequence at a time. -/
def readAsModified (c : Char) : List Char :=
  if c = '\x00' then [replacement]
  else if 0xFFFF < c.toNat then List.replicate 4 replacement
  else [c]

theorem eq_nul_iff (c : Char) : c = '\x00' ↔ c.toNat = 0 :=
  Char.toNat_inj.symm

/-! ## One sequence at a time -/

/-- An octet that starts no sequence reads as U+FFFD, and the reading goes on after it. -/
theorem decodeSequences_stray {octet : UInt8}
    (h : octet = 0x00 ∨ isContinuation octet = true ∨ 0xF0 ≤ octet) (rest : Bytes) :
    decodeSequences (octet :: rest) = replacement :: decodeSequences rest := by
  have hsequence : sequence octet rest = (replacement, rest) := by
    simp only [isContinuation, Bool.and_eq_true, decide_eq_true_eq] at h
    unfold sequence
    rw [if_neg (by grind), if_neg (by grind), if_neg (by grind)]
  rw [decodeSequences_cons, hsequence]

/-- The UTF-8 octets of a character above U+FFFF are strays, all four. -/
theorem decodeSequences_of_lt_toNat {c : Char} (h : 0xFFFF < c.toNat) (rest : Bytes) :
    decodeSequences (Utf8.encodeChar c ++ rest) =
      List.replicate 4 replacement ++ decodeSequences rest := by
  have hvalid := toNat_lt_or c
  have hlead : 0xF0 ≤ UInt8.ofNat (0xF0 + c.toNat / 262144) := by
    rw [UInt8.le_iff_toNat_le, UInt8.toNat_ofNat_of_lt' (show _ < 256 by omega)]
    exact Nat.le_add_right _ _
  have htail : ∀ n rest, decodeSequences (UInt8.ofNat (0x80 + n % 64) :: rest) =
      replacement :: decodeSequences rest :=
    fun n => decodeSequences_stray (.inr (.inl (isContinuation_tail n)))
  unfold Utf8.encodeChar
  simp only
  rw [if_neg (by omega), if_neg (by omega), if_neg (by omega)]
  simp only [List.cons_append, List.nil_append]
  rw [decodeSequences_stray (.inr (.inr hlead)), htail, htail, htail]
  rfl

theorem decodeSequences_standard (c : Char) (rest : Bytes) :
    decodeSequences (Utf8.encodeChar c ++ rest) = readAsModified c ++ decodeSequences rest := by
  unfold readAsModified
  split
  · next hnul =>
    subst hnul
    exact decodeSequences_stray (.inl rfl) rest
  · next hnul =>
    split
    · next habove => exact decodeSequences_of_lt_toNat habove rest
    · next hbelow =>
      -- both forms write the other characters alike
      have hsame : encodeChar c = Utf8.encodeChar c := by
        rw [encodeChar, if_neg fun h => hnul ((eq_nul_iff c).2 h), if_pos (by omega)]
      rw [← hsame]
      exact decodeSequences_encodeChar c rest

theorem decodeSequences_encode_standard (chars : List Char) :
    decodeSequences (Utf8.encode chars) = chars.flatMap readAsModified := by
  induction chars with
  | nil => exact decodeSequences_nil
  | cons c chars ih =>
    show decodeSequences (Utf8.encodeChar c ++ Utf8.encode chars) = _
    rw [decodeSequences_standard, ih, List.flatMap_cons]

theorem mem_readAsModified {c d : Char} (h : c ∈ readAsModified d) :
    c ≠ '\x00' ∧ ¬ 0xFFFF < c.toNat := by
  unfold readAsModified at h
  split at h
  · cases List.mem_singleton.1 h
    decide
  · next hnul =>
    split at h
    · cases List.eq_of_mem_replicate h
      decide
    · next hbelow =>
      cases List.mem_singleton.1 h
      exact ⟨hnul, hbelow⟩

/-- Exactly the texts without the characters that the two forms write differently are kept. -/
theorem flatMap_readAsModified_eq_self_iff (chars : List Char) :
    chars.flatMap readAsModified = chars ↔
      '\x00' ∉ chars ∧ ¬ ∃ c ∈ chars, 0xFFFF < c.toNat := by
  constructor
  · intro hself
    have hkept : ∀ c ∈ chars, c ≠ '\x00' ∧ ¬ 0xFFFF < c.toNat := by
      intro c hc
      rw [← hself, List.mem_flatMap] at hc
      obtain ⟨d, -, hd⟩ := hc
      exact mem_readAsModified hd
    exact ⟨fun hnul => (hkept _ hnul).1 rfl, fun ⟨c, hc, habove⟩ => (hkept c hc).2 habove⟩
  · rintro ⟨hnul, habove⟩
    have hsingle : ∀ c ∈ chars, readAsModified c = [c] := by
      intro c hc
      unfold readAsModified
      have hne : c ≠ '\x00' := fun h => hnul (h ▸ hc)
      rw [if_neg hne, if_neg fun h => habove ⟨c, hc, h⟩]
    rw [List.flatMap_congr hsingle, List.flatMap_singleton']

/-! ## Taken as UTF-8 -/

theorem isTelling_ofNat_iff {n : Nat} (h : n < 256) :
    isTelling (UInt8.ofNat n) = true ↔ n = 0x00 ∨ n = 0xC0 ∨ n = 0xED := by
  have hn : (UInt8.ofNat n).toNat = n := UInt8.toNat_ofNat_of_lt' h
  simp only [isTelling, Bool.or_eq_true, decide_eq_true_eq, ← UInt8.toNat_inj, hn,
    UInt8.reduceToNat, or_assoc]

/-- Of all characters NUL and the block from U+D000 to U+D7FF, which octet `ED` leads, have a
telling octet. -/
theorem any_isTelling_encodeChar_iff (c : Char) :
    (Utf8.encodeChar c).any isTelling = true ↔
      c = '\x00' ∨ 0xD000 ≤ c.toNat ∧ c.toNat ≤ 0xD7FF := by
  have hvalid := toNat_lt_or c
  rw [eq_nul_iff]
  unfold Utf8.encodeChar
  simp only
  split
  · rw [List.any_cons, List.any_nil, Bool.or_false, isTelling_ofNat_iff (by omega)]
    omega
  split
  · simp only [List.any_cons, List.any_nil, Bool.or_false, Bool.or_eq_true]
    rw [isTelling_ofNat_iff (by omega), isTelling_ofNat_iff (by omega)]
    omega
  split
  · simp only [List.any_cons, List.any_nil, Bool.or_false, Bool.or_eq_true]
    rw [isTelling_ofNat_iff (by omega), isTelling_ofNat_iff (by omega),
      isTelling_ofNat_iff (by omega)]
    omega
  · simp only [List.any_cons, List.any_nil, Bool.or_false, Bool.or_eq_true]
    rw [isTelling_ofNat_iff (by omega), isTelling_ofNat_iff (by omega),
      isTelling_ofNat_iff (by omega), isTelling_ofNat_iff (by omega)]
    omega

theorem any_isTelling_encode_iff (chars : List Char) :
    (Utf8.encode chars).any isTelling = true ↔
      '\x00' ∈ chars ∨ ∃ c ∈ chars, 0xD000 ≤ c.toNat ∧ c.toNat ≤ 0xD7FF := by
  rw [Utf8.encode, List.any_flatMap, List.any_eq_true]
  simp only [any_isTelling_encodeChar_iff, and_or_left, exists_or, exists_eq_right]

/-- **UTF-8 read as modified UTF-8.** Read one sequence at a time, the UTF-8 octets of a text give
each character, U+FFFD for NUL, and U+FFFD four times for a character above U+FFFF. As `decode` may
take them as UTF-8 instead, it gives the text itself exactly if there is no NUL in it, and not both
a character above U+FFFF and one of the block from U+D000 to U+D7FF. -/
theorem decode_toUTF8_eq_self_iff (text : String) :
    decodeSequences text.toUTF8.data.toList = text.toList.flatMap readAsModified ∧
      (decode text.toUTF8.data.toList = text ↔
        '\x00' ∉ text.toList ∧
          ¬((∃ c ∈ text.toList, 0xFFFF < c.toNat) ∧
            ∃ c ∈ text.toList, 0xD000 ≤ c.toNat ∧ c.toNat ≤ 0xD7FF)) := by
  rw [← Utf8.encode_toList]
  have hslow := decodeSequences_encode_standard text.toList
  refine ⟨hslow, ?_⟩
  have hself : decode (Utf8.encode text.toList) = text ↔
      decodeChars (Utf8.encode text.toList) = text.toList := by
    rw [decode, ← String.toList_inj, String.toList_ofList]
  rw [hself, decodeChars, decodePlain?]
  by_cases htelling : (Utf8.encode text.toList).any isTelling = true
  · rw [if_pos htelling, Option.getD_none, hslow, flatMap_readAsModified_eq_self_iff]
    rw [any_isTelling_encode_iff] at htelling
    -- without NUL it is a character of the block that keeps the octets from being taken as UTF-8
    refine and_congr_right fun hnul => not_congr ⟨fun habove => ⟨habove, ?_⟩, And.left⟩
    exact htelling.resolve_left hnul
  · rw [if_neg htelling, Utf8.decode?_encode, Option.getD_some]
    rw [any_isTelling_encode_iff, not_or] at htelling
    exact iff_of_true rfl ⟨htelling.1, fun hboth => htelling.2 hboth.2⟩

end ClassImports.ModifiedUtf8
