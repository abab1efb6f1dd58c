import Mathlib
import ClassImports.ModifiedUtf8
import ClassImports.Proofs.Text.Utf8

/-!
# Sequences of modified UTF-8

What one step of the reading does on each kind of sequence: a single octet
(`decodeSequences_single`), two octets (`decodeSequences_double`), a unit in three octets that is
no high surrogate (`decodeSequences_unit`), and a high surrogate with its low one
(`decodeSequences_pair`). Each is stated for any octets after the sequence. `encodeChar` is given by
the same kinds.
-/

namespace ClassImports.ModifiedUtf8

open Utf8 (isContinuation payload isContinuation_tail payload_tail payload_lt)

/-! ## Characters -/

theorem toNat_ofNat_of_isValidChar {n : Nat} (h : n.isValidChar) : (Char.ofNat n).toNat = n := by
  rw [Char.toNat_ofNat, if_pos h]

theorem ofScalar_of_isValidChar {n : Nat} (h : n.isValidChar) : ofScalar n = Char.ofNat n :=
  if_pos h

theorem ofScalar_toNat (c : Char) : ofScalar c.toNat = c :=
  (ofScalar_of_isValidChar c.valid).trans (Char.ofNat_toNat c)

/-- No character is a surrogate or above U+10FFFF. -/
theorem toNat_lt_or (c : Char) : c.toNat < 0xD800 ∨ 0xDFFF < c.toNat ∧ c.toNat < 0x110000 :=
  c.valid

/-! ## Surrogates -/

theorem isHighSurrogate_iff (unit : Nat) :
    isHighSurrogate unit = true ↔ 0xD800 ≤ unit ∧ unit ≤ 0xDBFF := by
  simp [isHighSurrogate]

theorem isLowSurrogate_iff (unit : Nat) :
    isLowSurrogate unit = true ↔ 0xDC00 ≤ unit ∧ unit ≤ 0xDFFF := by
  simp [isLowSurrogate]

/-! ## Units -/

theorem unit?_cons {a x y : UInt8} (ha : 0xE0 ≤ a ∧ a ≤ 0xEF) (hx : isContinuation x = true)
    (hy : isContinuation y = true) (rest : Bytes) :
    unit? (a :: x :: y :: rest) =
      some (a.toNat % 16 * 4096 + payload x * 64 + payload y, rest) := by
  simp [unit?, ha.1, ha.2, hx, hy]

/-- The octets of a unit start with a lead octet of three. -/
theorem lead_of_unit? {lead : UInt8} {rest after : Bytes} {unit : Nat}
    (h : unit? (lead :: rest) = some (unit, after)) : 0xE0 ≤ lead ∧ lead ≤ 0xEF := by
  unfold unit? at h
  grind

/-- A unit that was written is read again, whatever follows it. -/
theorem unit?_encodeUnit {unit : Nat} (h : unit < 0x10000) (rest : Bytes) :
    unit? (encodeUnit unit ++ rest) = some (unit, rest) := by
  have hlead : (UInt8.ofNat (0xE0 + unit / 4096)).toNat = 0xE0 + unit / 4096 :=
    UInt8.toNat_ofNat_of_lt' (show _ < 256 by omega)
  have hrange : 0xE0 ≤ UInt8.ofNat (0xE0 + unit / 4096) ∧
      UInt8.ofNat (0xE0 + unit / 4096) ≤ 0xEF := by
    simp only [UInt8.le_iff_toNat_le, hlead]
    exact ⟨Nat.le_add_right _ _, by simp; omega⟩
  have hvalue : (0xE0 + unit / 4096) % 16 * 4096 + unit / 64 % 64 * 64 + unit % 64 = unit := by
    omega
  show unit? (_ :: _ :: _ :: rest) = _
  rw [unit?_cons hrange (isContinuation_tail _) (isContinuation_tail _), hlead, payload_tail,
    payload_tail, hvalue]

/-! ## One step -/

theorem sequence_of_unit? {lead : UInt8} {rest after : Bytes} {unit : Nat}
    (h : unit? (lead :: rest) = some (unit, after)) :
    sequence lead rest =
      if isHighSurrogate unit then afterHigh unit after else (ofScalar unit, after) := by
  have hlead := lead_of_unit? h
  have hsingle : ¬(0x01 ≤ lead ∧ lead ≤ 0x7F) := by grind
  have hdouble : ¬(0xC0 ≤ lead ∧ lead ≤ 0xDF) := by grind
  simp only [sequence]
  rw [if_neg hsingle, if_neg hdouble, if_pos hlead, h]

theorem decodeSequences_single {lead : UInt8} (hlead : 0x01 ≤ lead ∧ lead ≤ 0x7F) (rest : Bytes) :
    decodeSequences (lead :: rest) = Char.ofNat lead.toNat :: decodeSequences rest := by
  have h : sequence lead rest = (Char.ofNat lead.toNat, rest) := by
    unfold sequence
    rw [if_pos hlead]
  rw [decodeSequences_cons, h]

theorem decodeSequences_double {lead x : UInt8} (hlead : 0xC0 ≤ lead ∧ lead ≤ 0xDF)
    (hx : isContinuation x = true) (rest : Bytes) :
    decodeSequences (lead :: x :: rest) =
      ofScalar (lead.toNat % 32 * 64 + payload x) :: decodeSequences rest := by
  have h : sequence lead (x :: rest) = (ofScalar (lead.toNat % 32 * 64 + payload x), rest) := by
    have hsingle : ¬(0x01 ≤ lead ∧ lead ≤ 0x7F) := by grind
    simp only [sequence]
    rw [if_neg hsingle, if_pos hlead, if_pos hx]
  rw [decodeSequences_cons, h]

theorem decodeSequences_unit {bytes after : Bytes} {unit : Nat}
    (h : unit? bytes = some (unit, after)) (hunit : isHighSurrogate unit = false) :
    decodeSequences bytes = ofScalar unit :: decodeSequences after := by
  cases bytes with
  | nil => cases h
  | cons lead rest =>
    rw [decodeSequences_cons, sequence_of_unit? h, hunit]
    rfl

theorem decodeSequences_pair {bytes middle after : Bytes} {high low : Nat}
    (h : unit? bytes = some (high, middle)) (hhigh : isHighSurrogate high = true)
    (hnext : unit? middle = some (low, after)) (hlow : isLowSurrogate low = true) :
    decodeSequences bytes =
      ofScalar (0x10000 + (high - 0xD800) * 1024 + (low - 0xDC00)) :: decodeSequences after := by
  cases bytes with
  | nil => cases h
  | cons lead rest =>
    have hpair : afterHigh high middle =
        (ofScalar (0x10000 + (high - 0xD800) * 1024 + (low - 0xDC00)), after) := by
      rw [afterHigh, hnext]
      exact if_pos hlow
    rw [decodeSequences_cons, sequence_of_unit? h, if_pos hhigh, hpair]

/-! ## Writing by kinds -/

theorem encodeChar_nul {c : Char} (h : c.toNat = 0) : encodeChar c = [0xC0, 0x80] :=
  if_pos h

theorem encodeChar_single {c : Char} (hpos : 0 < c.toNat) (h : c.toNat < 0x80) :
    encodeChar c = [UInt8.ofNat c.toNat] := by
  rw [encodeChar, if_neg (by omega), if_pos (by omega), Utf8.encodeChar, if_pos h]

theorem encodeChar_double {c : Char} (hlow : 0x80 ≤ c.toNat) (h : c.toNat < 0x800) :
    encodeChar c = [UInt8.ofNat (0xC0 + c.toNat / 64), UInt8.ofNat (0x80 + c.toNat % 64)] := by
  rw [encodeChar, if_neg (by omega), if_pos (by omega), Utf8.encodeChar, if_neg (by omega),
    if_pos h]

theorem encodeChar_unit {c : Char} (hlow : 0x800 ≤ c.toNat) (h : c.toNat < 0x10000) :
    encodeChar c = encodeUnit c.toNat := by
  rw [encodeChar, if_neg (by omega), if_pos h, Utf8.encodeChar, if_neg (by omega),
    if_neg (by omega), if_pos h]
  rfl

theorem encodeChar_pair {c : Char} (h : 0x10000 ≤ c.toNat) :
    encodeChar c = encodeUnit (0xD800 + (c.toNat - 0x10000) / 1024) ++
      encodeUnit (0xDC00 + (c.toNat - 0x10000) % 1024) := by
  rw [encodeChar, if_neg (by omega), if_neg (by omega)]

end ClassImports.ModifiedUtf8
