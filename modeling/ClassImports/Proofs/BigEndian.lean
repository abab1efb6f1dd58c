import Mathlib
import ClassImports.BigEndian

/-!
# Big-endian words read back

Octets are a number in base 256, so `encode` and `decode` undo each other on the numbers that fit:
`decode_encode` and `encode_decode`.
-/

namespace ClassImports.BigEndian

/-- The first octet of a number is its quotient by what the other octets can count. -/
theorem encode_succ (width n : Nat) :
    encode (width + 1) n = UInt8.ofNat (n / 256 ^ width) :: encode width n := by
  rw [encode, Nat.shiftRight_eq_div_pow, Nat.pow_mul]

theorem foldl_eq_add_decode (start : Nat) (bytes : Bytes) :
    bytes.foldl (fun n byte => 256 * n + byte.toNat) start =
      start * 256 ^ bytes.length + decode bytes := by
  induction bytes generalizing start with
  | nil => simp
  | cons byte bytes ih =>
    have hdecode : decode (byte :: bytes) = byte.toNat * 256 ^ bytes.length + decode bytes := by
      show bytes.foldl _ (256 * 0 + byte.toNat) = _
      rw [ih, Nat.mul_zero, Nat.zero_add]
    rw [List.foldl_cons, ih, hdecode, List.length_cons, Nat.pow_succ]
    grind

theorem decode_cons (byte : UInt8) (bytes : Bytes) :
    decode (byte :: bytes) = byte.toNat * 256 ^ bytes.length + decode bytes := by
  show bytes.foldl _ (256 * 0 + byte.toNat) = _
  rw [foldl_eq_add_decode, Nat.mul_zero, Nat.zero_add]

theorem decode_lt (bytes : Bytes) : decode bytes < 256 ^ bytes.length := by
  induction bytes with
  | nil => simp
  | cons byte bytes ih =>
    have hbyte : byte.toNat + 1 ≤ 256 := byte.toNat_lt
    have h := Nat.mul_le_mul_right (256 ^ bytes.length) hbyte
    rw [Nat.add_mul] at h
    rw [decode_cons, List.length_cons, Nat.pow_succ]
    omega

/-- Reading undoes writing on the numbers that fit, and reduces the others to the width. -/
theorem decode_encode (width n : Nat) : decode (encode width n) = n % 256 ^ width := by
  induction width with
  | zero => simp [Nat.mod_one]
  | succ width ih =>
    rw [encode_succ, decode_cons, length_encode, ih, Nat.mod_pow_succ, UInt8.toNat_ofNat']
    grind

theorem encode_add_mul_pow {width high : Nat} (h : width ≤ high) (n k : Nat) :
    encode width (n + k * 256 ^ high) = encode width n := by
  induction width with
  | zero => rfl
  | succ width ih =>
    rw [encode_succ, encode_succ, ih (by omega)]
    obtain ⟨d, rfl⟩ := Nat.exists_eq_add_of_le h
    have hpow : k * 256 ^ (width + 1 + d) = k * 256 ^ d * 256 * 256 ^ width := by
      rw [Nat.pow_add, Nat.pow_succ]
      grind
    rw [hpow, Nat.add_mul_div_right _ _ (Nat.pow_pos (by decide))]
    congr 1
    apply UInt8.toNat_inj.1
    simp

/-- Writing undoes reading, at the width that was read. -/
theorem encode_decode (bytes : Bytes) : encode bytes.length (decode bytes) = bytes := by
  induction bytes with
  | nil => rfl
  | cons byte bytes ih =>
    have hlt := decode_lt bytes
    rw [List.length_cons, encode_succ, decode_cons, Nat.add_comm,
      encode_add_mul_pow (Nat.le_refl _), ih,
      Nat.add_mul_div_right _ _ (Nat.pow_pos (by decide)), Nat.div_eq_of_lt hlt, Nat.zero_add]
    simp

end ClassImports.BigEndian
