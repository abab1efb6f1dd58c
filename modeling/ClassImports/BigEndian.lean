/-!
# Big-endian words

A class file writes every number as a fixed count of octets, most significant first. `encode w n`
gives the `w` octets of `n` and `decode` reads octets back as a number; each undoes the other on
the numbers that fit.
-/

namespace ClassImports

/-- The octets of a file or of a part of it. -/
abbrev Bytes := List UInt8

namespace BigEndian

/-- The `width` octets of `n`, most significant first; what does not fit is dropped at the top. -/
def encode : (width : Nat) → (n : Nat) → Bytes
  | 0, _ => []
  | width + 1, n => UInt8.ofNat (n >>> (8 * width)) :: encode width n

/-- The number that octets stand for, most significant first. -/
def decode (bytes : Bytes) : Nat :=
  bytes.foldl (fun n byte => 256 * n + byte.toNat) 0

@[simp] theorem encode_zero (n : Nat) : encode 0 n = [] := rfl

@[simp] theorem length_encode (width n : Nat) : (encode width n).length = width := by
  induction width with
  | zero => rfl
  | succ width ih => rw [encode, List.length_cons, ih]

@[simp] theorem decode_nil : decode [] = 0 := rfl

theorem decode_append_singleton (bytes : Bytes) (byte : UInt8) :
    decode (bytes ++ [byte]) = 256 * decode bytes + byte.toNat := by
  simp [decode]

end BigEndian

end ClassImports
