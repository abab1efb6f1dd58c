import Mathlib
import ClassImports.Text.Utf8

/-!
# The order of octets

Of two characters the one with the greater number has the greater octets, whatever follows them
(`encodeChar_append_lt`). So texts are in the order of their characters exactly if they are in the
order of their octets (`encode_lt_encode_iff`).
-/

namespace ClassImports.Utf8

variable {rest others : Bytes}

/-- The first octets decide if they differ, and otherwise what follows them. -/
theorem ofNat_cons_lt {a b : Nat} (hb : b < 256) (h : a < b ∨ a = b ∧ rest < others) :
    UInt8.ofNat a :: rest < UInt8.ofNat b :: others := by
  rw [List.cons_lt_cons_iff]
  rcases h with h | ⟨rfl, h⟩
  · left
    rw [UInt8.lt_iff_toNat_lt, UInt8.toNat_ofNat_of_lt' (show a < 256 by omega),
      UInt8.toNat_ofNat_of_lt' hb]
    exact h
  · exact .inr ⟨rfl, h⟩

/-- Octets with the same marker are in the order of the bits they carry. -/
theorem marked_cons_lt {marker m n : Nat} (hn : marker + n < 256)
    (h : m < n ∨ m = n ∧ rest < others) :
    UInt8.ofNat (marker + m) :: rest < UInt8.ofNat (marker + n) :: others := by
  apply ofNat_cons_lt hn
  rcases h with h | ⟨rfl, h⟩
  · exact .inl (Nat.add_lt_add_left h marker)
  · exact .inr ⟨rfl, h⟩

theorem tail_cons_lt {m n : Nat} (h : m % 64 < n % 64 ∨ m % 64 = n % 64 ∧ rest < others) :
    UInt8.ofNat (0x80 + m % 64) :: rest < UInt8.ofNat (0x80 + n % 64) :: others :=
  marked_cons_lt (by omega) h

theorem encodeChar_append_lt {c d : Char} (h : c < d) (rest others : Bytes) :
    encodeChar c ++ rest < encodeChar d ++ others := by
  have hlt : c.toNat < d.toNat := h
  have hd : d.toNat < 0x110000 := by
    have hvalid : d.toNat < 0xD800 ∨ 0xDFFF < d.toNat ∧ d.toNat < 0x110000 := d.valid
    omega
  unfold encodeChar
  generalize c.toNat = m at hlt
  generalize d.toNat = n at hlt hd
  -- where the characters have different numbers of octets, the first ones differ
  simp only
  split
  · split
    · exact ofNat_cons_lt (by omega) (.inl hlt)
    · split
      · exact ofNat_cons_lt (by omega) (.inl (by omega))
      · split
        · exact ofNat_cons_lt (by omega) (.inl (by omega))
        · exact ofNat_cons_lt (by omega) (.inl (by omega))
  rw [if_neg (show ¬n < 0x80 by omega)]
  split
  · split
    · have hdigits : m / 64 < n / 64 ∨ m / 64 = n / 64 ∧ m % 64 < n % 64 := by omega
      apply marked_cons_lt (by omega)
      exact hdigits.imp_right (And.imp_right fun hlast => tail_cons_lt (.inl hlast))
    · split
      · exact ofNat_cons_lt (by omega) (.inl (by omega))
      · exact ofNat_cons_lt (by omega) (.inl (by omega))
  rw [if_neg (show ¬n < 0x800 by omega)]
  split
  · split
    · have hdigits : m / 4096 < n / 4096 ∨ m / 4096 = n / 4096 ∧ (m / 64 % 64 < n / 64 % 64 ∨
          m / 64 % 64 = n / 64 % 64 ∧ m % 64 < n % 64) := by omega
      apply marked_cons_lt (by omega)
      refine hdigits.imp_right (And.imp_right fun hnext => tail_cons_lt ?_)
      exact hnext.imp_right (And.imp_right fun hlast => tail_cons_lt (.inl hlast))
    · exact ofNat_cons_lt (by omega) (.inl (by omega))
  rw [if_neg (show ¬n < 0x10000 by omega)]
  have hdigits : m / 262144 < n / 262144 ∨ m / 262144 = n / 262144 ∧
      (m / 4096 % 64 < n / 4096 % 64 ∨ m / 4096 % 64 = n / 4096 % 64 ∧
        (m / 64 % 64 < n / 64 % 64 ∨ m / 64 % 64 = n / 64 % 64 ∧ m % 64 < n % 64)) := by omega
  apply marked_cons_lt (by omega)
  refine hdigits.imp_right (And.imp_right fun hnext => tail_cons_lt ?_)
  refine hnext.imp_right (And.imp_right fun hnext => tail_cons_lt ?_)
  exact hnext.imp_right (And.imp_right fun hlast => tail_cons_lt (.inl hlast))

theorem encodeChar_ne_nil (c : Char) : encodeChar c ≠ [] := by
  unfold encodeChar
  simp only
  split_ifs <;> exact List.cons_ne_nil _ _

theorem encode_lt_encode {text other : List Char} (h : text < other) :
    encode text < encode other := by
  induction text generalizing other with
  | nil =>
    cases other with
    | nil => exact absurd h (List.lt_irrefl _)
    | cons d other =>
      obtain ⟨octet, octets, hd⟩ := List.exists_cons_of_ne_nil (encodeChar_ne_nil d)
      rw [encode, encode, List.flatMap_nil, List.flatMap_cons, hd]
      exact List.nil_lt_cons _ _
  | cons c text ih =>
    cases other with
    | nil => cases h
    | cons d other =>
      rw [encode, encode, List.flatMap_cons, List.flatMap_cons]
      rcases List.cons_lt_cons_iff.1 h with hlt | ⟨rfl, hrest⟩
      · exact encodeChar_append_lt hlt _ _
      · exact List.append_left_lt (ih hrest)

/-- **The order of octets** is the order of characters. -/
theorem encode_lt_encode_iff {text other : List Char} :
    encode text < encode other ↔ text < other := by
  refine ⟨fun h => ?_, encode_lt_encode⟩
  rcases lt_trichotomy text other with hlt | rfl | hgt
  · exact hlt
  · exact absurd h (List.lt_irrefl _)
  · exact absurd (encode_lt_encode hgt) (List.lt_asymm h)

end ClassImports.Utf8
