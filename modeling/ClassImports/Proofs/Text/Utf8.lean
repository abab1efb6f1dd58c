import Mathlib
import ClassImports.Text.Utf8

/-!
# Well-formed UTF-8

`Sequence form c` lists the well-formed sequences of octets and the character each of them stands
for. What `decode?` reads is a row of such sequences (`sequences_of_decode?`), and the octets of
every text are one and read as that text (`sequence_encodeChar`, `decode?_encode`). They are the
octets that the text is stored as (`encode_toList`).
-/

namespace ClassImports.Utf8

/-! ## Octets -/

theorem isContinuation_iff (octet : UInt8) :
    isContinuation octet = true ↔ 0x80 ≤ octet.toNat ∧ octet.toNat ≤ 0xBF := by
  simp [isContinuation, UInt8.le_iff_toNat_le]

theorem isContinuation_iff_mem {octet : UInt8} :
    isContinuation octet = true ↔ 0x80 ≤ octet ∧ octet ≤ 0xBF := by
  simp [isContinuation]

/-- An octet that carries six bits of a number is a continuation octet. -/
theorem isContinuation_tail (n : Nat) : isContinuation (UInt8.ofNat (0x80 + n % 64)) = true := by
  rw [isContinuation_iff, UInt8.toNat_ofNat_of_lt' (show _ < 256 by omega)]
  omega

/-- The six bits that were put into a continuation octet are the six bits it carries. -/
theorem payload_tail (n : Nat) : payload (UInt8.ofNat (0x80 + n % 64)) = n % 64 := by
  rw [payload, UInt8.toNat_ofNat_of_lt' (show _ < 256 by omega)]
  omega

theorem payload_lt (octet : UInt8) : payload octet < 64 :=
  Nat.mod_lt _ (by decide)

/-- A continuation octet is its marker and the six bits that it carries. -/
theorem toNat_of_isContinuation {octet : UInt8} (h : isContinuation octet = true) :
    octet.toNat = 0x80 + payload octet := by
  rw [isContinuation_iff] at h
  rw [payload]
  omega

/-! ## Sequences -/

/-- The well-formed sequences, by their number of octets: each value has its shortest form, and
surrogates and values above U+10FFFF have none. -/
inductive Sequence : Bytes → Char → Prop where
  | single {a : UInt8} (ha : a < 0x80) : Sequence [a] (Char.ofNat a.toNat)
  | double {a x : UInt8} (ha : 0xC2 ≤ a ∧ a < 0xE0) (hx : isContinuation x = true) :
      Sequence [a, x] (Char.ofNat (a.toNat % 32 * 64 + payload x))
  | triple {a x y : UInt8} (ha : 0xE0 ≤ a ∧ a < 0xF0) (hx : isContinuation x = true)
      (hy : isContinuation y = true) (hshortest : a = 0xE0 → 0xA0 ≤ x)
      (hsurrogate : a = 0xED → x ≤ 0x9F) :
      Sequence [a, x, y] (Char.ofNat (a.toNat % 16 * 4096 + payload x * 64 + payload y))
  | quadruple {a x y z : UInt8} (ha : 0xF0 ≤ a ∧ a < 0xF5) (hx : isContinuation x = true)
      (hy : isContinuation y = true) (hz : isContinuation z = true)
      (hshortest : a = 0xF0 → 0x90 ≤ x) (hlast : a = 0xF4 → x ≤ 0x8F) :
      Sequence [a, x, y, z]
        (Char.ofNat (a.toNat % 8 * 262144 + payload x * 4096 + payload y * 64 + payload z))

/-- What the step reads is a well-formed sequence at the start of the octets. -/
theorem sequence_of_sequence? {lead : UInt8} {rest after : Bytes} {c : Char}
    (h : sequence? lead rest = some (c, after)) :
    ∃ form, Sequence form c ∧ lead :: rest = form ++ after := by
  unfold sequence? at h
  by_cases hsingle : lead < 0x80
  · rw [if_pos hsingle] at h
    cases h
    exact ⟨_, .single hsingle, rfl⟩
  rw [if_neg hsingle] at h
  by_cases hlow : lead < 0xC2
  · rw [if_pos hlow] at h
    cases h
  rw [if_neg hlow] at h
  by_cases hdouble : lead < 0xE0
  · rw [if_pos hdouble] at h
    split at h
    · next x tail =>
      split at h <;> cases h
      next hx =>
      exact ⟨_, .double ⟨by grind, hdouble⟩ hx, rfl⟩
    · cases h
  rw [if_neg hdouble] at h
  by_cases htriple : lead < 0xF0
  · rw [if_pos htriple] at h
    split at h
    · next x y tail =>
      split at h <;> cases h
      next hxy =>
      exact ⟨_, .triple ⟨by grind, htriple⟩ (by grind) (by grind) (by grind) (by grind), rfl⟩
    · cases h
  rw [if_neg htriple] at h
  by_cases hquadruple : lead < 0xF5
  · rw [if_pos hquadruple] at h
    split at h
    · next x y z tail =>
      split at h <;> cases h
      next hxyz =>
      exact ⟨_, .quadruple ⟨by grind, hquadruple⟩ (by grind) (by grind) (by grind) (by grind)
        (by grind), rfl⟩
    · cases h
  · rw [if_neg hquadruple] at h
    cases h

/-- What is read to the end is a row of well-formed sequences, one for each character. -/
theorem sequences_of_decode? :
    ∀ {bytes : Bytes} {chars : List Char}, decode? bytes = some chars →
      ∃ forms, List.Forall₂ Sequence forms chars ∧ bytes = forms.flatten
  | [], chars, h => by
    rw [decode?_nil] at h
    cases h
    exact ⟨[], .nil, rfl⟩
  | lead :: rest, chars, h => by
    rw [decode?_cons, Option.bind_eq_some_iff] at h
    obtain ⟨⟨c, after⟩, hnext, h⟩ := h
    rw [Option.map_eq_some_iff] at h
    obtain ⟨tail, htail, rfl⟩ := h
    have hshorter := length_of_sequence? hnext
    obtain ⟨form, hform, hsplit⟩ := sequence_of_sequence? hnext
    obtain ⟨forms, hforms, rfl⟩ := sequences_of_decode? htail
    exact ⟨form :: forms, .cons hform hforms, hsplit⟩
termination_by bytes => bytes.length

/-! ## Writing -/

/-- The octets of a character are a well-formed sequence for it. -/
theorem sequence_encodeChar (c : Char) : Sequence (encodeChar c) c := by
  have hvalid : c.toNat < 0xD800 ∨ 0xDFFF < c.toNat ∧ c.toNat < 0x110000 := c.valid
  have hoctet : ∀ {n : Nat}, n < 256 → (UInt8.ofNat n).toNat = n :=
    fun h => UInt8.toNat_ofNat_of_lt' h
  have hsame : ∀ {n : Nat}, n = c.toNat → Char.ofNat n = c := by
    rintro n rfl
    exact Char.ofNat_toNat c
  unfold encodeChar
  simp only
  split
  · next hsingle =>
    have hform : Sequence [UInt8.ofNat c.toNat] (Char.ofNat (UInt8.ofNat c.toNat).toNat) :=
      .single (by rw [UInt8.lt_iff_toNat_lt, hoctet (by omega)]; exact hsingle)
    rwa [hsame (hoctet (by omega))] at hform
  split
  · next hlow hdouble =>
    have hlead : (UInt8.ofNat (0xC0 + c.toNat / 64)).toNat = 0xC0 + c.toNat / 64 :=
      hoctet (by omega)
    have hform := Sequence.double (a := UInt8.ofNat (0xC0 + c.toNat / 64))
      (by simp only [UInt8.le_iff_toNat_le, UInt8.lt_iff_toNat_lt, hlead, UInt8.reduceToNat]; omega)
      (isContinuation_tail c.toNat)
    rwa [hlead, payload_tail, hsame (by omega)] at hform
  split
  · next hlow htriple =>
    have hlead : (UInt8.ofNat (0xE0 + c.toNat / 4096)).toNat = 0xE0 + c.toNat / 4096 :=
      hoctet (by omega)
    have hnext : (UInt8.ofNat (0x80 + c.toNat / 64 % 64)).toNat = 0x80 + c.toNat / 64 % 64 :=
      hoctet (by omega)
    have hform := Sequence.triple (a := UInt8.ofNat (0xE0 + c.toNat / 4096))
      (by simp only [UInt8.le_iff_toNat_le, UInt8.lt_iff_toNat_lt, hlead, UInt8.reduceToNat]; omega)
      (isContinuation_tail (c.toNat / 64)) (isContinuation_tail c.toNat)
      (by simp only [← UInt8.toNat_inj, UInt8.le_iff_toNat_le, hlead, hnext, UInt8.reduceToNat]
          omega)
      (by simp only [← UInt8.toNat_inj, UInt8.le_iff_toNat_le, hlead, hnext, UInt8.reduceToNat]
          omega)
    rwa [hlead, payload_tail, payload_tail, hsame (by omega)] at hform
  · next hlow =>
    have hlead : (UInt8.ofNat (0xF0 + c.toNat / 262144)).toNat = 0xF0 + c.toNat / 262144 :=
      hoctet (by omega)
    have hnext : (UInt8.ofNat (0x80 + c.toNat / 4096 % 64)).toNat = 0x80 + c.toNat / 4096 % 64 :=
      hoctet (by omega)
    have hform := Sequence.quadruple (a := UInt8.ofNat (0xF0 + c.toNat / 262144))
      (by simp only [UInt8.le_iff_toNat_le, UInt8.lt_iff_toNat_lt, hlead, UInt8.reduceToNat]; omega)
      (isContinuation_tail (c.toNat / 4096)) (isContinuation_tail (c.toNat / 64))
      (isContinuation_tail c.toNat)
      (by simp only [← UInt8.toNat_inj, UInt8.le_iff_toNat_le, hlead, hnext, UInt8.reduceToNat]
          omega)
      (by simp only [← UInt8.toNat_inj, UInt8.le_iff_toNat_le, hlead, hnext, UInt8.reduceToNat]
          omega)
    rwa [hlead, payload_tail, payload_tail, payload_tail, hsame (by omega)] at hform

theorem encodeChar_eq_utf8EncodeChar (c : Char) : encodeChar c = String.utf8EncodeChar c := by
  have hvalid : c.toNat < 0xD800 ∨ 0xDFFF < c.toNat ∧ c.toNat < 0x110000 := c.valid
  have htail : ∀ n : Nat, n % 64 + 128 = 0x80 + n % 64 := fun n => Nat.add_comm _ _
  rw [String.utf8EncodeChar.eq_1]
  change encodeChar c = if c.toNat ≤ 127 then [UInt8.ofNat c.toNat]
    else if c.toNat ≤ 2047 then
      [UInt8.ofNat (c.toNat / 64 % 32 + 192), UInt8.ofNat (c.toNat % 64 + 128)]
    else if c.toNat ≤ 65535 then
      [UInt8.ofNat (c.toNat / 4096 % 16 + 224), UInt8.ofNat (c.toNat / 64 % 64 + 128),
        UInt8.ofNat (c.toNat % 64 + 128)]
    else
      [UInt8.ofNat (c.toNat / 262144 % 8 + 240), UInt8.ofNat (c.toNat / 4096 % 64 + 128),
        UInt8.ofNat (c.toNat / 64 % 64 + 128), UInt8.ofNat (c.toNat % 64 + 128)]
  unfold encodeChar
  simp only [htail]
  by_cases hsingle : c.toNat < 0x80
  · rw [if_pos hsingle, if_pos (Nat.le_of_lt_succ hsingle)]
  rw [if_neg hsingle, if_neg fun h => hsingle (Nat.lt_succ_of_le h)]
  by_cases hdouble : c.toNat < 0x800
  · rw [if_pos hdouble, if_pos (Nat.le_of_lt_succ hdouble),
      show c.toNat / 64 % 32 + 192 = 0xC0 + c.toNat / 64 by omega]
  rw [if_neg hdouble, if_neg fun h => hdouble (Nat.lt_succ_of_le h)]
  by_cases htriple : c.toNat < 0x10000
  · rw [if_pos htriple, if_pos (Nat.le_of_lt_succ htriple),
      show c.toNat / 4096 % 16 + 224 = 0xE0 + c.toNat / 4096 by omega]
  · rw [if_neg htriple, if_neg fun h => htriple (Nat.lt_succ_of_le h),
      show c.toNat / 262144 % 8 + 240 = 0xF0 + c.toNat / 262144 by omega]

/-- The octets of a text are those that it is stored as. -/
theorem encode_toList (text : String) : encode text.toList = text.toUTF8.data.toList := by
  rw [String.toUTF8_eq_toByteArray, ← String.utf8Encode_toList]
  show _ = (text.toList.flatMap String.utf8EncodeChar).toByteArray.data.toList
  rw [List.toList_data_toByteArray]
  exact congrArg (text.toList.flatMap ·) (funext encodeChar_eq_utf8EncodeChar)

/-! ## Reading what was written -/

/-- The step reads a well-formed sequence at the start of the octets. -/
theorem sequence?_of_sequence {lead : UInt8} {tail : Bytes} {c : Char}
    (h : Sequence (lead :: tail) c) (rest : Bytes) :
    sequence? lead (tail ++ rest) = some (c, rest) := by
  cases h with
  | single ha =>
    unfold sequence?
    rw [if_pos ha]
    rfl
  | double ha hx =>
    unfold sequence?
    rw [if_neg (by grind), if_neg (by grind), if_pos ha.2]
    simp only [List.singleton_append, hx, if_true]
  | triple ha hx hy hshortest hsurrogate =>
    unfold sequence?
    rw [if_neg (by grind), if_neg (by grind), if_neg (by grind), if_pos ha.2]
    exact if_pos (by grind)
  | quadruple ha hx hy hz hshortest hlast =>
    unfold sequence?
    rw [if_neg (by grind), if_neg (by grind), if_neg (by grind), if_neg (by grind), if_pos ha.2]
    exact if_pos (by grind)

theorem decode?_of_sequence {form : Bytes} {c : Char} (h : Sequence form c) (rest : Bytes) :
    decode? (form ++ rest) = (decode? rest).map (c :: ·) := by
  cases form with
  | nil => cases h
  | cons lead tail =>
    rw [List.cons_append, decode?_cons, sequence?_of_sequence h]
    rfl

/-- The octets of a text are read as that text, whatever octets follow. -/
theorem decode?_encode_append (text : List Char) (rest : Bytes) :
    decode? (encode text ++ rest) = (decode? rest).map (text ++ ·) := by
  induction text with
  | nil => exact Option.map_id'.symm
  | cons c text ih =>
    show decode? (encodeChar c ++ encode text ++ rest) = _
    rw [List.append_assoc, decode?_of_sequence (sequence_encodeChar c), ih, Option.map_map]
    rfl

/-- **Reading undoes writing**, for every text. -/
theorem decode?_encode (text : List Char) : decode? (encode text) = some text := by
  have hread := decode?_encode_append text []
  rwa [List.append_nil, decode?_nil, Option.map_some, List.append_nil] at hread

/-- A text starts with another one exactly if its octets start with those of the other one. -/
theorem encode_prefix_encode_iff {text other : List Char} :
    encode text <+: encode other ↔ text <+: other := by
  constructor
  · rintro ⟨rest, hrest⟩
    have hread := decode?_encode_append text rest
    rw [hrest, decode?_encode, eq_comm, Option.map_eq_some_iff] at hread
    obtain ⟨tail, -, htail⟩ := hread
    exact ⟨tail, htail⟩
  · rintro ⟨tail, rfl⟩
    rw [encode, encode, List.flatMap_append]
    apply List.prefix_append

end ClassImports.Utf8
