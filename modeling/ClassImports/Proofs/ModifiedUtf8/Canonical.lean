import Mathlib
import ClassImports.Proofs.ModifiedUtf8.Malformed

/-!
# Canonical octets

Writing gives every character one well-formed sequence (`sequence_encodeChar`), and a well-formed
sequence is the one of its character (`Sequence.encodeChar_eq`). So the octets that reading and
writing give back are the well-formed ones (`encode_decode_eq_self_iff_wellFormed`). `CanonicalForm`
spells them by the ranges of their octets, without a look at the characters
(`canonicalForm_iff_exists_sequence`), and `encode_decode_eq_self_iff` says the same of these forms.
-/

namespace ClassImports.ModifiedUtf8

open Utf8 (isContinuation isContinuation_iff isContinuation_iff_mem payload payload_lt
  toNat_of_isContinuation)

/-! ## Octets -/

/-- An octet is found again from its number. -/
theorem ofNat_eq_of_toNat_eq {n : Nat} {octet : UInt8} (h : n = octet.toNat) :
    UInt8.ofNat n = octet := by
  rw [h, UInt8.ofNat_toNat]

/-- A continuation octet is found again from the six bits that it carries. -/
theorem ofNat_tail_of_isContinuation {n : Nat} {octet : UInt8} (h : isContinuation octet = true)
    (hn : n % 64 = payload octet) : UInt8.ofNat (0x80 + n % 64) = octet := by
  apply ofNat_eq_of_toNat_eq
  rw [hn, toNat_of_isContinuation h]

/-! ## Units -/

theorem UnitForm.encodeUnit_eq {form : Bytes} {unit : Nat} (h : UnitForm form unit) :
    encodeUnit unit = form := by
  obtain @⟨a, x, y, ha, hx, hy⟩ := h
  have hlead := UInt8.le_iff_toNat_le.1 ha.1
  have hmost := UInt8.le_iff_toNat_le.1 ha.2
  have hx' := payload_lt x
  have hy' := payload_lt y
  simp only [UInt8.reduceToNat] at hlead hmost
  have hfirst : UInt8.ofNat
      (0xE0 + (a.toNat % 16 * 4096 + payload x * 64 + payload y) / 4096) = a :=
    ofNat_eq_of_toNat_eq (by omega)
  rw [encodeUnit, hfirst, ofNat_tail_of_isContinuation hx (by omega),
    ofNat_tail_of_isContinuation hy (by omega)]

/-- The octets that a unit is written with. -/
theorem unitForm_encodeUnit {unit : Nat} (h : unit < 0x10000) : UnitForm (encodeUnit unit) unit := by
  have hread := unit?_encodeUnit h []
  rw [List.append_nil] at hread
  obtain ⟨form, hform, hsplit⟩ := exists_unitForm hread
  rw [List.append_nil] at hsplit
  rwa [hsplit]

/-! ## One sequence for a character -/

/-- A well-formed sequence is what is written for its character. -/
theorem Sequence.encodeChar_eq {form : Bytes} {c : Char} (h : Sequence form c) :
    encodeChar c = form := by
  cases h with
  | @single a ha =>
    have hlead := UInt8.le_iff_toNat_le.1 ha.1
    have hmost := UInt8.le_iff_toNat_le.1 ha.2
    simp only [UInt8.reduceToNat] at hlead hmost
    have hn : (Char.ofNat a.toNat).toNat = a.toNat :=
      toNat_ofNat_of_isValidChar (.inl (by omega))
    rw [encodeChar_single (by omega) (by omega), hn, UInt8.ofNat_toNat]
  | nul => exact encodeChar_nul rfl
  | @double a x ha hx =>
    have hlead := UInt8.le_iff_toNat_le.1 ha.1
    have hmost := UInt8.le_iff_toNat_le.1 ha.2
    have hx' := payload_lt x
    simp only [UInt8.reduceToNat] at hlead hmost
    have hn : (Char.ofNat (a.toNat % 32 * 64 + payload x)).toNat =
        a.toNat % 32 * 64 + payload x := toNat_ofNat_of_isValidChar (.inl (by omega))
    have hfirst : UInt8.ofNat (0xC0 + (a.toNat % 32 * 64 + payload x) / 64) = a :=
      ofNat_eq_of_toNat_eq (by omega)
    rw [encodeChar_double (by omega) (by omega), hn, hfirst,
      ofNat_tail_of_isContinuation hx (by omega)]
  | @triple form unit h hshortest hhigh hlow =>
    have hn := toNat_ofNat_of_isValidChar (isValidChar_of_unit h.lt hhigh hlow)
    have hlt := h.lt
    rw [encodeChar_unit (by omega) (by omega), hn]
    exact h.encodeUnit_eq
  | @pair first second high low hfirst hhigh hsecond hlow =>
    have hn := toNat_ofNat_of_isValidChar (isValidChar_of_pair hhigh hlow)
    rw [isHighSurrogate_iff] at hhigh
    rw [isLowSurrogate_iff] at hlow
    have hhalves : 0xD800 + ((Char.ofNat (0x10000 + (high - 0xD800) * 1024 +
        (low - 0xDC00))).toNat - 0x10000) / 1024 = high ∧
        0xDC00 + ((Char.ofNat (0x10000 + (high - 0xD800) * 1024 +
        (low - 0xDC00))).toNat - 0x10000) % 1024 = low := by
      rw [hn]
      omega
    rw [encodeChar_pair (by omega), hhalves.1, hhalves.2, hfirst.encodeUnit_eq,
      hsecond.encodeUnit_eq]

/-- A sequence that is too long has more octets than are written for its character. -/
theorem Overlong.length_encodeChar_lt {form : Bytes} {c : Char} (h : Overlong form c) :
    (encodeChar c).length < form.length := by
  cases h with
  | @double a x ha hx hnul =>
    have hlead := UInt8.le_iff_toNat_le.1 ha.1
    have hmost := UInt8.lt_iff_toNat_lt.1 ha.2
    have hx' := payload_lt x
    simp only [UInt8.reduceToNat] at hlead hmost
    have hn : (Char.ofNat (a.toNat % 32 * 64 + payload x)).toNat =
        a.toNat % 32 * 64 + payload x := toNat_ofNat_of_isValidChar (.inl (by omega))
    -- NUL is the one character that two octets of this kind are not too long for
    have hpos : 0 < a.toNat % 32 * 64 + payload x := by
      by_contra hzero
      refine hnul ⟨UInt8.toNat_inj.1 ?_, UInt8.toNat_inj.1 ?_⟩
      · simp only [UInt8.reduceToNat]
        omega
      · rw [toNat_of_isContinuation hx]
        simp only [UInt8.reduceToNat]
        omega
    rw [encodeChar_single (by omega) (by omega)]
    exact Nat.lt_succ_self 1
  | @triple form unit h hshort =>
    have hn : (Char.ofNat unit).toNat = unit := toNat_ofNat_of_isValidChar (.inl (by omega))
    rw [h.length_eq]
    by_cases hnul : (Char.ofNat unit).toNat = 0
    · rw [encodeChar_nul hnul]
      exact show 2 < 3 by decide
    by_cases hsingle : (Char.ofNat unit).toNat < 0x80
    · rw [encodeChar_single (Nat.pos_of_ne_zero hnul) hsingle]
      exact show 1 < 3 by decide
    · rw [encodeChar_double (Nat.le_of_not_lt hsingle) (by omega)]
      exact show 2 < 3 by decide

/-- What is written for a character is a well-formed sequence for it. -/
theorem sequence_encodeChar (c : Char) : Sequence (encodeChar c) c := by
  have hread := decodeSequences_encodeChar c []
  rw [List.append_nil, decodeSequences_nil] at hread
  rcases replacement_mem_or_readable (encodeChar c) with hmem | ⟨forms, hforms, hjoin⟩
  · rw [hread, List.mem_singleton] at hmem
    subst hmem
    have hform : UnitForm (encodeUnit 0xFFFD) 0xFFFD := unitForm_encodeUnit (by decide)
    exact .triple hform (by decide) (by decide) (by decide)
  · rw [hread] at hforms
    obtain ⟨form, rest, hform, hrest, rfl⟩ := List.forall₂_cons_right_iff.1 hforms
    rw [List.forall₂_nil_right_iff.1 hrest, List.flatten_singleton] at hjoin
    rw [← hjoin] at hform
    exact hform.resolve_right fun hlong => Nat.lt_irrefl _ hlong.length_encodeChar_lt

/-! ## Writing what was read -/

/-- What is written for a text is well-formed. -/
theorem wellFormed_encode (text : String) : WellFormed (encode text) := by
  refine ⟨text.toList.map encodeChar, text.toList, ?_, List.flatMap_def⟩
  rw [List.forall₂_map_left_iff, List.forall₂_same]
  exact fun c _ => sequence_encodeChar c

theorem flatMap_encodeChar_of_sequences {forms : List Bytes} {chars : List Char}
    (h : List.Forall₂ Sequence forms chars) : chars.flatMap encodeChar = forms.flatten := by
  induction h with
  | nil => rfl
  | cons hform _ ih => rw [List.flatMap_cons, List.flatten_cons, hform.encodeChar_eq, ih]

/-- Reading and writing give octets back exactly if they are well-formed. -/
theorem encode_decode_eq_self_iff_wellFormed (bytes : Bytes) :
    encode (decode bytes) = bytes ↔ WellFormed bytes := by
  constructor
  · intro h
    rw [← h]
    exact wellFormed_encode (decode bytes)
  · rintro ⟨forms, chars, hforms, rfl⟩
    have hread : decodeChars forms.flatten = chars :=
      decodeChars_of_readable (hforms.imp fun _ _ hform => .inl hform)
    rw [encode, decode, hread, String.toList_ofList]
    exact flatMap_encodeChar_of_sequences hforms

/-! ## By the ranges of octets -/

/-- The forms of the sequences that writing makes, by the ranges of their octets. Behind `E0` and `ED`
the second octet has a narrower range than behind the leads around them, and two sequences that `ED`
leads, with the other half of that range, are a pair of surrogates. -/
inductive CanonicalForm : Bytes → Prop where
  | single {a : UInt8} (ha : 0x01 ≤ a ∧ a ≤ 0x7F) : CanonicalForm [a]
  | nul : CanonicalForm [0xC0, 0x80]
  | double {a x : UInt8} (ha : 0xC2 ≤ a ∧ a ≤ 0xDF) (hx : 0x80 ≤ x ∧ x ≤ 0xBF) :
      CanonicalForm [a, x]
  | lowest {x y : UInt8} (hx : 0xA0 ≤ x ∧ x ≤ 0xBF) (hy : 0x80 ≤ y ∧ y ≤ 0xBF) :
      CanonicalForm [0xE0, x, y]
  | triple {a x y : UInt8} (ha : 0xE1 ≤ a ∧ a ≤ 0xEC ∨ 0xEE ≤ a ∧ a ≤ 0xEF)
      (hx : 0x80 ≤ x ∧ x ≤ 0xBF) (hy : 0x80 ≤ y ∧ y ≤ 0xBF) : CanonicalForm [a, x, y]
  | belowSurrogates {x y : UInt8} (hx : 0x80 ≤ x ∧ x ≤ 0x9F) (hy : 0x80 ≤ y ∧ y ≤ 0xBF) :
      CanonicalForm [0xED, x, y]
  | pair {x y z w : UInt8} (hx : 0xA0 ≤ x ∧ x ≤ 0xAF) (hy : 0x80 ≤ y ∧ y ≤ 0xBF)
      (hz : 0xB0 ≤ z ∧ z ≤ 0xBF) (hw : 0x80 ≤ w ∧ w ≤ 0xBF) :
      CanonicalForm [0xED, x, y, 0xED, z, w]

/-- The six bits of an octet between two continuation octets are between theirs. -/
theorem payload_of_mem {low high octet : UInt8} (hlow : 0x80 ≤ low) (hhigh : high ≤ 0xBF)
    (h : low ≤ octet ∧ octet ≤ high) :
    isContinuation octet = true ∧ low.toNat - 0x80 ≤ payload octet ∧
      payload octet ≤ high.toNat - 0x80 := by
  rw [UInt8.le_iff_toNat_le] at hlow hhigh
  simp only [UInt8.le_iff_toNat_le] at h
  simp only [UInt8.reduceToNat] at hlow hhigh
  have hoctet : isContinuation octet = true := (isContinuation_iff octet).2 (by omega)
  have hpayload := toNat_of_isContinuation hoctet
  exact ⟨hoctet, by omega, by omega⟩

/-- Three octets are a well-formed sequence if their unit needs them and is no surrogate. -/
theorem exists_sequence_triple {a x y : UInt8} (ha : 0xE0 ≤ a ∧ a ≤ 0xEF)
    (hx : isContinuation x = true) (hy : isContinuation y = true)
    (hshortest : a.toNat % 16 = 0 → 32 ≤ payload x)
    (hsurrogate : a.toNat % 16 = 13 → payload x < 32) : ∃ c, Sequence [a, x, y] c := by
  have hx' := payload_lt x
  have hy' := payload_lt y
  refine ⟨_, .triple (.intro ha hx hy) ?_ ?_ ?_⟩
  · omega
  · rw [← Bool.not_eq_true, isHighSurrogate_iff]
    omega
  · rw [← Bool.not_eq_true, isLowSurrogate_iff]
    omega

theorem CanonicalForm.exists_sequence {form : Bytes} (h : CanonicalForm form) :
    ∃ c, Sequence form c := by
  cases h with
  | single ha => exact ⟨_, .single ha⟩
  | nul => exact ⟨_, .nul⟩
  | double ha hx => exact ⟨_, .double ha (payload_of_mem (by decide) (by decide) hx).1⟩
  | lowest hx hy =>
    obtain ⟨hx, hlow, -⟩ := payload_of_mem (by decide) (by decide) hx
    obtain ⟨hy, -⟩ := payload_of_mem (by decide) (by decide) hy
    exact exists_sequence_triple (by decide) hx hy (fun _ => hlow) (fun h => absurd h (by decide))
  | @triple a x y ha hx hy =>
    obtain ⟨hx, -⟩ := payload_of_mem (by decide) (by decide) hx
    obtain ⟨hy, -⟩ := payload_of_mem (by decide) (by decide) hy
    simp only [UInt8.le_iff_toNat_le, UInt8.reduceToNat] at ha
    refine exists_sequence_triple ?_ hx hy (by omega) (by omega)
    simp only [UInt8.le_iff_toNat_le, UInt8.reduceToNat]
    omega
  | belowSurrogates hx hy =>
    obtain ⟨hx, -, hhigh⟩ := payload_of_mem (by decide) (by decide) hx
    obtain ⟨hy, -⟩ := payload_of_mem (by decide) (by decide) hy
    exact exists_sequence_triple (by decide) hx hy (fun h => absurd h (by decide))
      (fun _ => Nat.lt_succ_of_le hhigh)
  | @pair x y z w hx hy hz hw =>
    obtain ⟨hx, hxlow, hxhigh⟩ := payload_of_mem (by decide) (by decide) hx
    obtain ⟨hy, -⟩ := payload_of_mem (by decide) (by decide) hy
    obtain ⟨hz, hzlow, hzhigh⟩ := payload_of_mem (by decide) (by decide) hz
    obtain ⟨hw, -⟩ := payload_of_mem (by decide) (by decide) hw
    have hy' := payload_lt y
    have hw' := payload_lt w
    simp only [UInt8.reduceToNat] at hxlow hxhigh hzlow hzhigh
    refine ⟨_, .pair (.intro (a := 0xED) (by decide) hx hy) ?_ (.intro (a := 0xED) (by decide) hz hw)
      ?_⟩
    · simp only [isHighSurrogate_iff, UInt8.reduceToNat]
      omega
    · simp only [isLowSurrogate_iff, UInt8.reduceToNat]
      omega

theorem mem_of_payload {low high octet : UInt8} (h : isContinuation octet = true)
    (hlow : low.toNat - 0x80 ≤ payload octet) (hhigh : 0x80 + payload octet ≤ high.toNat) :
    low ≤ octet ∧ octet ≤ high := by
  have hpayload := toNat_of_isContinuation h
  simp only [UInt8.le_iff_toNat_le]
  exact ⟨by omega, by omega⟩

/-- The octets of a unit, by the range that the unit is in. -/
theorem UnitForm.canonicalForm {form : Bytes} {unit : Nat} (h : UnitForm form unit)
    (hshortest : 0x800 ≤ unit) (hhigh : isHighSurrogate unit = false)
    (hlow : isLowSurrogate unit = false) : CanonicalForm form := by
  rw [← Bool.not_eq_true, isHighSurrogate_iff] at hhigh
  rw [← Bool.not_eq_true, isLowSurrogate_iff] at hlow
  obtain @⟨a, x, y, ha, hx, hy⟩ := h
  have hx' := payload_lt x
  have hy' := payload_lt y
  by_cases hlowest : a = 0xE0
  · subst hlowest
    simp only [UInt8.reduceToNat] at hshortest
    exact .lowest (mem_of_payload hx (by simp; omega) (by simp; omega)) (isContinuation_iff_mem.1 hy)
  by_cases hblock : a = 0xED
  · subst hblock
    simp only [UInt8.reduceToNat] at hhigh hlow
    exact .belowSurrogates (mem_of_payload hx (by simp) (by simp; omega)) (isContinuation_iff_mem.1 hy)
  · refine .triple ?_ (isContinuation_iff_mem.1 hx) (isContinuation_iff_mem.1 hy)
    grind

theorem Sequence.canonicalForm {form : Bytes} {c : Char} (h : Sequence form c) :
    CanonicalForm form := by
  cases h with
  | single ha => exact .single ha
  | nul => exact .nul
  | double ha hx => exact .double ha (isContinuation_iff_mem.1 hx)
  | triple h hshortest hhigh hlow => exact h.canonicalForm hshortest hhigh hlow
  | @pair first second high low hfirst hhigh hsecond hlow =>
    rw [isHighSurrogate_iff] at hhigh
    rw [isLowSurrogate_iff] at hlow
    obtain ⟨x, y, rfl, hx, hy, hunit⟩ := hfirst.exists_of_surrogate (by omega)
    obtain ⟨z, w, rfl, hz, hw, hnext⟩ := hsecond.exists_of_surrogate (by omega)
    have hy' := payload_lt y
    have hz' := payload_lt z
    have hw' := payload_lt w
    exact .pair (mem_of_payload hx (by simp; omega) (by simp; omega)) (isContinuation_iff_mem.1 hy)
      (mem_of_payload hz (by simp; omega) (by simp; omega)) (isContinuation_iff_mem.1 hw)

/-- The canonical forms are the well-formed sequences. -/
theorem canonicalForm_iff_exists_sequence (form : Bytes) :
    CanonicalForm form ↔ ∃ c, Sequence form c :=
  ⟨CanonicalForm.exists_sequence, fun ⟨_, h⟩ => h.canonicalForm⟩

theorem wellFormed_iff_canonicalForms (bytes : Bytes) :
    WellFormed bytes ↔
      ∃ forms : List Bytes, (∀ form ∈ forms, CanonicalForm form) ∧ bytes = forms.flatten := by
  simp only [canonicalForm_iff_exists_sequence]
  constructor
  · rintro ⟨forms, chars, hforms, rfl⟩
    refine ⟨forms, ?_, rfl⟩
    induction hforms with
    | nil => exact List.forall_mem_nil _
    | cons hform _ ih => exact List.forall_mem_cons.2 ⟨⟨_, hform⟩, ih⟩
  · rintro ⟨forms, hforms, rfl⟩
    induction forms with
    | nil => exact ⟨[], [], .nil, rfl⟩
    | cons form forms ih =>
      obtain ⟨⟨c, hform⟩, hforms⟩ := List.forall_mem_cons.1 hforms
      obtain ⟨others, chars, hothers, hjoin⟩ := ih hforms
      exact ⟨form :: others, c :: chars, .cons hform hothers, by simp [hjoin]⟩

/-- **Writing undoes reading exactly on canonical octets**: octets are what is written for the text
they read as if and only if they are canonical forms one after the other. All other octets, whatever
they read as, are written differently. -/
theorem encode_decode_eq_self_iff (bytes : Bytes) :
    encode (decode bytes) = bytes ↔
      ∃ forms : List Bytes, (∀ form ∈ forms, CanonicalForm form) ∧ bytes = forms.flatten := by
  rw [encode_decode_eq_self_iff_wellFormed, wellFormed_iff_canonicalForms]

end ClassImports.ModifiedUtf8
