import Mathlib
import ClassImports.Proofs.ModifiedUtf8.RoundTrip

/-!
# Malformed modified UTF-8

`Sequence form c` lists the well-formed sequences of octets and the character each of them stands
for; `WellFormed` octets are a row of these. The reading takes more for sequences: `Overlong` forms,
which spell a character with more octets than it needs. All other faults leave a character in the
text that no name of a type has: U+FFFD, or one above U+FFFF where octets from `F0` on are taken as
UTF-8 (`mem_decodeChars_or_readable`).
-/

namespace ClassImports

namespace Utf8

/-- Only a sequence of four octets has an octet from `F0` on, and it stands for a character above
U+FFFF. -/
theorem Sequence.lt_or {form : Bytes} {c : Char} (h : Sequence form c) :
    (∀ octet ∈ form, octet < 0xF0) ∨ 0x10000 ≤ c.toNat := by
  cases h with
  | single ha => exact .inl (by simp; grind)
  | double ha hx => exact .inl (by simp [isContinuation] at *; grind)
  | triple ha hx hy => exact .inl (by simp [isContinuation] at *; grind)
  | @quadruple a x y z ha hx hy hz hshortest hlast =>
    refine .inr ?_
    have hlead := UInt8.le_iff_toNat_le.1 ha.1
    have hmost := UInt8.lt_iff_toNat_lt.1 ha.2
    have hlow : a.toNat = 0xF0 → 0x90 ≤ x.toNat := fun h =>
      UInt8.le_iff_toNat_le.1 (hshortest (UInt8.toNat_inj.1 h))
    have hhigh : a.toNat = 0xF4 → x.toNat ≤ 0x8F := fun h =>
      UInt8.le_iff_toNat_le.1 (hlast (UInt8.toNat_inj.1 h))
    have hpayload := toNat_of_isContinuation hx
    have hx := payload_lt x
    have hy := payload_lt y
    have hz := payload_lt z
    simp only [UInt8.reduceToNat] at hlead hmost
    have hvalid : (a.toNat % 8 * 262144 + payload x * 4096 + payload y * 64 + payload z).isValidChar
        := .inr ⟨by omega, by omega⟩
    rw [Char.toNat_ofNat, if_pos hvalid]
    omega

theorem lt_or_of_forall₂ {forms : List Bytes} {chars : List Char}
    (h : List.Forall₂ Sequence forms chars) :
    (∀ octet ∈ forms.flatten, octet < 0xF0) ∨ ∃ c ∈ chars, 0x10000 ≤ c.toNat := by
  induction h with
  | nil => simp
  | cons hform hforms ih =>
    rcases hform.lt_or with hfirst | hfirst
    · rcases ih with hrest | ⟨c, hc, hrest⟩
      · refine .inl ?_
        rw [List.flatten_cons, List.forall_mem_append]
        exact ⟨hfirst, hrest⟩
      · exact .inr ⟨c, List.mem_cons_of_mem _ hc, hrest⟩
    · exact .inr ⟨_, List.mem_cons_self, hfirst⟩

end Utf8

namespace ModifiedUtf8

open Utf8 (isContinuation payload payload_lt)

/-! ## Well-formed octets -/

/-- The three octets of a 16-bit unit. -/
inductive UnitForm : Bytes → Nat → Prop where
  | intro {a x y : UInt8} (ha : 0xE0 ≤ a ∧ a ≤ 0xEF) (hx : isContinuation x = true)
      (hy : isContinuation y = true) :
      UnitForm [a, x, y] (a.toNat % 16 * 4096 + payload x * 64 + payload y)

/-- The well-formed sequences: each character has its shortest form, NUL apart, and a character
above U+FFFF is a high surrogate with its low one. -/
inductive Sequence : Bytes → Char → Prop where
  | single {a : UInt8} (ha : 0x01 ≤ a ∧ a ≤ 0x7F) : Sequence [a] (Char.ofNat a.toNat)
  | nul : Sequence [0xC0, 0x80] (Char.ofNat 0)
  | double {a x : UInt8} (ha : 0xC2 ≤ a ∧ a ≤ 0xDF) (hx : isContinuation x = true) :
      Sequence [a, x] (Char.ofNat (a.toNat % 32 * 64 + payload x))
  | triple {form : Bytes} {unit : Nat} (h : UnitForm form unit) (hshortest : 0x800 ≤ unit)
      (hhigh : isHighSurrogate unit = false) (hlow : isLowSurrogate unit = false) :
      Sequence form (Char.ofNat unit)
  | pair {first second : Bytes} {high low : Nat} (hfirst : UnitForm first high)
      (hhigh : isHighSurrogate high = true) (hsecond : UnitForm second low)
      (hlow : isLowSurrogate low = true) :
      Sequence (first ++ second)
        (Char.ofNat (0x10000 + (high - 0xD800) * 1024 + (low - 0xDC00)))

/-- The sequences of more octets than their character needs. -/
inductive Overlong : Bytes → Char → Prop where
  | double {a x : UInt8} (ha : 0xC0 ≤ a ∧ a < 0xC2) (hx : isContinuation x = true)
      (hnul : ¬(a = 0xC0 ∧ x = 0x80)) :
      Overlong [a, x] (Char.ofNat (a.toNat % 32 * 64 + payload x))
  | triple {form : Bytes} {unit : Nat} (h : UnitForm form unit) (hshort : unit < 0x800) :
      Overlong form (Char.ofNat unit)

/-- The sequences that are read as a character other than by mistake. -/
def Readable (form : Bytes) (c : Char) : Prop :=
  Sequence form c ∨ Overlong form c

/-- Octets that are well-formed sequences one after the other. -/
def WellFormed (bytes : Bytes) : Prop :=
  ∃ forms chars, List.Forall₂ Sequence forms chars ∧ bytes = forms.flatten

/-! ## Units -/

theorem UnitForm.octet {form : Bytes} {unit : Nat} (h : UnitForm form unit) {octet : UInt8}
    (hoctet : octet ∈ form) : 0x80 ≤ octet ∧ octet ≠ 0xC1 ∧ octet < 0xF0 := by
  obtain ⟨ha, hx, hy⟩ := h
  simp only [isContinuation, Bool.and_eq_true, decide_eq_true_eq] at hx hy
  simp only [List.mem_cons, List.not_mem_nil, or_false] at hoctet
  rcases hoctet with rfl | rfl | rfl <;> grind

theorem UnitForm.lt {form : Bytes} {unit : Nat} (h : UnitForm form unit) : unit < 0x10000 := by
  obtain @⟨a, x, y, ha, hx, hy⟩ := h
  have hx := payload_lt x
  have hy := payload_lt y
  omega

theorem UnitForm.length_eq {form : Bytes} {unit : Nat} (h : UnitForm form unit) :
    form.length = 3 := by
  obtain ⟨ha, hx, hy⟩ := h
  rfl

/-- The octet `ED` leads all surrogates. -/
theorem UnitForm.exists_of_surrogate {form : Bytes} {unit : Nat} (h : UnitForm form unit)
    (hunit : 0xD800 ≤ unit ∧ unit ≤ 0xDFFF) :
    ∃ x y, form = [0xED, x, y] ∧ isContinuation x = true ∧ isContinuation y = true ∧
      unit = 0xD000 + payload x * 64 + payload y := by
  obtain @⟨a, x, y, ha, hx, hy⟩ := h
  have hx' := payload_lt x
  have hy' := payload_lt y
  have hlead : a = 0xED := by
    simp only [UInt8.le_iff_toNat_le, UInt8.reduceToNat] at ha
    apply UInt8.toNat_inj.1
    simp only [UInt8.reduceToNat]
    omega
  subst hlead
  exact ⟨x, y, rfl, hx, hy, rfl⟩

theorem UnitForm.unit?_append {form : Bytes} {unit : Nat} (h : UnitForm form unit) (rest : Bytes) :
    unit? (form ++ rest) = some (unit, rest) := by
  obtain ⟨ha, hx, hy⟩ := h
  exact unit?_cons ha hx hy rest

theorem exists_unitForm {bytes after : Bytes} {unit : Nat} (h : unit? bytes = some (unit, after)) :
    ∃ form, UnitForm form unit ∧ bytes = form ++ after := by
  unfold unit? at h
  split at h
  · next a x y rest =>
    split at h <;> cases h
    next hall =>
    simp only [Bool.and_eq_true, decide_eq_true_eq] at hall
    exact ⟨[a, x, y], .intro ⟨hall.1.1.1, hall.1.1.2⟩ hall.1.2 hall.2, rfl⟩
  · cases h

/-- A unit that is no surrogate is the number of a character. -/
theorem isValidChar_of_unit {unit : Nat} (hlt : unit < 0x10000)
    (hhigh : isHighSurrogate unit = false) (hlow : isLowSurrogate unit = false) :
    unit.isValidChar := by
  rw [← Bool.not_eq_true, isHighSurrogate_iff] at hhigh
  rw [← Bool.not_eq_true, isLowSurrogate_iff] at hlow
  by_cases h : unit < 0xD800
  · exact .inl h
  · exact .inr ⟨by omega, by omega⟩

theorem ofScalar_of_isLowSurrogate {unit : Nat} (h : isLowSurrogate unit = true) :
    ofScalar unit = replacement := by
  rw [isLowSurrogate_iff] at h
  exact if_neg fun hvalid => by rcases hvalid with hvalid | hvalid <;> omega

/-- The character of a surrogate pair. -/
theorem isValidChar_of_pair {high low : Nat} (hhigh : isHighSurrogate high = true)
    (hlow : isLowSurrogate low = true) :
    (0x10000 + (high - 0xD800) * 1024 + (low - 0xDC00)).isValidChar := by
  rw [isHighSurrogate_iff] at hhigh
  rw [isLowSurrogate_iff] at hlow
  exact .inr ⟨by omega, by omega⟩

/-! ## Octets of sequences -/

/-- No well-formed sequence holds `00`, `C1`, or an octet from `F0` on. -/
theorem Sequence.octet {form : Bytes} {c : Char} (h : Sequence form c) {octet : UInt8}
    (hoctet : octet ∈ form) : 0x01 ≤ octet ∧ octet ≠ 0xC1 ∧ octet < 0xF0 := by
  cases h with
  | single ha => grind
  | nul => grind
  | double ha hx =>
    simp only [isContinuation, Bool.and_eq_true, decide_eq_true_eq] at hx
    grind
  | triple h => grind [h.octet hoctet]
  | pair hfirst _ hsecond =>
    rw [List.mem_append] at hoctet
    rcases hoctet with hoctet | hoctet
    · grind [hfirst.octet hoctet]
    · grind [hsecond.octet hoctet]

theorem Overlong.octet_lt {form : Bytes} {c : Char} (h : Overlong form c) {octet : UInt8}
    (hoctet : octet ∈ form) : octet < 0xF0 := by
  cases h with
  | double ha hx =>
    simp only [isContinuation, Bool.and_eq_true, decide_eq_true_eq] at hx
    grind
  | triple h => exact (h.octet hoctet).2.2

theorem Readable.octet_lt {form : Bytes} {c : Char} (h : Readable form c) {octet : UInt8}
    (hoctet : octet ∈ form) : octet < 0xF0 :=
  h.elim (fun h => (h.octet hoctet).2.2) (fun h => h.octet_lt hoctet)

/-- `C1` starts nothing but overlong forms. -/
theorem WellFormed.not_mem {bytes : Bytes} (h : WellFormed bytes) : 0xC1 ∉ bytes := by
  obtain ⟨forms, chars, hforms, rfl⟩ := h
  induction hforms with
  | nil => exact List.not_mem_nil
  | cons hform _ ih =>
    rw [List.flatten_cons, List.mem_append, not_or]
    exact ⟨fun hoctet => (hform.octet hoctet).2.1 rfl, ih⟩

/-! ## What is read -/

/-- A sequence, well-formed or too long, reads as its character, whatever follows it. -/
theorem Readable.decodeSequences_append {form : Bytes} {c : Char} (h : Readable form c)
    (rest : Bytes) : decodeSequences (form ++ rest) = c :: decodeSequences rest := by
  have hdouble : ∀ {a x : UInt8}, (0xC0 ≤ a ∧ a ≤ 0xDF) → isContinuation x = true →
      decodeSequences ([a, x] ++ rest) =
        Char.ofNat (a.toNat % 32 * 64 + payload x) :: decodeSequences rest := by
    intro a x ha hx
    have hlt := payload_lt x
    rw [← ofScalar_of_isValidChar (n := a.toNat % 32 * 64 + payload x) (.inl (by omega))]
    exact decodeSequences_double ha hx rest
  have hunit : ∀ {form unit}, UnitForm form unit → isHighSurrogate unit = false →
      isLowSurrogate unit = false →
      decodeSequences (form ++ rest) = Char.ofNat unit :: decodeSequences rest := by
    intro form unit h hhigh hlow
    rw [← ofScalar_of_isValidChar (isValidChar_of_unit h.lt hhigh hlow)]
    exact decodeSequences_unit (h.unit?_append rest) hhigh
  rcases h with h | h
  · cases h with
    | single ha => exact decodeSequences_single ha rest
    | nul => exact hdouble (by decide) (by decide)
    | double ha hx => exact hdouble ⟨by grind, ha.2⟩ hx
    | triple h _ hhigh hlow => exact hunit h hhigh hlow
    | pair hfirst hhigh hsecond hlow =>
      rw [List.append_assoc, ← ofScalar_of_isValidChar (isValidChar_of_pair hhigh hlow)]
      exact decodeSequences_pair (hfirst.unit?_append _) hhigh (hsecond.unit?_append rest) hlow
  · cases h with
    | double ha hx => exact hdouble ⟨ha.1, by grind⟩ hx
    | triple h hshort =>
      exact hunit h (by simp [isHighSurrogate]; omega) (by simp [isLowSurrogate]; omega)

/-- After a high surrogate come the three octets of a low one, or it reads as U+FFFD. -/
theorem afterHigh_eq_replacement_or (high : Nat) (rest : Bytes) :
    (afterHigh high rest).1 = replacement ∨
      ∃ form low, UnitForm form low ∧ isLowSurrogate low = true ∧
        rest = form ++ (afterHigh high rest).2 ∧
        (afterHigh high rest).1 =
          ofScalar (0x10000 + (high - 0xD800) * 1024 + (low - 0xDC00)) := by
  cases hnext : unit? rest with
  | none => exact .inl (by rw [afterHigh, hnext])
  | some next =>
    obtain ⟨low, last⟩ := next
    obtain ⟨form, hform, rfl⟩ := exists_unitForm hnext
    by_cases hlow : isLowSurrogate low = true
    · simp only [afterHigh, hnext, if_pos hlow]
      exact .inr ⟨form, low, hform, hlow, rfl, rfl⟩
    · exact .inl (by simp only [afterHigh, hnext, if_neg hlow])

/-- Two octets are a sequence, well-formed or too long. -/
theorem readable_double {a x : UInt8} (ha : 0xC0 ≤ a ∧ a ≤ 0xDF) (hx : isContinuation x = true) :
    Readable [a, x] (Char.ofNat (a.toNat % 32 * 64 + payload x)) := by
  by_cases hnul : a = 0xC0 ∧ x = 0x80
  · obtain ⟨rfl, rfl⟩ := hnul
    exact .inl .nul
  by_cases hlong : a < 0xC2
  · exact .inr (.double ⟨ha.1, hlong⟩ hx hnul)
  · exact .inl (.double ⟨UInt8.not_lt.1 hlong, ha.2⟩ hx)

/-- The three octets of a unit that is no surrogate are a sequence, well-formed or too long. -/
theorem UnitForm.readable {form : Bytes} {unit : Nat} (h : UnitForm form unit)
    (hhigh : isHighSurrogate unit = false) (hlow : isLowSurrogate unit = false) :
    Readable form (Char.ofNat unit) := by
  by_cases hshort : unit < 0x800
  · exact .inr (.triple h hshort)
  · exact .inl (.triple h (Nat.le_of_not_lt hshort) hhigh hlow)

/-- What one step of the reading takes off the octets: a sequence, or something that reads as
U+FFFD. -/
theorem sequence_eq_replacement_or (lead : UInt8) (rest : Bytes) :
    (sequence lead rest).1 = replacement ∨
      ∃ form, Readable form (sequence lead rest).1 ∧
        lead :: rest = form ++ (sequence lead rest).2 := by
  unfold sequence
  split
  · next hsingle => exact .inr ⟨[lead], .inl (.single hsingle), rfl⟩
  split
  · next hdouble =>
    split
    · next x after =>
      split
      · next hx =>
        have hlt := payload_lt x
        rw [ofScalar_of_isValidChar (n := lead.toNat % 32 * 64 + payload x) (.inl (by omega))]
        exact .inr ⟨[lead, x], readable_double hdouble hx, rfl⟩
      · exact .inl rfl
    · exact .inl rfl
  split
  · split
    · next unit after h =>
      obtain ⟨form, hform, hsplit⟩ := exists_unitForm h
      split
      · next hhigh =>
        rcases afterHigh_eq_replacement_or unit after with
          hlone | ⟨second, low, hsecond, hlow, hjoin, hchar⟩
        · exact .inl hlone
        · refine .inr ⟨form ++ second, ?_, ?_⟩
          · rw [hchar, ofScalar_of_isValidChar (isValidChar_of_pair hhigh hlow)]
            exact .inl (.pair hform hhigh hsecond hlow)
          · rw [hsplit, List.append_assoc, ← hjoin]
      · next hhigh =>
        rw [Bool.not_eq_true] at hhigh
        cases hlow : isLowSurrogate unit with
        | true => exact .inl (ofScalar_of_isLowSurrogate hlow)
        | false =>
          rw [ofScalar_of_isValidChar (isValidChar_of_unit hform.lt hhigh hlow)]
          exact .inr ⟨form, hform.readable hhigh hlow, hsplit⟩
    · exact .inl rfl
  · exact .inl rfl

/-- Read one sequence at a time, octets leave a U+FFFD or are sequences one after the other. -/
theorem replacement_mem_or_readable :
    ∀ bytes, replacement ∈ decodeSequences bytes ∨
      ∃ forms, List.Forall₂ Readable forms (decodeSequences bytes) ∧ bytes = forms.flatten
  | [] => .inr ⟨[], by simp, rfl⟩
  | lead :: rest => by
    have hshorter := length_sequence_le lead rest
    rw [decodeSequences_cons]
    rcases sequence_eq_replacement_or lead rest with hmistake | ⟨form, hform, hsplit⟩
    · exact .inl (hmistake ▸ List.mem_cons_self)
    rcases replacement_mem_or_readable (sequence lead rest).2 with hmistake | ⟨forms, hforms, hrest⟩
    · exact .inl (List.mem_cons_of_mem _ hmistake)
    · refine .inr ⟨form :: forms, .cons hform hforms, ?_⟩
      rw [List.flatten_cons, ← hrest, hsplit]
termination_by bytes => bytes.length

/-- Octets leave U+FFFD or a character above U+FFFF, or are sequences one after the other. -/
theorem mem_decodeChars_or_readable (bytes : Bytes) :
    (∃ c ∈ decodeChars bytes, c = replacement ∨ 0x10000 ≤ c.toNat) ∨
      ∃ forms, List.Forall₂ Readable forms (decodeChars bytes) ∧ bytes = forms.flatten := by
  by_cases hbelow : ∀ octet ∈ bytes, octet < 0xF0
  · rw [decodeChars_eq_decodeSequences hbelow]
    exact (replacement_mem_or_readable bytes).imp_left fun h => ⟨_, h, .inl rfl⟩
  · rw [decodeChars]
    cases hplain : decodePlain? bytes with
    | none => exact (replacement_mem_or_readable bytes).imp_left fun h => ⟨_, h, .inl rfl⟩
    | some chars =>
      obtain ⟨-, hread⟩ := decodePlain?_eq_some hplain
      obtain ⟨forms, hforms, rfl⟩ := Utf8.sequences_of_decode? hread
      exact .inl ((Utf8.lt_or_of_forall₂ hforms).resolve_left hbelow |>.imp fun c h =>
        ⟨h.1, .inr h.2⟩)

/-- Sequences one after the other, well-formed or too long, read as their characters. -/
theorem decodeChars_of_readable {forms : List Bytes} {chars : List Char}
    (h : List.Forall₂ Readable forms chars) : decodeChars forms.flatten = chars := by
  have hbelow : ∀ octet ∈ forms.flatten, octet < 0xF0 := by
    induction h with
    | nil => simp
    | cons hform _ ih =>
      rw [List.flatten_cons, List.forall_mem_append]
      exact ⟨fun _ => hform.octet_lt, ih⟩
  rw [decodeChars_eq_decodeSequences hbelow]
  clear hbelow
  induction h with
  | nil => exact decodeSequences_nil
  | cons hform _ ih => rw [List.flatten_cons, hform.decodeSequences_append, ih]

/-- Sequences one after the other are all well-formed, or one of them is too long. -/
theorem forall₂_sequence_or {forms : List Bytes} {chars : List Char}
    (h : List.Forall₂ Readable forms chars) :
    List.Forall₂ Sequence forms chars ∨ ∃ form ∈ forms, ∃ c ∈ chars, Overlong form c := by
  induction h with
  | nil => exact .inl .nil
  | cons hform _ ih =>
    rcases hform with hform | hlong
    · rcases ih with hforms | ⟨form, hform, c, hc, hlong⟩
      · exact .inl (.cons hform hforms)
      · exact .inr ⟨form, List.mem_cons_of_mem _ hform, c, List.mem_cons_of_mem _ hc, hlong⟩
    · exact .inr ⟨_, List.mem_cons_self, _, List.mem_cons_self, hlong⟩

end ModifiedUtf8

end ClassImports
