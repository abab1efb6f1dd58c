import Mathlib
import ClassImports.Import.RawText

/-!
# Texts that refer to types

What is left of a text without the padding at its ends is determined by what it is to be without
(`isTrimmed_trim`, `IsTrimmed.trim_eq`). A text has imports only if all that is left of it are
characters of references. Padding and these characters are ASCII, so that one other character
anywhere in the text keeps it from having imports (`imports_eq_nil_of_mem`). Padding around a text
that is a reference does not matter (`reference?_padded`).
-/

namespace ClassImports.RawText

theorem isPadding_iff (c : Char) : isPadding c = true ↔ c.toNat ≤ 0x20 := by
  simp [isPadding, Char.le_def, UInt32.le_iff_toNat_le]

theorem toNat_of_isReferenceChar {c : Char} (h : isReferenceChar c = true) :
    0x20 < c.toNat ∧ c.toNat < 0x80 := by
  simp only [isReferenceChar, Bool.or_eq_true, beq_iff_eq] at h
  obtain ((((h | rfl) | rfl) | rfl) | rfl) | rfl := h
  · simp only [Char.isAlphanum, Char.isAlpha, Char.isUpper, Char.isLower, Char.isDigit,
      Bool.or_eq_true, Bool.and_eq_true, decide_eq_true_eq, UInt32.le_iff_toNat_le, ge_iff_le] at h
    simp only [Char.reduceVal, UInt32.reduceToNat] at h
    simp only [Char.toNat]
    omega
  all_goals decide

theorem isPadding_eq_false_of_isReferenceChar {c : Char} (h : isReferenceChar c = true) :
    isPadding c = false := by
  rw [← Bool.not_eq_true, isPadding_iff]
  exact Nat.not_le.2 (toNat_of_isReferenceChar h).1

theorem isReferenceChar_of_isAlphanum {c : Char} (h : c.isAlphanum = true) :
    isReferenceChar c = true := by
  simp [isReferenceChar, h]

/-! ## Without padding -/

/-- The text is what is left of the raw one without the padding at its ends. -/
structure IsTrimmed (raw text : List Char) : Prop where
  exists_padding : ∃ before after, raw = before ++ text ++ after ∧ (∀ c ∈ before, c ≤ ' ') ∧
    ∀ c ∈ after, c ≤ ' '
  head : ∀ c ∈ text.head?, ' ' < c
  last : ∀ c ∈ text.getLast?, ' ' < c

theorem isPadding_eq_false_iff (c : Char) : isPadding c = false ↔ ' ' < c := by
  simp [isPadding]

/-- Between ends that are no padding nothing is taken off. -/
theorem IsTrimmed.trim_eq {raw text : List Char} (h : IsTrimmed raw text) : trim raw = text := by
  obtain ⟨⟨before, after, rfl, hbefore, hafter⟩, hhead, hlast⟩ := h
  have hbefore : ∀ c ∈ before, isPadding c = true := fun c hc => decide_eq_true (hbefore c hc)
  have hafter : ∀ c ∈ after, isPadding c = true := fun c hc => decide_eq_true (hafter c hc)
  have hkeeps : ∀ chars rest : List Char, chars ≠ [] → (∀ c ∈ chars.head?, ' ' < c) →
      (chars ++ rest).dropWhile isPadding = chars ++ rest := by
    intro chars rest hne hchars
    obtain ⟨c, more, rfl⟩ := List.exists_cons_of_ne_nil hne
    have hc : isPadding c = false := (isPadding_eq_false_iff c).2 (hchars c rfl)
    exact List.dropWhile_cons_of_neg (by simp [hc])
  rw [trim, List.append_assoc, List.dropWhile_append_of_pos hbefore]
  by_cases hne : text = []
  · subst hne
    rw [List.nil_append, List.dropWhile_eq_nil_iff.2 hafter]
    rfl
  · have hback := hkeeps text.reverse [] (by simpa using hne) (by simpa using hlast)
    rw [List.append_nil] at hback
    rw [hkeeps text after hne hhead, List.reverse_append,
      List.dropWhile_append_of_pos fun c hc => hafter c (List.mem_reverse.1 hc), hback,
      List.reverse_reverse]

theorem isTrimmed_trim (raw : List Char) : IsTrimmed raw (trim raw) := by
  have htrim : trim raw = (raw.dropWhile isPadding).rdropWhile isPadding := rfl
  have hpadding : ∀ {c : Char}, isPadding c = true → c ≤ ' ' := of_decide_eq_true
  refine ⟨⟨raw.takeWhile isPadding, (raw.dropWhile isPadding).rtakeWhile isPadding, ?_,
    fun c hc => hpadding (List.mem_takeWhile_imp hc),
    fun c hc => hpadding (List.mem_rtakeWhile_imp hc)⟩, ?_, ?_⟩
  · rw [htrim, List.append_assoc, List.rdropWhile_append_rtakeWhile,
      List.takeWhile_append_dropWhile]
  · intro c hc
    obtain ⟨rest, hrest⟩ := List.head?_eq_some_iff.1 hc
    obtain ⟨after, hafter⟩ := List.rdropWhile_prefix isPadding (l := raw.dropWhile isPadding)
    have hfirst := List.head?_dropWhile_not isPadding raw
    rw [← hafter, ← htrim, hrest] at hfirst
    exact (isPadding_eq_false_iff c).1 hfirst
  · intro c hc
    rw [htrim] at hc
    obtain ⟨hne, rfl⟩ := List.mem_getLast?_eq_getLast hc
    have hlast := List.rdropWhile_last_not isPadding (raw.dropWhile isPadding) hne
    exact (isPadding_eq_false_iff _).1 (Bool.eq_false_iff.2 hlast)

theorem trim_trim (raw : List Char) : trim (trim raw) = trim raw := by
  have htrimmed := isTrimmed_trim raw
  exact IsTrimmed.trim_eq ⟨⟨[], [], by simp, by simp, by simp⟩, htrimmed.head, htrimmed.last⟩

theorem mem_trim {text : List Char} {c : Char} (h : c ∈ text) (hc : isPadding c = false) :
    c ∈ trim text := by
  obtain ⟨before, after, hsplit, hbefore, hafter⟩ := (isTrimmed_trim text).exists_padding
  rw [isPadding_eq_false_iff, ← not_le] at hc
  rw [hsplit, List.mem_append, List.mem_append] at h
  rcases h with (h | h) | h
  · exact absurd (hbefore c h) hc
  · exact h
  · exact absurd (hafter c h) hc

/-- Padding around a text without any does not count. -/
theorem trim_append (before : List Char) {text : List Char} (after : List Char)
    (hbefore : ∀ c ∈ before, isPadding c = true) (htext : ∀ c ∈ text, isPadding c = false)
    (hafter : ∀ c ∈ after, isPadding c = true) : trim (before ++ text ++ after) = text := by
  refine IsTrimmed.trim_eq ⟨⟨before, after, rfl, ?_, ?_⟩, ?_, ?_⟩
  · exact fun c hc => of_decide_eq_true (hbefore c hc)
  · exact fun c hc => of_decide_eq_true (hafter c hc)
  · exact fun c hc => (isPadding_eq_false_iff c).1 (htext c (List.mem_of_mem_head? hc))
  · exact fun c hc => (isPadding_eq_false_iff c).1 (htext c (List.mem_of_mem_getLast? hc))

/-! ## References -/

/-- A text of characters of references, with a slash that is not its first character and without
empty segments, is its own reference, whatever padding there is around it. -/
theorem reference?_padded (before : List Char) {text : List Char} (after : List Char)
    (hbefore : ∀ c ∈ before, isPadding c = true) (hafter : ∀ c ∈ after, isPadding c = true)
    (hall : ∀ c ∈ text, isReferenceChar c = true) (hslash : '/' ∈ text)
    (hhead : text.head? ≠ some '/') (hdots : hasDoubleDot (text.map dot) = false) :
    reference? (before ++ text ++ after) = some (text.map dot) := by
  have htrim : trim (before ++ text ++ after) = text :=
    trim_append before after hbefore
      (fun c hc => isPadding_eq_false_of_isReferenceChar (hall c hc)) hafter
  have hchars : text.all isReferenceChar = true := List.all_eq_true.2 hall
  unfold reference?
  rw [htrim]
  simp [hchars, hslash, hhead, hdots]

theorem reference?_eq_some {raw : List Char} (hall : ∀ c ∈ raw, isReferenceChar c = true)
    (hslash : '/' ∈ raw) (hhead : raw.head? ≠ some '/')
    (hdots : hasDoubleDot (raw.map dot) = false) : reference? raw = some (raw.map dot) := by
  simpa using reference?_padded [] [] (by simp) (by simp) hall hslash hhead hdots

/-- A text that refers to types holds nothing but characters of references and padding. -/
theorem isReferenceChar_of_reference? {raw reference : List Char}
    (h : reference? raw = some reference) {c : Char} (hc : c ∈ raw) :
    isReferenceChar c = true ∨ isPadding c = true := by
  simp only [reference?] at h
  split at h
  · next hall =>
    simp only [Bool.and_eq_true, List.all_eq_true] at hall
    by_cases hpadding : isPadding c = true
    · exact .inr hpadding
    · exact .inl (hall.1.1.1 c (mem_trim hc (Bool.not_eq_true _ ▸ hpadding)))
  · cases h

/-- A text with a character beyond ASCII has no imports. -/
theorem imports_eq_nil_of_mem {raw : String} {c : Char} (hc : c ∈ raw.toList)
    (hbeyond : 0x80 ≤ c.toNat) : imports raw = [] := by
  unfold imports
  split
  · next reference href =>
    rcases isReferenceChar_of_reference? href hc with h | h
    · exact absurd (toNat_of_isReferenceChar h).2 (Nat.not_lt.2 hbeyond)
    · rw [isPadding_iff] at h
      omega
  · rfl

end ClassImports.RawText
