import Mathlib
import ClassImports.Proofs.Import.RawText
import ClassImports.Proofs.ModifiedUtf8.Malformed

/-!
# Imports of malformed text constants

A text constant whose octets are malformed has no imports, as long as the reading sees that they
are: a U+FFFD in a text, or a character above U+FFFF, keeps it from having any. The reading does not
see that a sequence is too long, and such a constant has the imports of the text it spells
(`mem_imports_decode_iff_of_not_wellFormed`).
-/

namespace ClassImports.RawText

open ModifiedUtf8 (decode decodeChars Readable Overlong WellFormed
  mem_decodeChars_or_readable decodeChars_of_readable forall₂_sequence_or)

/-- Octets that have imports are sequences of ASCII characters one after the other. -/
theorem readable_of_mem_imports {payload : Bytes} {name : String}
    (h : name ∈ imports (decode payload)) :
    ∃ forms, List.Forall₂ Readable forms (decodeChars payload) ∧ payload = forms.flatten ∧
      ∀ c ∈ decodeChars payload, c.toNat < 0x80 := by
  have hascii : ∀ c ∈ decodeChars payload, c.toNat < 0x80 := by
    intro c hc
    by_contra hbeyond
    have hmem : c ∈ (decode payload).toList := by rwa [decode, String.toList_ofList]
    rw [imports_eq_nil_of_mem hmem (Nat.le_of_not_lt hbeyond)] at h
    exact List.not_mem_nil h
  rcases mem_decodeChars_or_readable payload with ⟨c, hc, hmark⟩ | ⟨forms, hforms, hjoin⟩
  · have hlow := hascii c hc
    rcases hmark with rfl | hhigh
    · exact absurd hlow (by decide)
    · omega
  · exact ⟨forms, hforms, hjoin, hascii⟩

/-- **Malformed octets have imports only through overlong forms**: if octets are not well-formed,
they have an import exactly if they are sequences one after the other, at least one of them an
overlong form of an ASCII character, and the text that the sequences spell has the import. All
other malformed octets have no imports. -/
theorem mem_imports_decode_iff_of_not_wellFormed {payload : Bytes} (h : ¬WellFormed payload)
    (name : String) :
    name ∈ imports (decode payload) ↔
      ∃ forms chars, List.Forall₂ Readable forms chars ∧ payload = forms.flatten ∧
        (∃ form ∈ forms, ∃ c, Overlong form c ∧ c.toNat < 0x80) ∧
        name ∈ imports (String.ofList chars) := by
  constructor
  · intro hname
    obtain ⟨forms, hforms, hjoin, hascii⟩ := readable_of_mem_imports hname
    refine ⟨forms, decodeChars payload, hforms, hjoin, ?_, hname⟩
    rcases forall₂_sequence_or hforms with hsequences | ⟨form, hform, c, hc, hlong⟩
    · exact absurd ⟨forms, _, hsequences, hjoin⟩ h
    · exact ⟨form, hform, c, hlong, hascii c hc⟩
  · rintro ⟨forms, chars, hforms, rfl, -, hname⟩
    rwa [decode, decodeChars_of_readable hforms]

/-- `C1 81` is an overlong form of `A`. -/
theorem mem_imports_decode_iff_of_not_wellFormed_overlong :
    ¬WellFormed [0x61, 0x2F, 0xC1, 0x81] ∧
      "a.A" ∈ imports (decode [0x61, 0x2F, 0xC1, 0x81]) := by
  have hmalformed : ¬WellFormed [0x61, 0x2F, 0xC1, 0x81] := fun h => h.not_mem (by decide)
  have hlong : Overlong [0xC1, 0x81] 'A' := .double (by decide) (by decide) (by decide)
  have hforms : List.Forall₂ Readable [[0x61], [0x2F], [0xC1, 0x81]] ['a', '/', 'A'] :=
    .cons (.inl (.single (by decide))) (.cons (.inl (.single (by decide)))
      (.cons (.inr hlong) .nil))
  have himports : imports (String.ofList ['a', '/', 'A']) = ["a.A"] := by cbv
  refine ⟨hmalformed, (mem_imports_decode_iff_of_not_wellFormed hmalformed "a.A").2 ?_⟩
  exact ⟨_, _, hforms, rfl, ⟨_, by simp, _, hlong, by decide⟩, himports ▸ List.mem_cons_self⟩

end ClassImports.RawText
