import Mathlib
import ClassImports.Proofs.ModifiedUtf8.Malformed

/-!
# Octets joined

A damaged sequence damages only itself. The reading looks ahead for continuation octets and, after
a high surrogate, for the `ED` of a low one. Octets that start with neither are not looked into from
before (`sequence_append`), so they read behind others as they read alone, however malformed both
are (`decodeSequences_append`). Below `F0`, where it does not matter which reading is taken, this is
so of `decode` as well (`decode_append`).
-/

namespace ClassImports.ModifiedUtf8

open Utf8 (isContinuation)

/-- Octets that the sequence before them cannot go on with. -/
def StartsAnew (bytes : Bytes) : Prop :=
  ∀ octet ∈ bytes.head?, isContinuation octet = false ∧ octet ≠ 0xED

section

variable {next : Bytes} (h : StartsAnew next)
include h

/-! ## One step -/

/-- What lacks continuation octets is no unit with the next octets either. -/
theorem StartsAnew.unit?_append {bytes : Bytes} (hne : bytes ≠ []) :
    unit? (bytes ++ next) = (unit? bytes).map fun unit => (unit.1, unit.2 ++ next) := by
  cases bytes with
  | nil => exact absurd rfl hne
  | cons a bytes =>
    cases bytes with
    | nil =>
      cases next with
      | nil => rfl
      | cons x rest =>
        have hx : isContinuation x = false := (h x rfl).1
        cases rest with
        | nil => rfl
        | cons y rest => simp [unit?, hx]
    | cons x bytes =>
      cases bytes with
      | nil =>
        cases next with
        | nil => rfl
        | cons y rest =>
          have hy : isContinuation y = false := (h y rfl).1
          simp [unit?, hy]
      | cons y rest =>
        simp only [List.cons_append, unit?]
        split <;> rfl

/-- The next octets do not start with a low surrogate. -/
theorem StartsAnew.isLowSurrogate_eq_false {low : Nat} {after : Bytes}
    (hunit : unit? next = some (low, after)) : isLowSurrogate low = false := by
  rw [← Bool.not_eq_true, isLowSurrogate_iff]
  intro hlow
  obtain ⟨form, hform, rfl⟩ := exists_unitForm hunit
  obtain ⟨x, y, rfl, -⟩ := hform.exists_of_surrogate (by omega)
  exact (h 0xED rfl).2 rfl

theorem StartsAnew.afterHigh_append (high : Nat) (rest : Bytes) :
    afterHigh high (rest ++ next) = ((afterHigh high rest).1, (afterHigh high rest).2 ++ next) := by
  by_cases hrest : rest = []
  · subst hrest
    rw [List.nil_append]
    unfold afterHigh
    cases hunit : unit? next with
    | none => rfl
    | some low =>
      have hlow := h.isLowSurrogate_eq_false hunit
      simp only [hlow]
      rfl
  · unfold afterHigh
    rw [h.unit?_append hrest]
    cases unit? rest with
    | none => rfl
    | some low =>
      cases hlow : isLowSurrogate low.1 with
      | true => simp only [Option.map_some, hlow, if_true]
      | false => simp only [Option.map_some, hlow, Bool.false_eq_true, if_false]

/-- One step of the reading takes the same off the octets, whatever octets come next. -/
theorem StartsAnew.sequence_append (lead : UInt8) (rest : Bytes) :
    sequence lead (rest ++ next) = ((sequence lead rest).1, (sequence lead rest).2 ++ next) := by
  unfold sequence
  split
  · rfl
  split
  · cases rest with
    | nil =>
      rw [List.nil_append]
      cases next with
      | nil => rfl
      | cons x rest =>
        have hx : isContinuation x = false := (h x rfl).1
        simp only [hx]
        rfl
    | cons x rest =>
      simp only [List.cons_append]
      split <;> rfl
  split
  · rw [← List.cons_append, h.unit?_append (List.cons_ne_nil lead rest)]
    cases unit? (lead :: rest) with
    | none => rfl
    | some unit =>
      simp only [Option.map_some]
      split
      · exact h.afterHigh_append unit.1 unit.2
      · rfl
  · rfl

/-! ## All octets -/

theorem StartsAnew.decodeSequences_append :
    ∀ bytes, decodeSequences (bytes ++ next) = decodeSequences bytes ++ decodeSequences next
  | [] => by rw [List.nil_append, decodeSequences_nil, List.nil_append]
  | lead :: rest => by
    have hshorter := length_sequence_le lead rest
    rw [List.cons_append, decodeSequences_cons, h.sequence_append, decodeSequences_cons,
      decodeSequences_append (sequence lead rest).2, List.cons_append]
termination_by bytes => bytes.length

end

/-- **A damaged sequence damages only itself.** Octets below `F0` in two parts, of which the second
is empty or starts neither with a continuation octet nor with `ED`, read as the texts of the parts,
one after the other, however malformed the parts are and whichever way each of the three is read. -/
theorem decode_append {bytes next : Bytes} (hbytes : ∀ octet ∈ bytes, octet < 0xF0)
    (hnext : ∀ octet ∈ next, octet < 0xF0) (h : StartsAnew next) :
    decode (bytes ++ next) = decode bytes ++ decode next := by
  have hboth : ∀ octet ∈ bytes ++ next, octet < 0xF0 :=
    List.forall_mem_append.2 ⟨hbytes, hnext⟩
  unfold decode
  rw [decodeChars_eq_decodeSequences hboth, decodeChars_eq_decodeSequences hbytes,
    decodeChars_eq_decodeSequences hnext, h.decodeSequences_append, String.ofList_append]

/-- A lone high surrogate, read one sequence at a time, in front of octets that are taken as UTF-8. -/
theorem decode_append_damaged :
    (∀ octet ∈ [0x78, 0xED, 0xA0, 0xBD], octet < (0xF0 : UInt8)) ∧
      (∀ octet ∈ [0xC3, 0xA9], octet < (0xF0 : UInt8)) ∧ StartsAnew [0xC3, 0xA9] ∧
      decode ([0x78, 0xED, 0xA0, 0xBD] ++ [0xC3, 0xA9]) = "x\uFFFDé" := by
  have hbytes : ∀ octet ∈ [0x78, 0xED, 0xA0, 0xBD], octet < (0xF0 : UInt8) := by simp
  have hnext : ∀ octet ∈ [0xC3, 0xA9], octet < (0xF0 : UInt8) := by simp
  have hstart : StartsAnew [0xC3, 0xA9] := by
    intro octet hoctet
    cases hoctet
    decide
  have hdamaged : decode [0x78, 0xED, 0xA0, 0xBD] = "x\uFFFD" := by cbv
  have hplain : decode [0xC3, 0xA9] = "é" := by cbv
  refine ⟨hbytes, hnext, hstart, ?_⟩
  rw [decode_append hbytes hnext hstart, hdamaged, hplain]
  decide

end ClassImports.ModifiedUtf8
