import Mathlib
import ClassImports.Proofs.Glob.Usable
import ClassImports.Selection.Line

/-!
# Texts as selection lines

`Valid` tells the texts that can be used as lines. Of these, a text says nothing if it starts with
`#` or is blank (`ofText_eq_ok_none_iff`), and excludes if it starts with `!`
(`excludes_iff_of_ofText`).
-/

namespace ClassImports

namespace Text

theorem trimEnd_eq_nil_iff {text : List Char} :
    trimEnd text = [] ↔ ∀ c ∈ text, isBlank c = true := by
  unfold trimEnd
  rw [List.reverse_eq_nil_iff, List.dropWhile_eq_nil_iff]
  simp only [List.mem_reverse]

end Text

namespace SelectionLine

/-- Whether a text can be used as a line. -/
def Valid (text : String) : Prop :=
  ∃ line?, ofText text = .ok line? ∧ ∀ line ∈ line?, line.glob.Usable

instance (text : String) : Decidable (Valid text) :=
  decidable_of_iff
    ((ofText text).toOption.any fun line? => line?.all fun line => line.glob.Usable) <| by
      unfold Valid
      cases ofText text <;> simp [Except.toOption, Option.all_eq_true]

/-- Whether a text says nothing as a line: it starts with `#` or is blank. -/
def saysNothing (text : String) : Bool :=
  text.toList.head? == some '#' || text.toList.all Text.isBlank

/-- Whether a text includes as a line: it says something and does not start with `!`. -/
def Includes (text : String) : Prop :=
  saysNothing text = false ∧ text.toList.head? ≠ some '!'

theorem trim_eq_nil_iff {text : List Char} :
    trim text = [] ↔ ∀ c ∈ text, Text.isBlank c = true := by
  unfold trim
  split
  · next hend =>
    -- the backslash before the last blank is not blank itself
    refine iff_of_false (fun hnil => ?_) (fun hblank => ?_)
    · rw [hnil] at hend
      cases hend
    · obtain ⟨rest, hrest⟩ := List.isPrefixOf_iff_prefix.1 hend
      have hmem : '\\' ∈ text := by
        rw [← List.mem_reverse, ← hrest]
        exact List.mem_append_left _ (List.mem_cons_of_mem _ (List.mem_singleton_self _))
      exact absurd (hblank _ hmem) (by decide)
  · exact Text.trimEnd_eq_nil_iff

/-- A line starts as its text does, if it says anything. -/
theorem head?_trim {text : List Char} (h : trim text ≠ []) : (trim text).head? = text.head? := by
  revert h
  unfold trim
  split
  · exact fun _ => rfl
  · intro h
    cases text with
    | nil => rfl
    | cons c rest =>
      have hstart : Text.trimEnd (c :: rest) <+: c :: rest := by
        unfold Text.trimEnd
        rw [← List.reverse_suffix, List.reverse_reverse]
        exact List.dropWhile_suffix _
      obtain ⟨tail, htail⟩ := hstart
      obtain ⟨first, others, hfirst⟩ := List.exists_cons_of_ne_nil h
      rw [hfirst] at htail ⊢
      rw [List.cons_append, List.cons_eq_cons] at htail
      rw [htail.1]
      rfl

/-- A line excludes exactly if it starts with `!`. -/
theorem splitStart_fst_iff (line : List Char) :
    (splitStart line).1 = true ↔ line.head? = some '!' := by
  unfold splitStart
  split
  · simp
  · simp
  · simp
  · simp
  · simp
  · next hbang _ =>
    refine iff_of_false Bool.false_ne_true (fun hhead => ?_)
    obtain ⟨rest, hrest⟩ := List.head?_eq_some_iff.1 hhead
    exact hbang rest hrest

theorem ofText_eq_ok_none_iff {text : String} :
    ofText text = .ok none ↔ saysNothing text = true := by
  unfold ofText saysNothing
  rw [Bool.or_eq_true, beq_iff_eq, List.all_eq_true, ← trim_eq_nil_iff]
  by_cases hcomment : text.toList.head? = some '#'
  · simp [hcomment]
  · rw [if_neg hcomment]
    by_cases hblank : trim text.toList = []
    · simp [hblank]
    · have hline : (trim text.toList).isEmpty = false := by simpa using hblank
      refine iff_of_false (fun h => ?_) (fun h => h.elim hcomment hblank)
      simp only [hline, Bool.false_eq_true, if_false] at h
      split at h <;> cases h

/-- A line excludes exactly if its text starts with `!`. -/
theorem excludes_iff_of_ofText {text : String} {line : SelectionLine}
    (h : ofText text = .ok (some line)) :
    line.excludes = true ↔ text.toList.head? = some '!' := by
  have hword : trim text.toList ≠ [] := by
    intro hblank
    have hnothing : ofText text = .ok none := by
      rw [ofText_eq_ok_none_iff]
      unfold saysNothing
      rw [Bool.or_eq_true, List.all_eq_true]
      exact .inr (trim_eq_nil_iff.1 hblank)
    rw [hnothing] at h
    cases h
  rw [← head?_trim hword, ← splitStart_fst_iff]
  unfold ofText at h
  simp only at h
  generalize splitStart (trim text.toList) = start at h ⊢
  obtain ⟨excludes, anchored, glob⟩ := start
  simp only at h
  split at h
  · cases h
  · split at h
    · cases h
    · split at h
      · cases h
        rfl
      · cases h

theorem Valid.exists_line {text : String} (h : Valid text) (hword : saysNothing text = false) :
    ∃ line, ofText text = .ok (some line) ∧ line.glob.Usable := by
  obtain ⟨line?, hread, husable⟩ := h
  cases line? with
  | none =>
    rw [ofText_eq_ok_none_iff, hword] at hread
    cases hread
  | some line => exact ⟨line, hread, husable line rfl⟩

theorem saysNothing_bang (pattern : String) : saysNothing ("!" ++ pattern) = false := by
  simp [saysNothing, Text.isBlank]

theorem head?_bang (pattern : String) : ("!" ++ pattern).toList.head? = some '!' := by
  simp

/-- A line that starts with `!` excludes. -/
theorem excludes_of_ofText_bang {pattern : String} {line : SelectionLine}
    (h : ofText ("!" ++ pattern) = .ok (some line)) : line.excludes = true :=
  (excludes_iff_of_ofText h).2 (head?_bang pattern)

end SelectionLine

end ClassImports
