import Mathlib
import ClassImports.Proofs.Results
import ClassImports.Selection.Basic

/-!
# The verdict of two lists of lines

The last line that is about a path decides, so of two lists one after the other the second decides
wherever it says anything (`verdict_append`). If the first holds excluding lines only, then
`leavesOut_append` says which paths both together leave out: where a line of the first is about the
path, those that the second does not include; elsewhere those that the second leaves out by itself.
-/

namespace ClassImports

namespace Selection

/-- Texts are read one after the other, and a text that says nothing leaves no line. -/
theorem ofTexts_cons_eq_ok_iff {text : String} {texts : List String} {lines : Selection} :
    ofTexts (text :: texts) = .ok lines ↔
      ∃ line? rest, SelectionLine.ofText text = .ok line? ∧ ofTexts texts = .ok rest ∧
        lines = line?.toList ++ rest := by
  unfold ofTexts
  rw [List.mapM_cons, Except.map_eq_ok_iff]
  simp only [Except.bind_eq_ok_iff, Except.map_eq_ok_iff, pure, Except.pure, Except.ok.injEq]
  constructor
  · rintro ⟨_, ⟨line?, htext, read, hread, rfl⟩, rfl⟩
    refine ⟨line?, read.filterMap id, htext, ⟨read, hread, rfl⟩, ?_⟩
    cases line? <;> rfl
  · rintro ⟨line?, _, htext, ⟨read, hread, rfl⟩, rfl⟩
    refine ⟨line? :: read, ⟨line?, htext, read, hread, rfl⟩, ?_⟩
    cases line? <;> rfl

/-- The lines of texts are those of the single texts. -/
theorem mem_iff_of_ofTexts {texts : List String} {lines : Selection} (h : ofTexts texts = .ok lines)
    {line : SelectionLine} :
    line ∈ lines ↔ ∃ text ∈ texts, SelectionLine.ofText text = .ok (some line) := by
  induction texts generalizing lines with
  | nil =>
    cases h
    simp
  | cons text texts ih =>
    obtain ⟨line?, rest, htext, hrest, rfl⟩ := ofTexts_cons_eq_ok_iff.mp h
    simp [ih hrest, htext, eq_comm]

variable {first second : Selection} {path : String} {isDir : Bool}

/-- Whether some line is about a path. -/
def mentions (lines : Selection) (path : String) (isDir : Bool) : Bool :=
  lines.any fun line => line.covers path isDir

theorem verdict_append :
    verdict (first ++ second) path isDir =
      match second.verdict path isDir with
      | .unmentioned => first.verdict path isDir
      | verdict => verdict := by
  unfold verdict
  rw [List.reverse_append, List.find?_append]
  cases hsecond : second.reverse.find? fun line => line.covers path isDir with
  | none => simp
  | some line => cases hline : line.excludes <;> simp [hline]

/-- Lines that all exclude say nothing but that. -/
theorem verdict_of_excluding (h : ∀ line ∈ first, line.excludes = true) :
    first.verdict path isDir =
      if first.mentions path isDir then .excluded else .unmentioned := by
  unfold verdict mentions
  cases hfind : first.reverse.find? fun line => line.covers path isDir with
  | none =>
    have hmentions : (first.any fun line => line.covers path isDir) = false := by
      simpa using hfind
    rw [hmentions]
    rfl
  | some line =>
    have hmem : line ∈ first := List.mem_reverse.mp (List.mem_of_find?_eq_some hfind)
    have hcovers := List.find?_some hfind
    rw [if_pos (List.any_eq_true.mpr ⟨line, hmem, hcovers⟩)]
    simp [h line hmem]

/-- Excluding lines before others: where they are about a path, only the others can keep it. -/
theorem leavesOut_append (h : ∀ line ∈ first, line.excludes = true) :
    leavesOut (first ++ second) path isDir =
      if first.mentions path isDir then second.verdict path isDir != .included
      else second.leavesOut path isDir := by
  have hany : (first.any fun line => !line.excludes) = false := by simpa using h
  unfold leavesOut
  rw [verdict_append, List.any_append, hany, Bool.false_or, verdict_of_excluding h]
  cases hverdict : second.verdict path isDir <;> cases first.mentions path isDir <;> rfl

end Selection

end ClassImports
