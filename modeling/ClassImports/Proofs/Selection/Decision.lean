import Mathlib
import ClassImports.Proofs.Selection.Line
import ClassImports.Proofs.Selection.Verdict

/-!
# Decisions by the last line

* `Excluded` says what lines exclude: what the last line about it excludes, and a file that no line
  is about if some line includes. This is what is left out (`leavesOut_iff_excluded`).
* `verdict_insert`: one more line has the last word or changes nothing. So an excluding line keeps
  excluded what is excluded, wherever it is inserted (`Excluded.insert_excluding`), and an including
  line excludes nothing if there is one already (`Excluded.of_insert_including`).
-/

namespace ClassImports

namespace Selection

/-! ## Reading several texts -/

theorem ofTexts_append_eq_ok_iff {texts others : List String} {lines : Selection} :
    ofTexts (texts ++ others) = .ok lines ↔
      ∃ first second, ofTexts texts = .ok first ∧ ofTexts others = .ok second ∧
        lines = first ++ second := by
  induction texts generalizing lines with
  | nil =>
    constructor
    · intro h
      exact ⟨[], lines, rfl, h, rfl⟩
    · rintro ⟨first, second, hfirst, hsecond, rfl⟩
      cases hfirst
      exact hsecond
  | cons text texts ih =>
    rw [List.cons_append, ofTexts_cons_eq_ok_iff]
    simp only [ofTexts_cons_eq_ok_iff, ih]
    constructor
    · rintro ⟨line?, _, htext, ⟨first, second, hfirst, hsecond, rfl⟩, rfl⟩
      exact ⟨_, second, ⟨line?, first, htext, hfirst, rfl⟩, hsecond, by rw [List.append_assoc]⟩
    · rintro ⟨_, second, ⟨line?, first, htext, hfirst, rfl⟩, hsecond, rfl⟩
      exact ⟨line?, _, htext, ⟨first, second, hfirst, hsecond, rfl⟩, by rw [List.append_assoc]⟩

/-- Texts that can be used have lines that can be used: one for each text that says something. -/
theorem exists_ofTexts {texts : List String} (h : ∀ text ∈ texts, SelectionLine.Valid text) :
    ∃ lines, ofTexts texts = .ok lines ∧ (∀ line ∈ lines, line.glob.Usable) ∧
      List.Forall₂ (fun text line => SelectionLine.ofText text = .ok (some line))
        (texts.filter fun text => !SelectionLine.saysNothing text) lines := by
  induction texts with
  | nil => exact ⟨[], rfl, by simp, .nil⟩
  | cons text texts ih =>
    obtain ⟨hvalid, hothers⟩ := List.forall_mem_cons.1 h
    obtain ⟨lines, hlines, husable, hread⟩ := ih hothers
    cases hword : SelectionLine.saysNothing text with
    | true =>
      refine ⟨lines, ?_, husable, ?_⟩
      · rw [ofTexts_cons_eq_ok_iff]
        exact ⟨none, lines, SelectionLine.ofText_eq_ok_none_iff.2 hword, hlines, rfl⟩
      · rwa [List.filter_cons_of_neg (by simp [hword])]
    | false =>
      obtain ⟨line, hline, hglob⟩ := hvalid.exists_line hword
      refine ⟨line :: lines, ?_, List.forall_mem_cons.2 ⟨hglob, husable⟩, ?_⟩
      · rw [ofTexts_cons_eq_ok_iff]
        exact ⟨some line, lines, hline, hlines, rfl⟩
      · rw [List.filter_cons_of_pos (by simp [hword])]
        exact .cons hline hread

/-! ## What lines exclude -/

/-- Whether a path is excluded: the last line about it excludes, or no line is about it, it is a
file and some line includes. -/
inductive Excluded (lines : Selection) (path : String) (isDir : Bool) : Prop where
  | byLast {before after : Selection} {line : SelectionLine}
      (hlines : lines = before ++ line :: after) (hcovers : line.covers path isDir = true)
      (hlast : ∀ later ∈ after, later.covers path isDir = false) (hexcludes : line.excludes = true)
  | unmentioned (hnone : ∀ line ∈ lines, line.covers path isDir = false) (hfile : isDir = false)
      (hincluding : ∃ line ∈ lines, line.excludes = false)

variable {lines before after : Selection} {line : SelectionLine} {path : String} {isDir : Bool}

theorem verdict_singleton :
    verdict [line] path isDir =
      if line.covers path isDir then (if line.excludes then .excluded else .included)
      else .unmentioned := by
  unfold verdict
  rw [List.reverse_singleton, List.find?_singleton]
  cases line.covers path isDir <;> rfl

theorem verdict_cons :
    verdict (line :: after) path isDir =
      match after.verdict path isDir with
      | .unmentioned => verdict [line] path isDir
      | verdict => verdict :=
  @verdict_append [line] after path isDir

theorem verdict_eq_unmentioned_iff :
    lines.verdict path isDir = .unmentioned ↔ ∀ line ∈ lines, line.covers path isDir = false := by
  induction lines with
  | nil => simp [verdict]
  | cons line lines ih =>
    rw [verdict_cons, List.forall_mem_cons, ← ih, verdict_singleton]
    cases verdict lines path isDir <;> cases line.covers path isDir <;> cases line.excludes <;> simp

theorem verdict_eq_excluded_iff :
    lines.verdict path isDir = .excluded ↔
      ∃ before line after, lines = before ++ line :: after ∧ line.covers path isDir = true ∧
        (∀ later ∈ after, later.covers path isDir = false) ∧ line.excludes = true := by
  constructor
  · intro h
    induction lines with
    | nil => cases h
    | cons line lines ih =>
      rw [verdict_cons] at h
      cases hlater : verdict lines path isDir with
      | included =>
        rw [hlater] at h
        cases h
      | excluded =>
        obtain ⟨before, last, after, rfl, hlast⟩ := ih hlater
        exact ⟨line :: before, last, after, rfl, hlast⟩
      | unmentioned =>
        rw [hlater] at h
        simp only [verdict_singleton] at h
        split at h
        · next hcovers =>
          split at h
          · next hexcludes =>
            exact ⟨[], line, lines, rfl, hcovers, verdict_eq_unmentioned_iff.1 hlater, hexcludes⟩
          · cases h
        · cases h
  · rintro ⟨before, line, after, rfl, hcovers, hlast, hexcludes⟩
    rw [verdict_append, verdict_cons, verdict_eq_unmentioned_iff.2 hlast, verdict_singleton,
      hcovers, hexcludes]
    rfl

/-- What is left out is what the lines exclude. -/
theorem leavesOut_iff_excluded :
    lines.leavesOut path isDir = true ↔ lines.Excluded path isDir := by
  unfold leavesOut
  constructor
  · intro h
    cases hverdict : lines.verdict path isDir with
    | excluded =>
      obtain ⟨before, line, after, hlines, hcovers, hlast, hexcludes⟩ :=
        verdict_eq_excluded_iff.1 hverdict
      exact .byLast hlines hcovers hlast hexcludes
    | included =>
      rw [hverdict] at h
      cases h
    | unmentioned =>
      rw [hverdict, Bool.and_eq_true, List.any_eq_true] at h
      simp only [Bool.not_eq_true'] at h
      exact .unmentioned (verdict_eq_unmentioned_iff.1 hverdict) h.1 h.2
  · rintro (⟨hlines, hcovers, hlast, hexcludes⟩ | ⟨hnone, hfile, hincluding⟩)
    · rw [verdict_eq_excluded_iff.2 ⟨_, _, _, hlines, hcovers, hlast, hexcludes⟩]
    · rw [verdict_eq_unmentioned_iff.2 hnone, hfile]
      simpa using hincluding

theorem leavesOut_eq_false_iff :
    lines.leavesOut path isDir = false ↔ ¬lines.Excluded path isDir := by
  rw [← leavesOut_iff_excluded, Bool.not_eq_true]

/-! ## One more line -/

/-- One more line decides about a path, or the path is decided as before. -/
theorem verdict_insert (before : Selection) (line : SelectionLine) (after : Selection)
    (path : String) (isDir : Bool) :
    verdict (before ++ line :: after) path isDir =
        (if line.excludes then .excluded else .included) ∨
      verdict (before ++ line :: after) path isDir = verdict (before ++ after) path isDir := by
  rw [verdict_append, verdict_append, verdict_cons, verdict_singleton]
  cases after.verdict path isDir with
  | excluded => exact .inr rfl
  | included => exact .inr rfl
  | unmentioned =>
    cases line.covers path isDir with
    | false => exact .inr rfl
    | true =>
      left
      cases line.excludes <;> rfl

theorem Excluded.insert_excluding (hexcludes : line.excludes = true)
    (h : (before ++ after).Excluded path isDir) :
    (before ++ line :: after).Excluded path isDir := by
  rw [← leavesOut_iff_excluded] at h ⊢
  unfold leavesOut at h ⊢
  have hany : ((before ++ line :: after).any fun line => !line.excludes) =
      (before ++ after).any fun line => !line.excludes := by
    simp [hexcludes]
  rcases verdict_insert before line after path isDir with hverdict | hverdict
  · rw [hverdict, hexcludes]
    rfl
  · rw [hverdict, hany]
    exact h

theorem Excluded.of_insert_including (hincludes : line.excludes = false)
    (hother : ∃ other ∈ before ++ after, other.excludes = false)
    (h : (before ++ line :: after).Excluded path isDir) :
    (before ++ after).Excluded path isDir := by
  rw [← leavesOut_iff_excluded] at h ⊢
  unfold leavesOut at h ⊢
  have hany : ((before ++ after).any fun line => !line.excludes) = true := by
    rw [List.any_eq_true]
    simpa only [Bool.not_eq_true'] using hother
  rcases verdict_insert before line after path isDir with hverdict | hverdict
  · rw [hverdict, hincludes] at h
    cases h
  · rw [hverdict] at h
    cases hbefore : (before ++ after).verdict path isDir with
    | excluded => rfl
    | included =>
      rw [hbefore] at h
      cases h
    | unmentioned =>
      rw [hbefore, Bool.and_eq_true] at h
      rw [hany, h.1]
      rfl

end Selection

end ClassImports
