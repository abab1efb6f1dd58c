import Mathlib
import ClassImports.Report

/-!
# Text reports read back

Reports as text hold no counts and no marks of where a class ends, but they can be read back
(`told_renderAll`): a line that begins with two spaces is an import of the class before it, and
any other line starts a class. For this no newline may stand in a text of a report, and no class
name may begin with a space (`Legible`), since the line of a class could then begin with two.
Classes without a name or without imports do no harm, and neither do imports that are empty or look
like the line of a class.

* `Text.linesOf_unlines`: lines without newlines are what their text is cut into.
* `gather_lines_append`: what the lines of a report tell, whatever lines follow.
-/

namespace ClassImports

/-! ## Lines -/

namespace Text

/-- The lines of a text, which is cut at its newlines; what follows the last of them is no line. -/
def linesOf (text : String) : List String :=
  (text.toList.splitOn '\n').dropLast.map String.ofList

theorem toList_unlines_cons (line : String) (lines : List String) :
    (unlines (line :: lines)).toList = line.toList ++ '\n' :: (unlines lines).toList := by
  unfold unlines
  rw [List.map_cons, String.join_cons, String.toList_append, String.toList_append,
    List.append_assoc]
  rfl

/-- Lines that are ended by newlines, cut at these. -/
theorem splitOn_unlines {lines : List String} (h : ∀ line ∈ lines, '\n' ∉ line.toList) :
    (unlines lines).toList.splitOn '\n' = lines.map String.toList ++ [[]] := by
  induction lines with
  | nil => rfl
  | cons line lines ih =>
    obtain ⟨hline, hlines⟩ := List.forall_mem_cons.1 h
    rw [toList_unlines_cons, List.splitOn_append_cons_self_of_not_mem hline, ih hlines]
    rfl

theorem linesOf_unlines {lines : List String} (h : ∀ line ∈ lines, '\n' ∉ line.toList) :
    linesOf (unlines lines) = lines := by
  unfold linesOf
  rw [splitOn_unlines h, List.dropLast_concat, List.map_map]
  simp [Function.comp_def]

end Text

namespace Report

/-! ## Reading -/

/-- What a text tells of a class: the line of the class, and its imports. -/
structure Block where
  header : String
  imports : List String
  deriving DecidableEq, Repr

/-- Whether a line is that of an import: it begins with two spaces. -/
def isImportLine (line : String) : Bool :=
  "  ".toList.isPrefixOf line.toList

/-- The import on its line, which is what follows the two spaces. -/
def importOn (line : String) : String :=
  String.ofList (line.toList.drop 2)

/-- What lines tell: imports before the first line of a class, and the classes from there on. -/
def gather : List String → List String × List Block
  | [] => ([], [])
  | line :: lines =>
    let rest := gather lines
    if isImportLine line then (importOn line :: rest.1, rest.2)
    else ([], ⟨line, rest.1⟩ :: rest.2)

/-- What a text tells: imports that are of no class, and classes. -/
def told (text : String) : List String × List Block :=
  gather (Text.linesOf text)

/-- What is told of a class. -/
def block (report : Report) : Block where
  header := report.header
  imports := report.imports

theorem gather_cons_of_import {line : String} (h : isImportLine line = true)
    (lines : List String) :
    gather (line :: lines) = (importOn line :: (gather lines).1, (gather lines).2) :=
  if_pos h

theorem gather_cons_of_class {line : String} (h : isImportLine line = false)
    (lines : List String) :
    gather (line :: lines) = ([], ⟨line, (gather lines).1⟩ :: (gather lines).2) :=
  if_neg (Bool.not_eq_true _ ▸ h)

/-! ## The lines of reports -/

theorem isImportLine_indented (name : String) : isImportLine ("  " ++ name) = true := by
  unfold isImportLine
  rw [List.isPrefixOf_iff_prefix, String.toList_append]
  apply List.prefix_append

theorem importOn_indented (name : String) : importOn ("  " ++ name) = name := by
  unfold importOn
  rw [String.toList_append]
  exact String.ofList_toList

/-- Lines of imports come before whatever imports follow. -/
theorem gather_map_indented_append (imports lines : List String) :
    gather (imports.map ("  " ++ ·) ++ lines) =
      (imports ++ (gather lines).1, (gather lines).2) := by
  induction imports with
  | nil => rfl
  | cons name imports ih =>
    rw [List.map_cons, List.cons_append, gather_cons_of_import (isImportLine_indented name), ih,
      importOn_indented]
    rfl

/-- Whether a report can be read back from its text: no newline breaks a line of it, and its class
name does not begin with a space. -/
structure Legible (report : Report) : Prop where
  className : ∀ name ∈ report.className, '\n' ∉ name.toList ∧ name.toList.head? ≠ some ' '
  path : '\n' ∉ report.path.toList
  revision : '\n' ∉ report.revision.toList
  imports : ∀ name ∈ report.imports, '\n' ∉ name.toList

variable {report : Report} {reports : List Report}

theorem toList_header (report : Report) :
    report.header.toList = (report.className.getD "<unnamed>").toList ++ " (".toList ++
      report.path.toList ++ ", Java ".toList ++ report.revision.toList ++ ")".toList := by
  unfold header
  simp only [String.toList_append]

/-- The line of a class begins with its name, or with a space and a parenthesis. -/
theorem Legible.isImportLine_header (h : report.Legible) : isImportLine report.header = false := by
  unfold isImportLine
  rw [toList_header]
  cases hname : report.className with
  | none => rfl
  | some name =>
    obtain ⟨-, hspace⟩ := h.className name hname
    rw [Option.getD_some]
    cases hchars : name.toList with
    | nil => rfl
    | cons c chars =>
      rw [hchars, List.head?_cons] at hspace
      have hfirst : (' ' == c) = false := by
        rw [beq_eq_false_iff_ne]
        intro heq
        exact hspace (congrArg some heq.symm)
      show (' ' == c && _) = false
      rw [hfirst, Bool.false_and]

theorem Legible.newline_notMem_header (h : report.Legible) : '\n' ∉ report.header.toList := by
  have hname : '\n' ∉ (report.className.getD "<unnamed>").toList := by
    cases hname : report.className with
    | none => decide
    | some name => exact (h.className name hname).1
  rw [toList_header]
  simp only [List.mem_append, not_or]
  exact ⟨⟨⟨⟨⟨hname, by decide⟩, h.path⟩, by decide⟩, h.revision⟩, by decide⟩

theorem Legible.newline_notMem_lines (h : report.Legible) :
    ∀ line ∈ report.lines, '\n' ∉ line.toList := by
  unfold lines
  rw [List.forall_mem_cons, List.forall_mem_map]
  refine ⟨h.newline_notMem_header, fun name hname => ?_⟩
  rw [String.toList_append, List.mem_append, not_or]
  exact ⟨by decide, h.imports name hname⟩

/-- The lines of a report tell of its class, and the imports that follow count as its own. -/
theorem Legible.gather_lines_append (h : report.Legible) (lines : List String) :
    gather (report.lines ++ lines) =
      ([], ⟨report.header, report.imports ++ (gather lines).1⟩ :: (gather lines).2) := by
  show gather (report.header :: (report.imports.map ("  " ++ ·) ++ lines)) = _
  rw [gather_cons_of_class h.isImportLine_header, gather_map_indented_append]

theorem gather_flatMap_lines (h : ∀ report ∈ reports, report.Legible) :
    gather (reports.flatMap lines) = ([], reports.map block) := by
  induction reports with
  | nil => rfl
  | cons report reports ih =>
    obtain ⟨hreport, hreports⟩ := List.forall_mem_cons.1 h
    rw [List.flatMap_cons, hreport.gather_lines_append, ih hreports, List.append_nil]
    rfl

theorem told_listText (h : ∀ report ∈ reports, report.Legible) :
    told (listText reports) = ([], reports.map block) := by
  have hlines : ∀ line ∈ reports.flatMap lines, '\n' ∉ line.toList := by
    intro line hline
    obtain ⟨report, hreport, hmem⟩ := List.mem_flatMap.1 hline
    exact (h report hreport).newline_notMem_lines line hmem
  unfold told listText
  rw [Text.linesOf_unlines hlines, gather_flatMap_lines h]

/-- **A text report can be read back.** Cut at its newlines, it tells of as many classes as there
are reports, and of each of them, in order, the line of the class and its imports; no import is left
over. So reports with other imports have another text. -/
theorem told_renderAll (reports : List Report) (h : ∀ report ∈ reports, report.Legible) :
    told (renderAll reports .text) = ([], reports.map block) ∧
    (told (renderAll reports .text)).2.length = reports.length ∧
    ∀ others : List Report, (∀ report ∈ others, report.Legible) →
      reports.map (·.imports) ≠ others.map (·.imports) →
        renderAll reports .text ≠ renderAll others .text := by
  have hread : told (renderAll reports .text) = ([], reports.map block) := told_listText h
  refine ⟨hread, ?_, ?_⟩
  · rw [hread, List.length_map]
  · intro others hothers hne heq
    have hread' : told (renderAll others .text) = ([], others.map block) := told_listText hothers
    rw [← heq, hread, Prod.mk.injEq] at hread'
    have himports := congrArg (List.map Block.imports) hread'.2
    rw [List.map_map, List.map_map] at himports
    exact hne himports

/-! ## Reports that are hard to tell apart -/

/-- A class without a name or imports, one with an empty name whose imports are empty, indented and
like the line of a class, and one whose release is not that of its version. -/
def strange : List Report :=
  [{ path := "A.class", className := none, superClass := none, version := ⟨52, 0⟩, imports := [] },
    { path := " B", className := some "", superClass := none, version := ⟨61, 0⟩,
      imports := ["", "  c.C", "c.C (C.class, Java 9)"] },
    { path := "C.class", className := some "c.C", superClass := none, version := ⟨45, 3⟩,
      revision := "next", imports := ["a.A"] }]

/-- They are read back, and have another text without the empty import. -/
theorem told_renderAll_strange :
    (∀ report ∈ strange, report.Legible) ∧
      told (renderAll strange .text) =
        ([], [⟨"<unnamed> (A.class, Java 1.8)", []⟩,
          ⟨" ( B, Java 17)", ["", "  c.C", "c.C (C.class, Java 9)"]⟩,
          ⟨"c.C (C.class, Java next)", ["a.A"]⟩]) ∧
      renderAll strange .text ≠ renderAll (strange.take 1) .text := by
  have hlegible : ∀ report ∈ strange, report.Legible := by
    unfold strange
    simp only [List.forall_mem_cons]
    refine ⟨⟨by decide, by decide, by decide, by decide⟩, ⟨by decide, by decide, by decide,
      by decide⟩, ⟨by decide, by decide, by decide, by decide⟩, List.forall_mem_nil _⟩
  obtain ⟨hread, -, hother⟩ := told_renderAll strange hlegible
  have hfirst : ∀ report ∈ strange.take 1, report.Legible :=
    fun report h => hlegible report (List.mem_of_mem_take h)
  refine ⟨hlegible, hread.trans (by decide +kernel), hother _ hfirst (by decide +kernel)⟩

end Report

end ClassImports
