import Mathlib
import ClassImports.Proofs.Import.Set
import ClassImports.Proofs.Summary.Highest
import ClassImports.Proofs.Summary.Packages

/-!
# Summaries of parts

The summary of two lists of reports, one after the other, is told by their summaries
(`ofReports_append`): it is their `merge`, and `Merged` says what that holds. The order of reports
matters only for the order of names and imports (`sameButOrder_of_perm`).

Packages of imports are taken from the import set, which has each import once. No package is lost by
that, since what is left out of the set is an import that it has already (`mem_imports_ofReports`).
-/

namespace ClassImports.Summary

/-- The summary of two parts. -/
def merge (first second : Summary) : Summary where
  classCount := first.classCount + second.classCount
  classNames := first.classNames ++ second.classNames
  packages := ascending (first.packages ++ second.packages)
  imports := first.imports.insertAll second.imports.toList
  importedPackages := ascending (first.importedPackages ++ second.importedPackages)
  highestVersion := highest? (first.highestVersion.toList ++ second.highestVersion.toList)

/-- Whether a summary is what two summaries of parts tell of the whole. -/
structure Merged (first second whole : Summary) : Prop where
  classCount : whole.classCount = first.classCount + second.classCount
  classNames : whole.classNames = first.classNames ++ second.classNames
  packages : IsUnion first.packages second.packages whole.packages
  imports : whole.imports.toList =
    first.imports.toList ++ second.imports.toList.filter (· ∉ first.imports.toList)
  importedPackages : IsUnion first.importedPackages second.importedPackages whole.importedPackages
  highestVersion :
    rank? whole.highestVersion = max (rank? first.highestVersion) (rank? second.highestVersion)

/-- Whether two summaries tell the same but for the order of names and imports. -/
structure SameButOrder (summary other : Summary) : Prop where
  classCount : summary.classCount = other.classCount
  packages : summary.packages = other.packages
  importedPackages : summary.importedPackages = other.importedPackages
  highestVersion : summary.highestVersion = other.highestVersion
  release? : summary.release? = other.release?
  mem_imports_iff : ∀ name, name ∈ summary.imports.toList ↔ name ∈ other.imports.toList

variable {reports others : List Report}

/-! ## Imports -/

theorem valid_imports_ofReports (reports : List Report) : (ofReports reports).imports.Valid :=
  ImportSet.valid_empty.insertAll _

theorem mem_imports_ofReports {name : String} :
    name ∈ (ofReports reports).imports.toList ↔ ∃ report ∈ reports, name ∈ report.imports := by
  show name ∈ (ImportSet.ofList _).toList ↔ _
  rw [ImportSet.toList_ofList, List.mem_eraseDups, List.mem_flatMap]

theorem imports_ofReports_append (reports others : List Report) :
    (ofReports (reports ++ others)).imports =
      (ofReports reports).imports.insertAll (ofReports others).imports.toList := by
  show ImportSet.ofList _ = (ImportSet.ofList _).insertAll (ImportSet.ofList _).toList
  rw [ImportSet.toList_ofList, ImportSet.insertAll_eraseDups, List.flatMap_append, ImportSet.ofList,
    ImportSet.insertAll_append, ImportSet.ofList]

theorem mem_imports_ofReports_append {name : String} :
    name ∈ (ofReports (reports ++ others)).imports.toList ↔
      name ∈ (ofReports reports).imports.toList ∨ name ∈ (ofReports others).imports.toList := by
  simp only [mem_imports_ofReports, List.mem_append, or_and_right, exists_or]

/-! ## Parts and the whole -/

theorem ofReports_append_eq_merge (reports others : List Report) :
    ofReports (reports ++ others) = (ofReports reports).merge (ofReports others) := by
  have hnames : (reports ++ others).filterMap (·.className) =
      reports.filterMap (·.className) ++ others.filterMap (·.className) := List.filterMap_append
  have hversions : (reports ++ others).map (·.version) =
      reports.map (·.version) ++ others.map (·.version) := List.map_append
  unfold merge
  rw [← imports_ofReports_append]
  simp only [ofReports, Summary.mk.injEq]
  refine ⟨List.length_append, hnames, ?_, trivial, ?_, ?_⟩
  · apply packagesOf_append
    intro name
    rw [hnames, List.mem_append]
  · exact packagesOf_append fun name => mem_imports_ofReports_append
  · rw [hversions, highest?_append]

theorem merged_merge {first second : Summary} (h : first.imports.Valid)
    (h' : second.imports.Valid) : Merged first second (first.merge second) where
  classCount := rfl
  classNames := rfl
  packages := isUnion_ascending_append _ _
  imports := h.toList_insertAll_toList h'
  importedPackages := isUnion_ascending_append _ _
  highestVersion := by
    show rank? (highest? (_ ++ _)) = _
    rw [rank?_highest?_append, rank?_highest?_toList, rank?_highest?_toList]

/-! ## The order of reports -/

theorem sameButOrder_of_perm (h : reports.Perm others) :
    SameButOrder (ofReports reports) (ofReports others) := by
  have himports : ∀ name, name ∈ (ofReports reports).imports.toList ↔
      name ∈ (ofReports others).imports.toList := by
    intro name
    simp only [mem_imports_ofReports, h.mem_iff]
  have hversion : (ofReports reports).highestVersion = (ofReports others).highestVersion :=
    highest?_eq_of_perm (h.map _)
  constructor
  · exact h.length_eq
  · exact packagesOf_eq fun name => (h.filterMap _).mem_iff
  · exact packagesOf_eq himports
  · exact hversion
  · rw [release?, release?, hversion]
  · exact himports

/-- The packages of imports are those of all imports of all reports. -/
theorem mem_importedPackages_ofReports {package : String} :
    package ∈ (ofReports reports).importedPackages ↔
      package ≠ "" ∧ ∃ report ∈ reports, ∃ name ∈ report.imports, packageOf name = package := by
  show package ∈ packagesOf (ofReports reports).imports.toList ↔ _
  rw [mem_packagesOf]
  refine and_congr_right fun _ => ⟨?_, ?_⟩
  · rintro ⟨name, hname, hpackage⟩
    obtain ⟨report, hreport, himport⟩ := mem_imports_ofReports.1 hname
    exact ⟨report, hreport, name, himport, hpackage⟩
  · rintro ⟨report, hreport, name, himport, hpackage⟩
    exact ⟨name, mem_imports_ofReports.2 ⟨report, hreport, himport⟩, hpackage⟩

/-- **Summaries compose.** The summary of two lists of reports is the merge of their summaries:
counts add up, names follow each other, packages are united, the second list adds the imports that
are new, and the higher version counts. Reports in another order have the same summary but for the
order of names and imports, and the packages of imports are those of all imports of all reports. -/
theorem ofReports_append (reports others : List Report) :
    ofReports (reports ++ others) = (ofReports reports).merge (ofReports others) ∧
    Merged (ofReports reports) (ofReports others) (ofReports (reports ++ others)) ∧
    (reports.Perm others → SameButOrder (ofReports reports) (ofReports others)) ∧
    ∀ package, package ∈ (ofReports reports).importedPackages ↔
      package ≠ "" ∧ ∃ report ∈ reports, ∃ name ∈ report.imports, packageOf name = package := by
  refine ⟨ofReports_append_eq_merge reports others, ?_, sameButOrder_of_perm,
    fun package => mem_importedPackages_ofReports⟩
  rw [ofReports_append_eq_merge]
  exact merged_merge (valid_imports_ofReports reports) (valid_imports_ofReports others)

/-! ## Two classes of a package -/

/-- A class with two imports. -/
def app : Report where
  path := "App.class"
  className := some "com.example.App"
  superClass := none
  version := ⟨52, 0⟩
  imports := ["java.util.List", "com.example.Util"]

/-- A class with an import of the other one, and one without a package. -/
def util : Report where
  path := "Util.class"
  className := some "com.example.Util"
  superClass := none
  version := ⟨61, 0⟩
  imports := ["Top", "java.util.List", "java.io.File"]

theorem toList_imports_ofReports_singleton (report : Report) :
    (ofReports [report]).imports.toList = report.imports.eraseDups := by
  show (ImportSet.ofList _).toList = _
  rw [ImportSet.toList_ofList, List.flatMap_singleton]

/-- The second class adds two imports, and in the other order the first one would add one. -/
theorem ofReports_append_overlapping :
    [app, util].Perm [util, app] ∧
      SameButOrder (ofReports [app, util]) (ofReports [util, app]) ∧
      "java.util" ∈ (ofReports [app, util]).importedPackages ∧
      "" ∉ (ofReports [app, util]).importedPackages ∧
      (ofReports [app, util]).imports.toList =
        ["java.util.List", "com.example.Util", "Top", "java.io.File"] ∧
      (ofReports [util, app]).imports.toList =
        ["Top", "java.util.List", "java.io.File", "com.example.Util"] := by
  have hperm : [app, util].Perm [util, app] := .swap util app []
  obtain ⟨-, -, hsame, hpackages⟩ := ofReports_append [app, util] [util, app]
  obtain ⟨-, hmerged, -, -⟩ := ofReports_append [app] [util]
  obtain ⟨-, hmerged', -, -⟩ := ofReports_append [util] [app]
  refine ⟨hperm, hsame hperm, (hpackages "java.util").2 ?_, fun hempty => ?_, ?_, ?_⟩
  · exact ⟨by decide, app, List.mem_cons_self, "java.util.List", List.mem_cons_self, by decide⟩
  · exact ((hpackages "").1 hempty).1 rfl
  · refine hmerged.imports.trans ?_
    rw [toList_imports_ofReports_singleton, toList_imports_ofReports_singleton]
    decide +kernel
  · refine hmerged'.imports.trans ?_
    rw [toList_imports_ofReports_singleton, toList_imports_ofReports_singleton]
    decide +kernel

end ClassImports.Summary
