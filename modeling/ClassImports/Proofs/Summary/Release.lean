import Mathlib
import ClassImports.Proofs.Summary.Highest

/-!
# The release that classes need

Texts of releases stand in the order `1.0`, `1.1`, …, `1.8`, `9`, `10`, … (`Release.TextLe`), which
is that of the numbers of the releases, since no two releases have the same text
(`Release.textLe_text_iff`). A higher version never has an earlier release
(`Version.number_release_le`), although the first versions share a release and the spelling changes
after the release 8. So the release of the highest version, which is that of a summary, is the
latest one of all classes (`release?_ofReports_suffices`).
-/

namespace ClassImports

/-! ## Texts of releases -/

namespace Release

/-- Whether a text stands before another one, or is the same, in `1.0`, `1.1`, …, `1.8`, `9`, `10`,
…, which are the texts of the releases in the order of their numbers. -/
def TextLe (text other : String) : Prop :=
  ∃ release later : Release,
    release.text = text ∧ later.text = other ∧ release.number ≤ later.number

theorem text_of_le {release : Release} (h : release.number ≤ 8) :
    release.text = "1." ++ toString release.number :=
  if_pos h

theorem text_of_lt {release : Release} (h : 8 < release.number) :
    release.text = toString release.number :=
  if_neg (Nat.not_le_of_lt h)

/-- The text of a release has a point exactly up to the release 8. -/
theorem point_mem_text_iff {release : Release} : '.' ∈ release.text.toList ↔ release.number ≤ 8 := by
  rcases Nat.lt_or_ge 8 release.number with hlate | hearly
  · rw [text_of_lt hlate]
    refine iff_of_false (fun hpoint => ?_) (Nat.not_le_of_lt hlate)
    rw [Nat.toString_eq_repr, Nat.toList_repr] at hpoint
    exact absurd (Nat.isDigit_of_mem_toDigits (by decide) (by decide) hpoint) (by decide)
  · rw [text_of_le hearly, String.toList_append]
    refine iff_of_true ?_ hearly
    apply List.mem_append_left
    decide

/-- A text is that of one release at most. -/
theorem text_injective : Function.Injective text := by
  intro a b h
  have hside : a.number ≤ 8 ↔ b.number ≤ 8 := by
    rw [← point_mem_text_iff, ← point_mem_text_iff, h]
  have hnumber : toString a.number = toString b.number := by
    rcases Nat.lt_or_ge 8 a.number with hlate | hearly
    · have hlate' : 8 < b.number := Nat.lt_of_not_le fun hle => by omega
      rwa [text_of_lt hlate, text_of_lt hlate'] at h
    · rw [text_of_le hearly, text_of_le (hside.1 hearly)] at h
      exact String.append_right_inj "1." |>.1 h
  rw [Nat.toString_eq_repr, Nat.toString_eq_repr, Nat.repr_inj] at hnumber
  cases a
  cases b
  exact congrArg Release.mk hnumber

/-- Texts of releases stand in the order of the numbers. -/
theorem textLe_text_iff {release later : Release} :
    TextLe release.text later.text ↔ release.number ≤ later.number := by
  constructor
  · rintro ⟨a, b, ha, hb, hle⟩
    rwa [text_injective ha, text_injective hb] at hle
  · intro hle
    exact ⟨release, later, rfl, rfl, hle⟩

end Release

/-! ## Releases of versions -/

namespace Version

theorem number_release (version : Version) :
    version.release.number =
      if version.major.toNat < 45 then 0
      else if version.major.toNat = 45 then (if version.minor.toNat < 3 then 0 else 1)
      else version.major.toNat - 44 := by
  unfold release
  simp only [UInt16.lt_iff_toNat_lt, ← UInt16.toNat_inj, UInt16.reduceToNat]
  split_ifs <;> rfl

/-- A higher version has no earlier release. -/
theorem number_release_le {version other : Version} (h : version.le other = true) :
    version.release.number ≤ other.release.number := by
  have hrank := (le_iff version other).1 h
  unfold rank at hrank
  rw [Prod.Lex.toLex_le_toLex] at hrank
  rw [number_release, number_release]
  split_ifs <;> omega

end Version

/-! ## Releases of summaries -/

namespace Summary

/-- The highest version of a list is in it, and none of the others is higher. -/
theorem highest?_eq_some_iff {versions : List Version} {version : Version} :
    highest? versions = some version ↔
      version ∈ versions ∧ ∀ other ∈ versions, other.le version = true := by
  have hrank : highest? versions = some version ↔
      (versions.map Version.rank).maximum = (version.rank : WithBot (ℕ ×ₗ ℕ)) := by
    rw [← rank?_highest?]
    exact rank?_injective.eq_iff.symm
  rw [hrank, List.maximum_eq_coe_iff, List.mem_map_of_injective Version.rank_injective,
    List.forall_mem_map]
  simp only [Version.le_iff]

theorem exists_highest?_eq_some {versions : List Version} (h : versions ≠ []) :
    ∃ version, highest? versions = some version := by
  cases hhighest : highest? versions with
  | some version => exact ⟨version, rfl⟩
  | none =>
    have hmaximum : (versions.map Version.rank).maximum = ⊥ := by
      rw [← rank?_highest?, hhighest]
      rfl
    rw [List.maximum_eq_bot, List.map_eq_nil_iff] at hmaximum
    exact absurd hmaximum h

/-- **The release of a summary is enough for every class.** It is the release of one of the classes,
and none of them has a later one; for a higher version never has an earlier release. -/
theorem release?_ofReports_suffices (reports : List Report) (hne : reports ≠ [])
    (hrevision : ∀ report ∈ reports, report.revision = report.release.text) :
    (∃ release, (ofReports reports).release? = some release ∧
      (∃ report ∈ reports, report.revision = release.text) ∧
      ∀ report ∈ reports, Release.TextLe report.revision release.text) ∧
    ∀ version other : Version, version.le other = true →
      Release.TextLe version.release.text other.release.text := by
  have hmono : ∀ version other : Version, version.le other = true →
      Release.TextLe version.release.text other.release.text := by
    intro version other hle
    exact Release.textLe_text_iff.2 (Version.number_release_le hle)
  have hversions : reports.map (·.version) ≠ [] := by
    rwa [ne_eq, List.map_eq_nil_iff]
  obtain ⟨version, hhighest⟩ := exists_highest?_eq_some hversions
  obtain ⟨hmem, hmax⟩ := highest?_eq_some_iff.1 hhighest
  obtain ⟨highest, hreport, rfl⟩ := List.mem_map.1 hmem
  refine ⟨⟨highest.release, ?_, ⟨highest, hreport, hrevision highest hreport⟩, ?_⟩, hmono⟩
  · show (highest? (reports.map (·.version))).map (·.release) = _
    rw [hhighest]
    rfl
  · intro report hmem'
    rw [hrevision report hmem']
    apply hmono
    exact hmax _ (List.mem_map_of_mem hmem')

/-- Classes of the first versions, of the last release with a point and of the first without. -/
def ages : List Report :=
  [⟨45, 2⟩, ⟨53, 0⟩, ⟨45, 3⟩, ⟨52, 65535⟩].map fun version =>
    { path := "A.class", className := none, superClass := none, version, imports := [] }

/-- The release 9 is enough for them, and its text stands after `1.8`, but before `10`. -/
theorem release?_ofReports_suffices_ages :
    ages ≠ [] ∧ (∀ report ∈ ages, report.revision = report.release.text) ∧
      ages.map (·.revision) = ["1.0", "9", "1.1", "1.8"] ∧
      (ofReports ages).release?.map (·.text) = some "9" ∧
      (∀ report ∈ ages, Release.TextLe report.revision "9") ∧
      Version.le ⟨53, 0⟩ ⟨54, 0⟩ = true ∧ Release.TextLe "9" "10" ∧ ¬Release.TextLe "10" "9" := by
  have hne : ages ≠ [] := by decide
  have hrevision : ∀ report ∈ ages, report.revision = report.release.text := by decide
  obtain ⟨⟨release, hrelease, -, hall⟩, hmono⟩ := release?_ofReports_suffices ages hne hrevision
  have hnine : (ofReports ages).release? = some ⟨9⟩ := by rfl
  rw [hnine, Option.some_inj] at hrelease
  subst hrelease
  refine ⟨hne, hrevision, by decide, by rw [hnine]; rfl, hall, by decide,
    hmono ⟨53, 0⟩ ⟨54, 0⟩ (by decide), fun hten => ?_⟩
  have hle : (⟨10⟩ : Release).number ≤ (⟨9⟩ : Release).number := Release.textLe_text_iff.1 hten
  exact absurd hle (by decide)

end Summary

end ClassImports
