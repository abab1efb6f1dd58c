import Mathlib
import ClassImports.Proofs.Glob.Literal
import ClassImports.Proofs.Results
import ClassImports.Proofs.Settings

/-!
# Ignored packages

A package is ignored by its name and `.*` or `.**`. Such patterns are valid (`ofPatterns_text`), and
a filter of them keeps exactly the names that lie in none of the packages
(`PackagePattern.retains_iff`). So only the set of the ignored packages counts for what is kept,
wherever they are given (`load_ignoring_packages`).

A limit on the size of what patterns compile to is not modelled; an extremely long name of a package
could exceed one.
-/

namespace ClassImports

/-- Whether a name lies in a package or in one below it. -/
def LiesIn (package name : String) : Prop :=
  ∃ rest, name = package ++ "." ++ rest

theorem liesIn_iff {package name : String} :
    LiesIn package name ↔ package.toList ++ ['.'] <+: name.toList := by
  have hstart : (package ++ ".").toList = package.toList ++ ['.'] := String.toList_append
  constructor
  · rintro ⟨rest, rfl⟩
    rw [String.toList_append, hstart]
    exact List.prefix_append _ _
  · rintro ⟨rest, hname⟩
    refine ⟨String.ofList rest, String.toList_inj.1 ?_⟩
    rw [String.toList_append, hstart, String.toList_ofList, hname]

instance (package name : String) : Decidable (LiesIn package name) :=
  decidable_of_iff _ liesIn_iff.symm

/-- A pattern that ignores a package: any text without special characters, and then a dot and a
star, or two of them. -/
structure PackagePattern where
  package : String
  twoStars : Bool
  plain : ∀ c ∈ package.toList, Glob.isSpecial c = false

namespace PackagePattern

variable {pattern : PackagePattern} {patterns : List PackagePattern} {name : String}

/-- The pattern as it is written. -/
def text (pattern : PackagePattern) : String :=
  pattern.package ++ if pattern.twoStars then ".**" else ".*"

/-- What the names in the package start with. -/
def start (pattern : PackagePattern) : List Char :=
  pattern.package.toList ++ ['.']

/-- How many stars the pattern has beyond the first one. -/
def moreStars (pattern : PackagePattern) : Nat :=
  if pattern.twoStars then 1 else 0

/-- The glob that the pattern is. -/
def glob (pattern : PackagePattern) : Glob where
  text := pattern.text
  tokens := Glob.startingWith pattern.start pattern.moreStars
  stopsAtSlash := false

theorem start_ne_nil (pattern : PackagePattern) : pattern.start ≠ [] :=
  List.concat_ne_nil _ _

theorem toList_text (pattern : PackagePattern) :
    pattern.text.toList =
      pattern.package.toList ++ '.' :: List.replicate (pattern.moreStars + 1) '*' := by
  rw [text, moreStars, String.toList_append]
  cases pattern.twoStars with
  | false => simp
  | true => simp

/-- The stars are read as such: two of them are a double star only after a slash, and a dot stands
before these. -/
theorem ofText?_text (pattern : PackagePattern) :
    Glob.ofText? pattern.text false = .ok pattern.glob := by
  have hstars : pattern.moreStars ≤ 1 := by
    rw [moreStars]
    split <;> omega
  have hread : Glob.readTokens {} pattern.text.toList = .ok pattern.glob.tokens := by
    rw [toList_text]
    exact Glob.readTokens_startingWith pattern.plain rfl (by decide) hstars
  rw [Glob.ofText?, hread]
  rfl

/-- Patterns of this kind are always a filter, for their globs do not nest. -/
theorem ofPatterns_text (patterns : List PackagePattern) :
    ImportFilter.ofPatterns (patterns.map text) = .ok ⟨patterns.map glob⟩ := by
  have hglobs : (patterns.map text).mapM (fun pattern => Glob.ofText? pattern false) =
      .ok (patterns.map glob) := by
    have hread : (fun pattern : PackagePattern => Glob.ofText? pattern.text false) =
        fun pattern => pure pattern.glob := funext ofText?_text
    rw [List.mapM_map]
    exact (congrArg (patterns.mapM ·) hread).trans List.mapM_pure
  have hdepth : Glob.checkDepth (patterns.map glob) = .ok () := by
    rw [Glob.checkDepth_eq_ok_iff, List.forall_mem_map]
    intro pattern _
    exact Glob.usable_startingWith
  rw [ImportFilter.ofPatterns, hglobs]
  show (Except.mapError _ (Glob.checkDepth (patterns.map glob)) >>= _) = _
  rw [hdepth]
  rfl

theorem ignores_glob_iff :
    ImportFilter.ignores pattern.glob name = true ↔ LiesIn pattern.package name := by
  rw [ImportFilter.ignores, glob, Glob.isAboutFileName_startingWith false pattern.start_ne_nil,
    Bool.false_and, Bool.not_false, Bool.and_true,
    Glob.covers_startingWith_iff pattern.start_ne_nil, liesIn_iff, start]

/-- A filter of such patterns keeps the names that lie in none of the packages. -/
theorem retains_iff :
    ImportFilter.retains ⟨patterns.map glob⟩ name = true ↔
      ∀ package ∈ patterns.map (·.package), ¬LiesIn package name := by
  rw [ImportFilter.retains, Bool.not_eq_true', List.any_eq_false, List.forall_mem_map,
    List.forall_mem_map]
  simp only [ignores_glob_iff]

/-- Only the set of the packages counts: not their order, how often they are given, or with how many
stars. -/
theorem retains_eq_of_packages {others : List PackagePattern}
    (h : ∀ package, package ∈ patterns.map (·.package) ↔ package ∈ others.map (·.package)) :
    ImportFilter.retains ⟨patterns.map glob⟩ = ImportFilter.retains ⟨others.map glob⟩ := by
  funext name
  rw [Bool.eq_iff_iff, retains_iff, retains_iff]
  simp only [h]

end PackagePattern

/-- A file that holds the octets of a text is read as that text. -/
theorem FileSystem.readText_of_read {fs : FileSystem} {path text : String}
    (h : fs.read path = .ok (Utf8.encode text.toList)) : fs.readText path = .ok text := by
  rw [readText, h]
  simp only [Utf8.decode?_encode, String.ofList_toList]

namespace Settings

/-- Whether a project's settings file, as far as there is one, and the settings of the command line
ignore packages and nothing else. -/
structure IgnoresPackages (fs : FileSystem) (project : String) (command : CommandSettings)
    (inFile onLine : List PackagePattern) : Prop where
  file : ∃ config, Config.resolve fs project command.config = .ok config ∧
    config.ignores = inFile.map PackagePattern.text
  line : command.ignores = onLine.map PackagePattern.text

variable {fs : FileSystem} {project : String} {command : CommandSettings}
  {inFile onLine : List PackagePattern}

/-- Then the settings are valid, and the filter is that of all the patterns. -/
theorem IgnoresPackages.load_eq_ok (h : IgnoresPackages fs project command inFile onLine) :
    ∃ settings, load fs project command = .ok settings ∧
      settings.report.filter = ⟨(inFile ++ onLine).map PackagePattern.glob⟩ := by
  obtain ⟨⟨config, hconfig, hfile⟩, hline⟩ := h
  have hfilter : ImportFilter.ofPatterns (config.ignores ++ command.ignores) =
      .ok ⟨(inFile ++ onLine).map PackagePattern.glob⟩ := by
    rw [hfile, hline, ← List.map_append, PackagePattern.ofPatterns_text]
  have hmerge : (merge config command).map (·.report.filter) =
      .ok ⟨(inFile ++ onLine).map PackagePattern.glob⟩ := by
    rw [merge, hfilter]
    rfl
  obtain ⟨settings, hsettings, heq⟩ := Except.map_eq_ok_iff.1 hmerge
  refine ⟨settings, ?_, heq⟩
  rw [load, hconfig]
  exact hsettings

/-- **Ignored packages are left out, and nothing else is.** If all patterns of the settings file and
of the command line ignore packages, the settings are valid and keep exactly the names that lie in
none of these packages. Any settings that ignore the same packages keep the same names: the order of
the patterns, repetitions and the place where a pattern is given make no difference. -/
theorem load_ignoring_packages (h : IgnoresPackages fs project command inFile onLine) :
    ∃ settings, load fs project command = .ok settings ∧
      (∀ name, settings.report.filter.retains name = true ↔
        ∀ package ∈ (inFile ++ onLine).map (·.package), ¬LiesIn package name) ∧
      ∀ {fs' : FileSystem} {project' : String} {command' : CommandSettings}
        {inFile' onLine' : List PackagePattern},
        IgnoresPackages fs' project' command' inFile' onLine' →
        (∀ package, package ∈ (inFile ++ onLine).map (·.package) ↔
          package ∈ (inFile' ++ onLine').map (·.package)) →
        ∃ settings', load fs' project' command' = .ok settings' ∧
          settings'.report.filter.retains = settings.report.filter.retains := by
  obtain ⟨settings, hload, hfilter⟩ := h.load_eq_ok
  refine ⟨settings, hload, ?_, ?_⟩
  · intro name
    rw [hfilter]
    exact PackagePattern.retains_iff
  · intro fs' project' command' inFile' onLine' h' hsame
    obtain ⟨settings', hload', hfilter'⟩ := h'.load_eq_ok
    refine ⟨settings', hload', ?_⟩
    rw [hfilter, hfilter']
    exact (PackagePattern.retains_eq_of_packages hsame).symm

/-- A package whose name has a comma. -/
def commaPackage (twoStars : Bool) : PackagePattern :=
  ⟨"a,b", twoStars, by simp [Glob.isSpecial]⟩

/-- A package whose name has a slash and a character outside of ASCII. -/
def slashPackage (twoStars : Bool) : PackagePattern :=
  ⟨"é/x", twoStars, by simp [Glob.isSpecial]⟩

/-- The package without a name. -/
def unnamedPackage (twoStars : Bool) : PackagePattern :=
  ⟨"", twoStars, by simp⟩

/-- A settings file that ignores two of the packages. -/
def ignoring : String :=
  "[imports]\nignore = [\"a,b.**\", \".*\"]\n"

/-- A disk with the settings file. -/
def ignoringDisk : FileSystem where
  root := .file "classdeps.toml" (Utf8.encode ignoring.toList) .nil

theorem ofToml_ignoring : Config.ofToml ignoring = .ok { ignores := ["a,b.**", ".*"] } := by
  have hparse : Toml.parse? ignoring =
      some [("imports", .table [("ignore", .array [.string "a,b.**", .string ".*"])])] := by cbv
  rw [Config.ofToml, hparse]
  rfl

theorem resolve_ignoringDisk :
    Config.resolve ignoringDisk "." none = .ok { ignores := ["a,b.**", ".*"] } := by
  have hfind : Config.find? ignoringDisk "." none = some "./classdeps.toml" := by decide +kernel
  have hread : ignoringDisk.readText "./classdeps.toml" = .ok ignoring :=
    FileSystem.readText_of_read rfl
  unfold Config.resolve
  rw [hfind]
  exact Config.load_of_readText hread ofToml_ignoring

/-- The same packages, once in a settings file and on the command line and once on the command line
alone. -/
theorem load_ignoring_packages_both_places :
    IgnoresPackages ignoringDisk "." { ignores := ["é/x.*", "a,b.*"] }
        [commaPackage true, unnamedPackage false] [slashPackage false, commaPackage false] ∧
      IgnoresPackages {} "." { ignores := [".**", "é/x.**", "a,b.*"] }
        [] [unnamedPackage true, slashPackage true, commaPackage false] ∧
      ∃ settings settings',
        load ignoringDisk "." { ignores := ["é/x.*", "a,b.*"] } = .ok settings ∧
        load {} "." { ignores := [".**", "é/x.**", "a,b.*"] } = .ok settings' ∧
        settings.report.filter.retains "é/x.y/ž.Z" = false ∧
        settings.report.filter.retains "a,bc.D" = true ∧
        settings'.report.filter.retains = settings.report.filter.retains := by
  have hboth : IgnoresPackages ignoringDisk "." { ignores := ["é/x.*", "a,b.*"] }
      [commaPackage true, unnamedPackage false] [slashPackage false, commaPackage false] :=
    ⟨⟨_, resolve_ignoringDisk, rfl⟩, rfl⟩
  have hline : IgnoresPackages {} "." { ignores := [".**", "é/x.**", "a,b.*"] }
      [] [unnamedPackage true, slashPackage true, commaPackage false] :=
    ⟨⟨{}, by decide +kernel, rfl⟩, rfl⟩
  obtain ⟨settings, hload, hretains, hsame⟩ := load_ignoring_packages hboth
  obtain ⟨settings', hload', heq⟩ := hsame hline (by
    intro package
    simp [commaPackage, slashPackage, unnamedPackage]
    tauto)
  refine ⟨hboth, hline, settings, settings', hload, hload', ?_, ?_, heq⟩
  · rw [Bool.eq_false_iff, Ne, hretains]
    intro h
    exact h "é/x" (by simp [slashPackage]) ⟨"y/ž.Z", rfl⟩
  · rw [hretains]
    decide +kernel

end Settings

end ClassImports
