import Mathlib
import ClassImports.Proofs.Analysis
import ClassImports.Proofs.Discovery.Far
import ClassImports.Proofs.Import.Scan
import ClassImports.Proofs.Settings

/-!
# What the output depends on

Of all files, only the settings file and the class files matter. Two file systems may differ in
everything else: where they agree on the paths at which a settings file is looked for and a target
is a directory with the same class files in both, the commands give the same output and the same
messages, or fail with the same failure (`outcome_of_agree`).

The exception is a directory below the target, of any content, whose path is too long to be
followed: if it is not left out, the commands fail because of it (`outcome_beside_far`).
-/

namespace ClassImports

/-! ## Directories with the same class files -/

/-- Two file systems in which a target is a directory with the same class files, which are told by
the extension of their names. -/
structure FileSystem.AgreeAt (target : String) (fs fs' : FileSystem) (entries entries' : Listing) :
    Prop where
  located : fs.locate target = .ok (.dir entries)
  located' : fs'.locate target = .ok (.dir entries')
  wellFormed : entries.WellFormed
  wellFormed' : entries'.WellFormed
  at?_iff : ∀ names content, names.getLast?.bind Path.extensionOf? = some "class" →
    ((Node.dir entries).at? names = some (.file content) ↔
      (Node.dir entries').at? names = some (.file content))

namespace FileSystem.AgreeAt

variable {target : String} {fs fs' : FileSystem} {entries entries' : Listing}
  {options : DiscoveryOptions} {paths paths' : List String}

theorem symm (h : AgreeAt target fs fs' entries entries') :
    AgreeAt target fs' fs entries' entries :=
  ⟨h.located', h.located, h.wellFormed', h.wellFormed,
    fun names content hclass => (h.at?_iff names content hclass).symm⟩

/-- What a run finds in one of the file systems is found in the other one, with the same
content. -/
theorem mem_run (h : AgreeAt target fs fs' entries entries')
    (hrun : Discovery.run fs target options = .ok paths)
    (hrun' : Discovery.run fs' target options = .ok paths') {path : String}
    (hpath : path ∈ paths) : path ∈ paths' ∧ fs.readClass path = fs'.readClass path := by
  obtain ⟨names, content, hclass, hat, -, hother⟩ :=
    Discovery.exists_of_mem_run h.wellFormed h.located hrun hpath
  have hat' := (h.at?_iff names content hclass).1 hat
  obtain ⟨hpath', hlocate⟩ := hother _ _ _ h.located' hrun' hat'
  exact ⟨hpath', readClass_eq hlocate⟩

theorem paths_eq (h : AgreeAt target fs fs' entries entries')
    (hrun : Discovery.run fs target options = .ok paths)
    (hrun' : Discovery.run fs' target options = .ok paths') : paths = paths' := by
  apply Discovery.eq_of_pairwise_before
  · exact Discovery.pairwise_run h.wellFormed h.located hrun
  · exact Discovery.pairwise_run h.wellFormed' h.located' hrun'
  · exact fun path => ⟨fun hpath => (h.mem_run hrun hrun' hpath).1,
      fun hpath => (h.symm.mem_run hrun' hrun hpath).1⟩

/-- **Runs give the same**, unless one of them comes to a directory that it cannot enter. -/
theorem run_eq_or (h : AgreeAt target fs fs' entries entries') (options : DiscoveryOptions) :
    Discovery.run fs target options = Discovery.run fs' target options ∨
      ∃ path, (Discovery.ComesTo options target entries path ∧
          Discovery.run fs target options = .error (.directoryUnreadable path .nameTooLong)) ∨
        (Discovery.ComesTo options target entries' path ∧
          Discovery.run fs' target options = .error (.directoryUnreadable path .nameTooLong)) := by
  rcases Discovery.run_dir_cases h.wellFormed h.located options with
    ⟨failure, hlines⟩ | ⟨paths, hrun⟩ | ⟨path, hfar⟩
  · left
    rw [Discovery.run_of_selection_error h.located hlines,
      Discovery.run_of_selection_error h.located' hlines]
  · rcases Discovery.run_dir_cases h.wellFormed' h.located' options with
      ⟨failure, hlines⟩ | ⟨paths', hrun'⟩ | ⟨path, hfar'⟩
    · rw [Discovery.run_of_selection_error h.located hlines] at hrun
      cases hrun
    · left
      rw [hrun, hrun', h.paths_eq hrun hrun']
    · exact .inr ⟨path, .inr hfar'⟩
  · exact .inr ⟨path, .inl hfar⟩

end FileSystem.AgreeAt

/-! ## Commands -/

namespace Command

/-- What becomes of a command that goes by the settings of a project. -/
def outcome (verb : FileSystem → String → Settings → Format → Except Failure CommandOutput)
    (fs : FileSystem) (project target : String) (command : CommandSettings) (format : Format) :
    Except Failure CommandOutput := do
  verb fs target (← Settings.load fs project command) format

/-- Whether the commands fail because they come to a directory that they cannot enter. -/
structure FailsAt (fs : FileSystem) (project target : String) (command : CommandSettings)
    (entries : Listing) (path : String) : Prop where
  comesTo : ∃ settings, Settings.load fs project command = .ok settings ∧
    Discovery.ComesTo settings.discovery target entries path
  outcome_imports : ∀ format, outcome imports fs project target command format =
    .error (.directoryUnreadable path .nameTooLong)
  outcome_summary : ∀ format, outcome summary fs project target command format =
    .error (.directoryUnreadable path .nameTooLong)

variable {fs fs' : FileSystem} {project target : String} {command : CommandSettings}
  {entries entries' : Listing}

theorem scan_of_run_error {settings : Settings} {failure : Failure}
    (hrun : Discovery.run fs target settings.discovery = .error failure) :
    scan fs target settings = .error failure := by
  unfold scan
  rw [hrun]
  rfl

theorem scan_eq_of_run_eq (h : fs.AgreeAt target fs' entries entries') {settings : Settings}
    (hrun : Discovery.run fs target settings.discovery =
      Discovery.run fs' target settings.discovery) :
    scan fs target settings = scan fs' target settings := by
  cases hpaths : Discovery.run fs target settings.discovery with
  | error failure =>
    rw [scan_of_run_error hpaths, scan_of_run_error (hrun.symm.trans hpaths)]
  | ok paths =>
    have hpaths' := hrun.symm.trans hpaths
    have hanalysis : Analysis.run fs settings.report paths =
        Analysis.run fs' settings.report paths :=
      Analysis.run_congr fun path hpath => (h.mem_run hpaths hpaths' hpath).2
    rw [scan_eq hpaths, scan_eq hpaths', hanalysis]

theorem outcome_eq {verb : FileSystem → String → Settings → Format → Except Failure CommandOutput}
    {settings : Settings} (hload : Settings.load fs project command = .ok settings)
    (format : Format) :
    outcome verb fs project target command format = verb fs target settings format := by
  unfold outcome
  rw [hload]
  rfl

theorem failsAt_of_run_error {settings : Settings} {path : String}
    (hload : Settings.load fs project command = .ok settings)
    (hfar : Discovery.ComesTo settings.discovery target entries path)
    (hrun : Discovery.run fs target settings.discovery =
      .error (.directoryUnreadable path .nameTooLong)) :
    FailsAt fs project target command entries path where
  comesTo := ⟨settings, hload, hfar⟩
  outcome_imports format := by
    rw [outcome_eq hload, imports, scan_of_run_error hrun]
    rfl
  outcome_summary format := by
    rw [outcome_eq hload, summary, scan_of_run_error hrun]
    rfl

/-- **Only the settings file and the class files matter.** A settings file that is given is used
whatever other files there are, and whatever project it is for; without one, the first file of the
project decides if it exists. In file systems that agree on the paths at which a settings file is
looked for, and on the class files below a target that is a directory in both, the commands come to
the same, unless in one of them they fail because of a directory below the target that is not left
out and whose path is too long. -/
theorem outcome_of_agree (fs fs' : FileSystem) (project target : String)
    (command : CommandSettings) :
    (∀ path, command.config = some path → fs.SameAt path fs' →
      ∀ other, Settings.load fs project command = Settings.load fs' other command) ∧
    (command.config = none → fs.pathExists (Path.join project ".classdeps/config.toml") = true →
      fs.SameAt (Path.join project ".classdeps/config.toml") fs' →
      Settings.load fs project command = Settings.load fs' project command) ∧
    ((∀ path ∈ Config.consulted project command.config, fs.SameAt path fs') →
      ∀ entries entries', fs.AgreeAt target fs' entries entries' →
        (∀ format,
          outcome imports fs project target command format =
            outcome imports fs' project target command format ∧
          outcome summary fs project target command format =
            outcome summary fs' project target command format) ∨
        ∃ path, FailsAt fs project target command entries path ∨
          FailsAt fs' project target command entries' path) := by
  refine ⟨fun path hgiven hsame => Settings.load_eq_of_given hgiven hsame, ?_, ?_⟩
  · intro hnone hexists hsame
    have hconsulted : Config.consulted project command.config =
        Path.join project ".classdeps/config.toml" :: [Path.join project "classdeps.toml"] := by
      rw [hnone]
      rfl
    exact Settings.load_eq_of_exists hconsulted hexists hsame
  · intro hsame entries entries' hagree
    have hload := Settings.load_eq_of_sameAt hsame
    cases hsettings : Settings.load fs project command with
    | error failure =>
      left
      intro format
      unfold outcome
      rw [← hload, hsettings]
      exact ⟨rfl, rfl⟩
    | ok settings =>
      have hsettings' := hload.symm.trans hsettings
      rcases hagree.run_eq_or settings.discovery with hrun | ⟨path, ⟨hfar, hrun⟩ | ⟨hfar, hrun⟩⟩
      · left
        intro format
        have hscan := scan_eq_of_run_eq hagree hrun
        rw [outcome_eq hsettings, outcome_eq hsettings', outcome_eq hsettings,
          outcome_eq hsettings', imports, imports, summary, summary, hscan]
        exact ⟨rfl, rfl⟩
      · exact .inr ⟨path, .inl (failsAt_of_run_error hsettings hfar hrun)⟩
      · exact .inr ⟨path, .inr (failsAt_of_run_error hsettings' hfar hrun)⟩

/-! ## A project with other files -/

/-- The octets of a class file whose class uses another one. -/
def importing : Bytes :=
  [0xCA, 0xFE, 0xBA, 0xBE, 0, 0, 0, 52, 0, 5, 1, 0, 1, 0x41, 7, 0, 1, 1, 0, 3, 0x62, 0x2F, 0x43,
    7, 0, 3, 0, 0x21, 0, 2, 0, 0]

/-- The class file that these octets hold. -/
def importingFile : ClassFile where
  version := ⟨52, 0⟩
  pool := .ofConstants [.utf8 "A", .classInfo 1, .utf8 "b/C", .classInfo 3]
  accessFlags := 0x21
  thisClass := 2
  superClass := 0

/-- The directory of a project's class files. -/
def classDir : Listing :=
  .file "A.class" importing .nil

/-- The directory with a file that would hide all others, and an empty directory. -/
def strewnDir : Listing :=
  .file ".ignore" [0x2A] (.file "A.class" importing (.dir "empty" .nil .nil))

/-- A project with settings and one class file. -/
def plain : FileSystem :=
  ⟨.dir ".classdeps" (.file "config.toml" [] .nil) (.dir "out" classDir .nil), []⟩

/-- The project with settings that do not count, and other files in the directory. -/
def strewn : FileSystem :=
  ⟨.dir ".classdeps" (.file "config.toml" [] .nil)
    (.file "classdeps.toml" [0x5B] (.dir "out" strewnDir .nil)), []⟩

/-- The command line that gives the project's first settings file by its path. -/
def givenFirst : CommandSettings where
  config := some "./.classdeps/config.toml"

theorem sameAt_strewn : plain.SameAt "./.classdeps/config.toml" strewn := by
  have hplain : plain.locate "./.classdeps/config.toml" = .ok (.file []) := by decide +kernel
  have hstrewn : strewn.locate "./.classdeps/config.toml" = .ok (.file []) := by decide +kernel
  constructor
  · simp [hplain, hstrewn]
  · simp [hplain, hstrewn]

theorem agreeAt_strewn : plain.AgreeAt "out" strewn classDir strewnDir where
  located := by decide +kernel
  located' := by decide +kernel
  wellFormed := .file (by decide) rfl .nil
  wellFormed' := .file (by decide) (by decide) (.file (by decide) (by decide)
    (.dir (by decide) rfl .nil .nil))
  at?_iff := by
    intro names content hclass
    unfold classDir strewnDir
    cases names with
    | nil => simp [Node.at?_nil]
    | cons name names =>
      rw [Node.at?_file_cons, Node.at?_file_cons, Node.at?_file_cons, Node.at?_inside_cons]
      by_cases hignore : ".ignore" = name
      · subst hignore
        cases names with
        | nil => exact absurd hclass (by decide +kernel)
        | cons next names => simp [Node.at?, Listing.find?]
      · rw [if_neg hignore]
        by_cases hempty : "empty" = name
        · subst hempty
          cases names <;> simp [Node.at?, Listing.find?]
        · rw [if_neg hempty]

theorem pathExists_plain : plain.pathExists "./.classdeps/config.toml" = true := by
  decide +kernel

theorem load_plain : Settings.load plain "." givenFirst = .ok {} := by
  have hread : plain.readText "./.classdeps/config.toml" = .ok "" := by decide +kernel
  have hempty : Config.ofToml "" = .ok {} := by decide +kernel
  have hconfig : Config.resolve plain "." givenFirst.config = .ok {} := by
    rw [Config.resolve_eq_load rfl pathExists_plain]
    exact Config.load_of_readText hread hempty
  unfold Settings.load
  rw [hconfig]
  rfl

theorem run_plain : Discovery.run plain "out" {} = .ok ["out/A.class"] :=
  Discovery.run_eq_ok_of_sorted agreeAt_strewn.located rfl (by decide +kernel) rfl
    (by decide +kernel) (List.pairwise_singleton _ _)

theorem readClass_plain : plain.readClass "out/A.class" = .ok importingFile := by
  decide +kernel

theorem reportOn_plain : Analysis.reportOn plain {} "out/A.class" =
    .ok { path := "out/A.class", className := some "A", superClass := none, version := ⟨52, 0⟩,
          imports := ["b.C"] } := by
  have himports : importingFile.pool.imports.toList = ["b.C"] := by
    rw [Pool.toList_imports_eq]
    decide +kernel
  rw [Analysis.reportOn, readClass_plain]
  show Except.ok (Report.ofClassFile "out/A.class" importingFile {}) = _
  rw [Report.ofClassFile, himports]
  decide +kernel

/-- The output tells of the class and of the one that it uses. -/
theorem outcome_plain : outcome imports plain "." "out" givenFirst .text =
    .ok { output := "A (out/A.class, Java 1.8)\n  b.C\n", errors := [] } := by
  have hparses : plain.parses "out/A.class" = true :=
    FileSystem.parses_iff.2 ⟨_, readClass_plain⟩
  have hscan : scan plain "out" {} = .ok (Analysis.run plain {} ["out/A.class"]) :=
    scan_eq_ok run_plain List.mem_cons_self hparses
  rw [outcome_eq load_plain, imports, hscan, Analysis.run, List.map_singleton, reportOn_plain]
  simp only [Analysis.successes, Except.toOption, List.filterMap_cons, List.filterMap_nil,
    List.mergeSort_singleton]
  decide +kernel

theorem not_failsAt_of_reach {fs : FileSystem} {project target path : String}
    {command : CommandSettings} {entries : Listing} (hwell : entries.WellFormed)
    (hreach : ∀ leavesOut, Discovery.outOfReach? leavesOut target entries = none) :
    ¬FailsAt fs project target command entries path := by
  rintro ⟨⟨settings, -, lines, -, hfar⟩, -, -⟩
  refine Discovery.withinReach_iff.1 ?_ path hfar
  exact (Discovery.outOfReach?_eq_none_iff hwell target).1 (hreach _)

/-- A file that would hide all others, broken settings in the second place and an empty directory do
not matter: there is the same output on the class file. -/
theorem outcome_of_agree_strewn :
    plain.SameAt "./.classdeps/config.toml" strewn ∧
      plain.pathExists "./.classdeps/config.toml" = true ∧
      plain.AgreeAt "out" strewn classDir strewnDir ∧
      (∀ other, Settings.load plain "." givenFirst = Settings.load strewn other givenFirst) ∧
      Settings.load plain "." {} = Settings.load strewn "." {} ∧
      (∀ format, outcome imports plain "." "out" givenFirst format =
        outcome imports strewn "." "out" givenFirst format) ∧
      outcome imports strewn "." "out" givenFirst .text =
        .ok { output := "A (out/A.class, Java 1.8)\n  b.C\n", errors := [] } := by
  obtain ⟨hgiven, -, hagree⟩ := outcome_of_agree plain strewn "." "out" givenFirst
  obtain ⟨-, hfirst, -⟩ := outcome_of_agree plain strewn "." "out" {}
  have himports : ∀ format, outcome imports plain "." "out" givenFirst format =
      outcome imports strewn "." "out" givenFirst format := by
    rcases hagree (List.forall_mem_singleton.2 sameAt_strewn) _ _ agreeAt_strewn with
      hsame | ⟨path, hfails | hfails⟩
    · exact fun format => (hsame format).1
    · refine absurd hfails (not_failsAt_of_reach agreeAt_strewn.wellFormed fun _ => rfl)
    · refine absurd hfails (not_failsAt_of_reach agreeAt_strewn.wellFormed' fun leavesOut => ?_)
      have hshort : ¬FileSystem.pathLimit < (Path.join "out" "empty").utf8ByteSize := by
        decide +kernel
      simp [strewnDir, Discovery.outOfReach?, hshort]
  exact ⟨sameAt_strewn, pathExists_plain, agreeAt_strewn, hgiven _ rfl sameAt_strewn,
    hfirst rfl pathExists_plain sameAt_strewn, himports, (himports .text).symm.trans outcome_plain⟩

/-! ## A path that is nearly too long -/

/-- A file system with nothing in it. -/
def bare : FileSystem := ⟨.nil, []⟩

/-- A file system with an empty directory. -/
def withDir : FileSystem := ⟨.dir "build-intermediates" .nil .nil, []⟩

theorem load_bare : Settings.load bare "." {} = .ok {} := by
  rfl

theorem load_withDir : Settings.load withDir "." {} = .ok {} := by
  rfl

theorem sameAt_bare_withDir :
    ∀ path ∈ Config.consulted "." none, bare.SameAt path withDir := by
  have hmissing : ∀ path ∈ Config.consulted "." none,
      bare.locate path = .error .notFound ∧ withDir.locate path = .error .notFound := by
    decide +kernel
  intro path hpath
  obtain ⟨hbare, hwith⟩ := hmissing path hpath
  constructor
  · simp [hbare, hwith]
  · simp [hbare, hwith]

theorem agreeAt_far : FileSystem.AgreeAt (Path.slashed 4080) bare withDir .nil
    (.dir "build-intermediates" .nil .nil) where
  located := FileSystem.locate_slashed _ (by decide)
  located' := FileSystem.locate_slashed _ (by decide)
  wellFormed := .nil
  wellFormed' := .dir (by decide) rfl .nil .nil
  at?_iff := by
    intro names content _
    refine iff_of_false (fun h => ?_) (fun h => ?_)
    · exact Listing.not_file_nil _ (Listing.file_of_at? h)
    · cases Listing.file_of_at? h with
      | inside hfile => exact Listing.not_file_nil _ hfile
      | afterDir hfile => exact Listing.not_file_nil _ hfile

theorem outcome_bare {target : String} (htarget : bare.locate target = .ok (.dir .nil))
    (hinput : Discovery.isStandardInput target = false) :
    outcome imports bare "." target {} .text = .ok { output := "", errors := [] } := by
  have hrun : Discovery.run bare target ({} : Settings).discovery = .ok [] :=
    Discovery.run_eq_ok_of_sorted htarget rfl hinput rfl rfl .nil
  have hnone : Analysis.run bare ({} : Settings).report [] = { reports := [], errors := [] } := by
    simp [Analysis.run, Analysis.successes, Analysis.messages]
  rw [outcome_eq load_bare, imports, scan_eq hrun, hnone]
  rfl

theorem outcome_withDir {target : String}
    (htarget : withDir.locate target = .ok (.dir (.dir "build-intermediates" .nil .nil)))
    (hinput : Discovery.isStandardInput target = false)
    (hlong : FileSystem.pathLimit < (Path.join target "build-intermediates").utf8ByteSize) :
    outcome imports withDir "." target {} .text =
      .error (.directoryUnreadable (Path.join target "build-intermediates") .nameTooLong) := by
  have hlines : Discovery.selection ({} : Settings).discovery = .ok [] := rfl
  have hkept : ∀ path, Selection.leavesOut [] path true = false := fun _ => rfl
  have hrun : Discovery.run withDir target ({} : Settings).discovery =
      .error (.directoryUnreadable (Path.join target "build-intermediates") .nameTooLong) := by
    apply Discovery.run_of_outOfReach? htarget hlines hinput
    simp only [Discovery.outOfReach?, hkept, hlong, if_true, Bool.false_eq_true, if_false]
  rw [outcome_eq load_withDir, imports, scan_of_run_error hrun]
  rfl

/-- An empty directory, by a path that is too long, makes a command fail that has nothing to do
otherwise. -/
theorem outcome_beside_far :
    (∀ path ∈ Config.consulted "." none, bare.SameAt path withDir) ∧
    bare.AgreeAt (Path.slashed 4080) withDir .nil (.dir "build-intermediates" .nil .nil) ∧
    outcome imports bare "." (Path.slashed 4080) {} .text = .ok { output := "", errors := [] } ∧
    outcome imports withDir "." (Path.slashed 4080) {} .text =
      .error (.directoryUnreadable (Path.slashed 4080 ++ "build-intermediates") .nameTooLong) := by
  have hinput : Discovery.isStandardInput (Path.slashed 4080) = false :=
    FileSystem.isStandardInput_of_stays (Path.stays_slashed 4080)
  have hfar : Discovery.IsNearlyTooLong 4080 := ⟨by decide, by decide⟩
  have hjoin := Path.join_slashed hfar.pos "build-intermediates"
  refine ⟨sameAt_bare_withDir, agreeAt_far, outcome_bare agreeAt_far.located hinput, ?_⟩
  rw [← hjoin]
  exact outcome_withDir agreeAt_far.located' hinput (hjoin ▸ Discovery.pathLimit_lt_far hfar)

end Command

end ClassImports
