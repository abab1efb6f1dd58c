import Mathlib
import ClassImports.Proofs.Results
import ClassImports.Settings

/-!
# Which settings files count

A settings file that is given is the only one that is consulted, whether it exists or not. Without
one, the files of the project are consulted in their order, and the first that exists decides. So
the settings are the same in file systems that agree on the consulted paths (`load_eq_of_sameAt`).
-/

namespace ClassImports

/-- Whether a path leads to the same file in two file systems, to a directory in both, or nowhere
in both. -/
structure FileSystem.SameAt (path : String) (fs fs' : FileSystem) : Prop where
  file_iff : ∀ content,
    fs.locate path = .ok (.file content) ↔ fs'.locate path = .ok (.file content)
  dir_iff : (∃ entries, fs.locate path = .ok (.dir entries)) ↔
    ∃ entries, fs'.locate path = .ok (.dir entries)

namespace FileSystem

theorem pathExists_iff {fs : FileSystem} {path : String} :
    fs.pathExists path = true ↔
      (∃ content, fs.locate path = .ok (.file content)) ∨
        ∃ entries, fs.locate path = .ok (.dir entries) := by
  unfold pathExists
  cases fs.locate path with
  | error error => simp [Except.toOption]
  | ok node => cases node <;> simp [Except.toOption]

namespace SameAt

variable {fs fs' : FileSystem} {path : String}

theorem pathExists_eq (h : SameAt path fs fs') : fs.pathExists path = fs'.pathExists path := by
  rw [Bool.eq_iff_iff, pathExists_iff, pathExists_iff, h.dir_iff]
  simp only [h.file_iff]

/-- Where there is something at the path, reading gives the same. -/
theorem read_eq (h : SameAt path fs fs') (hexists : fs.pathExists path = true) :
    fs.read path = fs'.read path := by
  unfold read
  rcases pathExists_iff.1 hexists with ⟨content, hfile⟩ | hdir
  · rw [hfile, (h.file_iff content).1 hfile]
  · obtain ⟨entries', hentries'⟩ := h.dir_iff.1 hdir
    obtain ⟨entries, hentries⟩ := hdir
    rw [hentries, hentries']

end SameAt

end FileSystem

namespace Config

/-- The paths at which a settings file is looked for. -/
def consulted (project : String) : Option String → List String
  | some path => [path]
  | none => fileNames.map (Path.join project)

variable {fs fs' : FileSystem} {project : String} {given : Option String}

theorem find?_eq (fs : FileSystem) (project : String) (given : Option String) :
    find? fs project given = (consulted project given).find? fs.pathExists := by
  cases given with
  | none => rfl
  | some path =>
    rw [consulted, List.find?_singleton]
    rfl

theorem load_eq {path : String} (h : fs.SameAt path fs') (hexists : fs.pathExists path = true) :
    load fs path = load fs' path := by
  unfold load FileSystem.readText
  rw [h.read_eq hexists]

/-- A settings file that can be read gives the settings that its text says. -/
theorem load_of_readText {path text : String} {config : Config}
    (hread : fs.readText path = .ok text) (hconfig : ofToml text = .ok config) :
    load fs path = .ok config := by
  rw [load, hread]
  show (ofToml text).mapError _ = _
  rw [hconfig]
  rfl

/-- No file matters but those at the consulted paths. -/
theorem resolve_eq (h : ∀ path ∈ consulted project given, FileSystem.SameAt path fs fs') :
    resolve fs project given = resolve fs' project given := by
  have hsame : (consulted project given).find? fs.pathExists =
      (consulted project given).find? fs'.pathExists :=
    List.find?_congr fun path hpath => (h path hpath).pathExists_eq
  unfold resolve
  rw [find?_eq, find?_eq, ← hsame]
  cases hfind : (consulted project given).find? fs.pathExists with
  | none => cases given <;> rfl
  | some path => exact load_eq (h path (List.mem_of_find?_eq_some hfind)) (List.find?_some hfind)

/-- A settings file that is given is used whatever project it is for. -/
theorem resolve_given (fs : FileSystem) (project other path : String) :
    resolve fs project (some path) = resolve fs other (some path) :=
  rfl

/-- The first path at which there is something decides, and no later one counts. -/
theorem resolve_eq_load {path : String} {later : List String}
    (hconsulted : consulted project given = path :: later)
    (hexists : fs.pathExists path = true) : resolve fs project given = load fs path := by
  unfold resolve
  rw [find?_eq, hconsulted, List.find?_cons_of_pos hexists]

end Config

namespace Settings

variable {fs fs' : FileSystem} {project : String} {command : CommandSettings}

theorem load_eq_of_resolve_eq {other : String}
    (h : Config.resolve fs project command.config = Config.resolve fs' other command.config) :
    load fs project command = load fs' other command := by
  unfold load
  rw [h]

/-- **The settings depend on the consulted paths alone.** -/
theorem load_eq_of_sameAt
    (h : ∀ path ∈ Config.consulted project command.config, FileSystem.SameAt path fs fs') :
    load fs project command = load fs' project command :=
  load_eq_of_resolve_eq (Config.resolve_eq h)

/-- No path but a given one is consulted, whether there is something at it or not. -/
theorem load_eq_of_given {path : String} (hgiven : command.config = some path)
    (h : FileSystem.SameAt path fs fs') (other : String) :
    load fs project command = load fs' other command := by
  apply load_eq_of_resolve_eq
  rw [hgiven, Config.resolve_given fs project other path]
  apply Config.resolve_eq
  exact List.forall_mem_singleton.2 h

/-- Where the first of the consulted paths leads to something, no other one counts. -/
theorem load_eq_of_exists {path : String} {later : List String}
    (hconsulted : Config.consulted project command.config = path :: later)
    (hexists : fs.pathExists path = true) (h : FileSystem.SameAt path fs fs') :
    load fs project command = load fs' project command := by
  have hexists' : fs'.pathExists path = true := h.pathExists_eq ▸ hexists
  apply load_eq_of_resolve_eq
  rw [Config.resolve_eq_load hconsulted hexists, Config.resolve_eq_load hconsulted hexists',
    Config.load_eq h hexists]

end Settings

end ClassImports
