import Mathlib
import ClassImports.ClassFile.Reader
import ClassImports.Proofs.FileSystem.Tree

/-!
# Trees with the same class files

Two trees differ only in files that are no class files (`Listing.SameButUnparsable`) if they have
the same directories and the same contents of class files in the same places. Changing, adding and
removing files that are no class files leads from a tree to such a tree (`Edited.sameDirs`,
`Edited.sameClassFiles`), and what is said of two trees can be said of their directories, too
(`keptBelow_sameButUnparsable`).
-/

namespace ClassImports

/-- Whether a content is that of a class file. -/
def ClassFile.Parses (content : Bytes) : Prop :=
  ∃ file, ClassFile.ofBytes content = .ok file

instance (content : Bytes) : Decidable (ClassFile.Parses content) :=
  decidable_of_iff ((ClassFile.ofBytes content).toOption.isSome = true) <| by
    unfold ClassFile.Parses
    cases ClassFile.ofBytes content <;> simp [Except.toOption]

/-- What lies at and below a file that is no class file is no class file. -/
theorem Node.at?_ne_of_not_parses {content other : Bytes} (h : ¬ClassFile.Parses content)
    (hother : ClassFile.Parses other) (names : List String) :
    (Node.file content).at? names ≠ some (.file other) := by
  intro hsome
  cases names with
  | cons name names => cases hsome
  | nil =>
    rw [at?_nil] at hsome
    cases hsome
    exact h hother

namespace Listing

/-- Whether two directories hold the same directories, at any depth. -/
def SameDirs (entries others : Listing) : Prop :=
  ∀ names, entries.HasDir names ↔ others.HasDir names

/-- Whether two directories hold the same class files, at any depth, whatever other files there
are. -/
def SameClassFiles (entries others : Listing) : Prop :=
  ∀ names content, ClassFile.Parses content →
    ((Node.dir entries).at? names = some (.file content) ↔
      (Node.dir others).at? names = some (.file content))

/-- Whether two trees differ only in files that are no class files. -/
structure SameButUnparsable (entries others : Listing) : Prop where
  wellFormed : entries.WellFormed
  wellFormed' : others.WellFormed
  sameDirs : entries.SameDirs others
  sameClassFiles : entries.SameClassFiles others

variable {entries others inner inner' : Listing} {name : String}

theorem SameClassFiles.symm (h : entries.SameClassFiles others) : others.SameClassFiles entries :=
  fun names content hclass => (h names content hclass).symm

/-! ## On the way down -/

theorem SameDirs.exists_find? (h : entries.SameDirs others)
    (hfind : entries.find? name = some (.dir inner)) :
    ∃ inner', others.find? name = some (.dir inner') := by
  have hdir : entries.HasDir [name] := ⟨inner, (Node.at?_of_find? hfind []).trans (Node.at?_nil _)⟩
  obtain ⟨inner', hinner'⟩ := (h [name]).1 hdir
  cases hother : others.find? name with
  | none =>
    rw [Node.at?_of_find?_eq_none hother] at hinner'
    cases hinner'
  | some node =>
    rw [Node.at?_of_find? hother, Node.at?_nil] at hinner'
    cases hinner'
    exact ⟨inner', rfl⟩

theorem SameDirs.of_find? (h : entries.SameDirs others)
    (hfind : entries.find? name = some (.dir inner))
    (hfind' : others.find? name = some (.dir inner')) : inner.SameDirs inner' := by
  intro names
  unfold HasDir
  rw [← Node.at?_of_find? hfind, ← Node.at?_of_find? hfind']
  exact h (name :: names)

theorem SameClassFiles.of_find? (h : entries.SameClassFiles others)
    (hfind : entries.find? name = some (.dir inner))
    (hfind' : others.find? name = some (.dir inner')) : inner.SameClassFiles inner' := by
  intro names content hclass
  rw [← Node.at?_of_find? hfind, ← Node.at?_of_find? hfind']
  exact h (name :: names) content hclass

theorem keptBelow_sameButUnparsable : FileSystem.KeptBelow SameButUnparsable := by
  intro entries others h name inner hfind
  obtain ⟨inner', hfind'⟩ := h.sameDirs.exists_find? hfind
  exact ⟨inner', hfind', h.wellFormed.of_find? hfind, h.wellFormed'.of_find? hfind',
    h.sameDirs.of_find? hfind hfind', h.sameClassFiles.of_find? hfind hfind'⟩

/-! ## Edits -/

/-- Whether the second tree is the first one after files that are no class files were changed, added
or removed. -/
inductive Edited : Listing → Listing → Prop where
  | nil : Edited .nil .nil
  | keepFile {name : String} {content : Bytes} {rest rest' : Listing} (hrest : Edited rest rest') :
      Edited (.file name content rest) (.file name content rest')
  | keepDir {name : String} {entries entries' rest rest' : Listing}
      (hentries : Edited entries entries') (hrest : Edited rest rest') :
      Edited (.dir name entries rest) (.dir name entries' rest')
  | change {name : String} {content content' : Bytes} {rest rest' : Listing}
      (hold : ¬ClassFile.Parses content) (hnew : ¬ClassFile.Parses content')
      (hrest : Edited rest rest') :
      Edited (.file name content rest) (.file name content' rest')
  | add {name : String} {content : Bytes} {rest rest' : Listing}
      (hnew : ¬ClassFile.Parses content) (hrest : Edited rest rest') :
      Edited rest (.file name content rest')
  | remove {name : String} {content : Bytes} {rest rest' : Listing}
      (hold : ¬ClassFile.Parses content) (hrest : Edited rest rest') :
      Edited (.file name content rest) rest'

theorem Edited.symm (h : Edited entries others) : Edited others entries := by
  induction h with
  | nil => exact .nil
  | keepFile _ ih => exact .keepFile ih
  | keepDir _ _ ihEntries ih => exact .keepDir ihEntries ih
  | change hold hnew _ ih => exact .change hnew hold ih
  | add hnew _ ih => exact .remove hnew ih
  | remove hold _ ih => exact .add hold ih

theorem Edited.sameDirs (h : Edited entries others) (hwell : entries.WellFormed)
    (hwell' : others.WellFormed) : entries.SameDirs others := by
  intro names
  induction h generalizing names with
  | nil => exact Iff.rfl
  | keepFile _ ih | change _ _ _ ih =>
    cases hwell with
    | file _ hfree hrest =>
      cases hwell' with
      | file _ hfree' hrest' =>
        rw [hasDir_file_iff hfree, hasDir_file_iff hfree']
        exact ih hrest hrest' names
  | keepDir _ _ ihEntries ih =>
    cases hwell with
    | dir _ hfree hentries hrest =>
      cases hwell' with
      | dir _ hfree' hentries' hrest' =>
        cases names with
        | nil => exact iff_of_true (hasDir_nil _) (hasDir_nil _)
        | cons name names =>
          rw [hasDir_dir_iff hfree, hasDir_dir_iff hfree', ihEntries hentries hentries',
            ih hrest hrest']
  | add _ _ ih =>
    cases hwell' with
    | file _ hfree' hrest' =>
      rw [hasDir_file_iff hfree']
      exact ih hwell hrest' names
  | remove _ _ ih =>
    cases hwell with
    | file _ hfree hrest =>
      rw [hasDir_file_iff hfree]
      exact ih hrest hwell' names

/-- A class file stays where it is. -/
theorem Edited.at?_cons (h : Edited entries others) (hwell' : others.WellFormed) {content : Bytes}
    (hclass : ClassFile.Parses content) {name : String} {names : List String}
    (hat : (Node.dir entries).at? (name :: names) = some (.file content)) :
    (Node.dir others).at? (name :: names) = some (.file content) := by
  induction h generalizing name names with
  | nil => exact hat
  | keepFile _ ih =>
    cases hwell' with
    | file _ _ hrest' =>
      rw [Node.at?_file_cons] at hat ⊢
      split at hat
      · next heq => rwa [if_pos heq]
      · next hne =>
        rw [if_neg hne]
        exact ih hrest' hat
  | keepDir _ _ ihEntries ih =>
    cases hwell' with
    | dir _ _ hentries' hrest' =>
      rw [Node.at?_inside_cons] at hat ⊢
      split at hat
      · next heq =>
        rw [if_pos heq]
        cases names with
        | nil => cases hat
        | cons next names => exact ihEntries hentries' hat
      · next hne =>
        rw [if_neg hne]
        exact ih hrest' hat
  | change hold _ _ ih =>
    cases hwell' with
    | file _ _ hrest' =>
      rw [Node.at?_file_cons] at hat ⊢
      split at hat
      · exact absurd hat (Node.at?_ne_of_not_parses hold hclass names)
      · next hne =>
        rw [if_neg hne]
        exact ih hrest' hat
  | add _ _ ih =>
    cases hwell' with
    | file _ hfree' hrest' =>
      have hthere := ih hrest' hat
      rw [Node.at?_file_cons]
      split
      · next heq =>
        -- there was no room for a file of that name
        subst heq
        rw [Node.at?_of_find?_eq_none hfree'] at hthere
        cases hthere
      · exact hthere
  | remove hold _ ih =>
    rw [Node.at?_file_cons] at hat
    split at hat
    · exact absurd hat (Node.at?_ne_of_not_parses hold hclass names)
    · exact ih hwell' hat

theorem Edited.sameClassFiles (h : Edited entries others) (hwell : entries.WellFormed)
    (hwell' : others.WellFormed) : entries.SameClassFiles others := by
  intro names content hclass
  cases names with
  | nil => exact iff_of_false (fun hat => by cases hat) (fun hat => by cases hat)
  | cons name names => exact ⟨h.at?_cons hwell' hclass, h.symm.at?_cons hwell hclass⟩

/-- **Edits** of files that are no class files leave everything else as it is. -/
theorem Edited.sameButUnparsable (h : Edited entries others) (hwell : entries.WellFormed)
    (hwell' : others.WellFormed) : entries.SameButUnparsable others :=
  ⟨hwell, hwell', h.sameDirs hwell hwell', h.sameClassFiles hwell hwell'⟩

end Listing

end ClassImports
