import Mathlib
import ClassImports.FileSystem.Basic
import ClassImports.Proofs.Discovery.Below

/-!
# Trees of directories

* `Node.at?`: what names lead to, one directory at a time.
* `Listing.WellFormed`: the trees there are on a disk. The names in a directory differ from each
  other, and each of them can be a step of a path.
* `Listing.file_iff_exists_at?`: in such a tree, names lead to a file if a file is what they look up.
* `FileSystem.follow_eq_ok_iff`: following such names is looking them up, as long as none of them is
  too long.
* `FileSystem.follow_dir_of_related`: a relation between directories that is kept on the way down
  is kept by following any path, `..` included.
-/

namespace ClassImports

/-- Whether a text can be the name of a file or directory in another one. -/
structure Path.IsEntryName (name : String) : Prop extends Path.IsName name where
  ne_parent : name ≠ ".."

instance (name : String) : Decidable (Path.IsEntryName name) :=
  decidable_of_iff (name ≠ "" ∧ name ≠ "." ∧ '/' ∉ name.toList ∧ name ≠ "..")
    ⟨fun ⟨hempty, hcurrent, hslash, hparent⟩ => ⟨⟨hempty, hcurrent, hslash⟩, hparent⟩,
      fun h => ⟨h.ne_empty, h.ne_current, h.slash_notMem, h.ne_parent⟩⟩

/-- What names lead to from a file or directory; from a file they lead nowhere. -/
def Node.at? : Node → List String → Option Node
  | node, [] => some node
  | .file _, _ :: _ => none
  | .dir entries, name :: names => (entries.find? name).bind (·.at? names)

theorem Node.at?_nil (node : Node) : node.at? [] = some node := by
  cases node <;> rfl

theorem Node.at?_dir_cons (entries : Listing) (name : String) (names : List String) :
    (Node.dir entries).at? (name :: names) = (entries.find? name).bind (·.at? names) :=
  rfl

theorem Node.at?_file_cons (other name : String) (content : Bytes) (rest : Listing)
    (names : List String) :
    (Node.dir (.file other content rest)).at? (name :: names) =
      if other = name then (Node.file content).at? names
      else (Node.dir rest).at? (name :: names) := by
  rw [at?_dir_cons, Listing.find?]
  split <;> rfl

theorem Node.at?_inside_cons (other name : String) (entries rest : Listing) (names : List String) :
    (Node.dir (.dir other entries rest)).at? (name :: names) =
      if other = name then (Node.dir entries).at? names
      else (Node.dir rest).at? (name :: names) := by
  rw [at?_dir_cons, Listing.find?]
  split <;> rfl

theorem Node.at?_of_find? {entries : Listing} {name : String} {node : Node}
    (h : entries.find? name = some node) (names : List String) :
    (Node.dir entries).at? (name :: names) = node.at? names := by
  rw [at?_dir_cons, h]
  rfl

theorem Node.at?_of_find?_eq_none {entries : Listing} {name : String}
    (h : entries.find? name = none) (names : List String) :
    (Node.dir entries).at? (name :: names) = none := by
  rw [at?_dir_cons, h]
  rfl

namespace Listing

/-- Whether the names in every directory of a tree differ and can be steps of a path. -/
inductive WellFormed : Listing → Prop where
  | nil : WellFormed .nil
  | file {name : String} {content : Bytes} {rest : Listing} (hname : Path.IsEntryName name)
      (hnew : rest.find? name = none) (hrest : WellFormed rest) :
      WellFormed (.file name content rest)
  | dir {name : String} {entries rest : Listing} (hname : Path.IsEntryName name)
      (hnew : rest.find? name = none) (hentries : WellFormed entries) (hrest : WellFormed rest) :
      WellFormed (.dir name entries rest)

theorem WellFormed.of_find? {listing entries : Listing} (h : listing.WellFormed) {name : String}
    (hfind : listing.find? name = some (.dir entries)) : entries.WellFormed := by
  induction h with
  | nil => cases hfind
  | file hname hnew hrest ih =>
    unfold find? at hfind
    split at hfind
    · cases hfind
    · exact ih hfind
  | dir hname hnew hentries hrest ihEntries ihRest =>
    unfold find? at hfind
    split at hfind
    · cases hfind
      exact hentries
    · exact ihRest hfind

/-! ## Files -/

theorem file_of_at? {listing : Listing} {names : List String} {content : Bytes}
    (h : (Node.dir listing).at? names = some (.file content)) : listing.File names := by
  induction listing generalizing names with
  | nil =>
    cases names with
    | nil => cases h
    | cons name names => cases h
  | file other found rest ih =>
    cases names with
    | nil => cases h
    | cons name names =>
      rw [Node.at?_file_cons] at h
      split at h
      · next heq =>
        subst heq
        cases names with
        | nil => exact .here other found rest
        | cons next names => cases h
      · exact .afterFile (ih h)
  | dir other entries rest ihEntries ihRest =>
    cases names with
    | nil => cases h
    | cons name names =>
      rw [Node.at?_inside_cons] at h
      split at h
      · next heq =>
        subst heq
        exact .inside (ihEntries h)
      · exact .afterDir (ihRest h)

theorem File.find?_ne_none {listing : Listing} {name : String} {names : List String}
    (h : listing.File (name :: names)) : listing.find? name ≠ none := by
  induction listing with
  | nil => cases h
  | file other content rest ih =>
    unfold find?
    split
    · exact Option.some_ne_none _
    · next hne =>
      cases h with
      | here => exact absurd rfl hne
      | afterFile h => exact ih h
  | dir other entries rest ihEntries ihRest =>
    unfold find?
    split
    · exact Option.some_ne_none _
    · next hne =>
      cases h with
      | inside h => exact absurd rfl hne
      | afterDir h => exact ihRest h

/-- In a directory on a disk, names lead to a file if that is what is looked up. -/
theorem file_iff_exists_at? {listing : Listing} (hwell : listing.WellFormed) {names : List String} :
    listing.File names ↔ ∃ content, (Node.dir listing).at? names = some (.file content) := by
  refine ⟨fun h => ?_, fun ⟨content, h⟩ => file_of_at? h⟩
  induction h with
  | here name content rest => exact ⟨content, by rw [Node.at?_file_cons, if_pos rfl, Node.at?_nil]⟩
  | inside _ ih =>
    cases hwell with
    | dir _ _ hentries _ =>
      obtain ⟨content, h⟩ := ih hentries
      exact ⟨content, by rwa [Node.at?_inside_cons, if_pos rfl]⟩
  | @afterFile name _ rest names h ih =>
    cases hwell with
    | file _ hnew hrest =>
      obtain ⟨content, hat⟩ := ih hrest
      cases names with
      | nil => cases hat
      | cons next names =>
        -- names that lead on do not start with a name that is new
        have hne : name ≠ next := fun heq => h.find?_ne_none (heq ▸ hnew)
        exact ⟨content, by rwa [Node.at?_file_cons, if_neg hne]⟩
  | @afterDir name _ rest names h ih =>
    cases hwell with
    | dir _ hnew _ hrest =>
      obtain ⟨content, hat⟩ := ih hrest
      cases names with
      | nil => cases hat
      | cons next names =>
        have hne : name ≠ next := fun heq => h.find?_ne_none (heq ▸ hnew)
        exact ⟨content, by rwa [Node.at?_inside_cons, if_neg hne]⟩

theorem File.isEntryName {listing : Listing} {names : List String} (h : listing.File names)
    (hwell : listing.WellFormed) : ∀ name ∈ names, Path.IsEntryName name := by
  induction h with
  | here name content rest =>
    cases hwell with
    | file hname _ _ => simpa using hname
  | inside _ ih =>
    cases hwell with
    | dir hname _ hentries _ => simpa using ⟨hname, ih hentries⟩
  | afterFile _ ih =>
    cases hwell with
    | file _ _ hrest => exact ih hrest
  | afterDir _ ih =>
    cases hwell with
    | dir _ _ _ hrest => exact ih hrest

/-! ## Directories -/

/-- Whether names lead to a directory. -/
def HasDir (listing : Listing) (names : List String) : Prop :=
  ∃ inner, (Node.dir listing).at? names = some (.dir inner)

theorem hasDir_nil (listing : Listing) : listing.HasDir [] :=
  ⟨listing, Node.at?_nil _⟩

theorem hasDir_file_iff {name : String} {content : Bytes} {rest : Listing}
    (hnew : rest.find? name = none) {names : List String} :
    (Listing.file name content rest).HasDir names ↔ rest.HasDir names := by
  cases names with
  | nil => exact iff_of_true (hasDir_nil _) (hasDir_nil _)
  | cons next names =>
    unfold HasDir
    rw [Node.at?_file_cons]
    split
    · next heq =>
      subst heq
      rw [Node.at?_of_find?_eq_none hnew]
      cases names <;> simp [Node.at?]
    · exact Iff.rfl

theorem hasDir_dir_iff {name next : String} {entries rest : Listing}
    (hnew : rest.find? name = none) {names : List String} :
    (Listing.dir name entries rest).HasDir (next :: names) ↔
      (next = name ∧ entries.HasDir names) ∨ rest.HasDir (next :: names) := by
  unfold HasDir
  rw [Node.at?_inside_cons]
  split
  · next heq =>
    subst heq
    rw [Node.at?_of_find?_eq_none hnew]
    simp
  · next hne => simp [Ne.symm hne]

end Listing

/-! ## Following names -/

namespace FileSystem

theorem follow_dir_cons (above : List Listing) (entries : Listing) (part : String)
    (parts : List String) :
    follow above (.dir entries) (part :: parts) =
      if part = "" ∨ part = "." then follow above (.dir entries) parts
      else if part = ".." then
        match above with
        | [] => follow [] (.dir entries) parts
        | up :: above => follow above (.dir up) parts
      else if nameLimit < part.utf8ByteSize then .error .nameTooLong
      else
        match entries.find? part with
        | some node => follow (entries :: above) node parts
        | none => .error .notFound :=
  rfl

theorem follow_above {names : List String} (h : ".." ∉ names) (above others : List Listing)
    (node : Node) : follow above node names = follow others node names := by
  induction names generalizing above others node with
  | nil => cases node <;> rfl
  | cons name names ih =>
    rw [List.mem_cons, not_or] at h
    cases node with
    | file content => rfl
    | dir entries =>
      rw [follow_dir_cons, follow_dir_cons, if_neg (Ne.symm h.1), if_neg (Ne.symm h.1)]
      split
      · exact ih h.2 above others (.dir entries)
      · split
        · rfl
        · cases entries.find? name with
          | none => rfl
          | some found => exact ih h.2 _ _ found

/-- After a path, names that do not lead back are followed from where the path leads. -/
theorem follow_append {names : List String} (h : ".." ∉ names) (above : List Listing) (node : Node)
    (parts : List String) :
    follow above node (parts ++ names) =
      follow above node parts >>= fun found => follow [] found names := by
  induction parts generalizing above node with
  | nil =>
    rw [List.nil_append, follow_above h above []]
    cases node <;> rfl
  | cons part parts ih =>
    cases node with
    | file content => rfl
    | dir entries =>
      rw [List.cons_append, follow_dir_cons, follow_dir_cons]
      split
      · exact ih above (.dir entries)
      · split
        · cases above with
          | nil => exact ih [] (.dir entries)
          | cons up above => exact ih above (.dir up)
        · split
          · rfl
          · cases entries.find? part with
            | none => rfl
            | some found => exact ih (entries :: above) found

theorem follow_eq_ok_iff {names : List String} (h : ∀ name ∈ names, Path.IsEntryName name)
    {above : List Listing} {node found : Node} :
    follow above node names = .ok found ↔
      (∀ name ∈ names, name.utf8ByteSize ≤ nameLimit) ∧ node.at? names = some found := by
  induction names generalizing above node with
  | nil =>
    rw [Node.at?_nil]
    cases node <;> simp [follow]
  | cons name names ih =>
    have hname := h name List.mem_cons_self
    cases node with
    | file content => simp [follow, Node.at?]
    | dir entries =>
      have hstay : ¬(name = "" ∨ name = ".") := not_or.2 ⟨hname.ne_empty, hname.ne_current⟩
      rw [follow_dir_cons, if_neg hstay, if_neg hname.ne_parent, Node.at?_dir_cons, List.forall_mem_cons]
      split
      · next hlong =>
        constructor
        · intro herror
          cases herror
        · rintro ⟨⟨hshort, -⟩, -⟩
          exact absurd hlong (Nat.not_lt.2 hshort)
      · next hshort =>
        cases entries.find? name with
        | none => simp
        | some next =>
          show follow (entries :: above) next names = .ok found ↔ _
          rw [ih fun other hother => h other (List.mem_cons_of_mem _ hother)]
          simp [Nat.not_lt.1 hshort]

/-- Following names that lead somewhere: they lead there unless one of them is too long. -/
theorem follow_of_at? {names : List String} (h : ∀ name ∈ names, Path.IsEntryName name)
    (above : List Listing) {node found : Node} (hat : node.at? names = some found) :
    follow above node names =
      if ∀ name ∈ names, name.utf8ByteSize ≤ nameLimit then .ok found else .error .nameTooLong := by
  induction names generalizing above node with
  | nil =>
    rw [Node.at?_nil] at hat
    cases hat
    cases found <;> simp [follow]
  | cons name names ih =>
    have hname := h name List.mem_cons_self
    cases node with
    | file content => cases hat
    | dir entries =>
      obtain ⟨next, hfind, hnext⟩ := Option.bind_eq_some_iff.1 hat
      have hstay : ¬(name = "" ∨ name = ".") := not_or.2 ⟨hname.ne_empty, hname.ne_current⟩
      rw [follow_dir_cons, if_neg hstay, if_neg hname.ne_parent, hfind]
      by_cases hlong : nameLimit < name.utf8ByteSize
      · rw [if_pos hlong, if_neg]
        intro hall
        exact absurd hlong (Nat.not_lt.2 (hall name List.mem_cons_self))
      · rw [if_neg hlong]
        simp only [List.forall_mem_cons, Nat.not_lt.1 hlong, true_and]
        exact ih (fun other hother => h other (List.mem_cons_of_mem _ hother)) _ hnext

/-- Whether a relation between directories is kept on the way down: where one of two related
directories has a directory, the other one has a related directory of that name. -/
def KeptBelow (R : Listing → Listing → Prop) : Prop :=
  ∀ entries others, R entries others → ∀ name inner, entries.find? name = some (.dir inner) →
    ∃ inner', others.find? name = some (.dir inner') ∧ R inner inner'

/-- **Related directories stay related on every path**: where a path leads to a directory, it leads
from related directories to a related one. -/
theorem follow_dir_of_related {R : Listing → Listing → Prop} (hR : KeptBelow R)
    {above others : List Listing} (habove : List.Forall₂ R above others)
    {entries entries' : Listing} (h : R entries entries') {parts : List String} {found : Listing}
    (hfollow : follow above (.dir entries) parts = .ok (.dir found)) :
    ∃ found', follow others (.dir entries') parts = .ok (.dir found') ∧ R found found' := by
  induction parts generalizing above others entries entries' with
  | nil =>
    cases hfollow
    exact ⟨entries', rfl, h⟩
  | cons part parts ih =>
    rw [follow_dir_cons] at hfollow ⊢
    split at hfollow
    · next hstay =>
      rw [if_pos hstay]
      exact ih habove h hfollow
    · next hmove =>
      rw [if_neg hmove]
      split at hfollow
      · next hback =>
        rw [if_pos hback]
        cases habove with
        | nil => exact ih .nil h hfollow
        | cons hup habove => exact ih habove hup hfollow
      · next hdown =>
        rw [if_neg hdown]
        split at hfollow
        · cases hfollow
        · next hshort =>
          rw [if_neg hshort]
          split at hfollow
          · next node hfind =>
            cases node with
            | file content =>
              -- a file is no directory, and nothing lies below it
              cases parts with
              | nil => cases hfollow
              | cons next parts => cases hfollow
            | dir inner =>
              obtain ⟨inner', hfind', hinner⟩ := hR _ _ h _ _ hfind
              rw [hfind']
              exact ih (.cons h habove) hinner hfollow
          · cases hfollow

end FileSystem

end ClassImports
