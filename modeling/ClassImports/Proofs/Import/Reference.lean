import Mathlib
import ClassImports.Proofs.Import.Segments

/-!
# Which texts refer to types

A text constant counts without the padding at its ends (`bare`, which `IsTrimmed` determines). What
is left refers to types if it is a reference (`IsReference`, `reference?_eq_some_iff`), and a method
descriptor, which begins with a parenthesis, only if there is an object type in it.
`imports_classified` says this of all text constants, and what their imports look like: all of them
are made of the characters of references and of segments that are not empty (`IsImport`), those of a
method descriptor are names of object types, and any other text has one import at most.
-/

namespace ClassImports.RawText

/-! ## The bare text -/

/-- A raw text without the padding at its ends. -/
def bare (raw : String) : String :=
  String.ofList (trim raw.toList)

theorem toList_bare (raw : String) : (bare raw).toList = trim raw.toList :=
  String.toList_ofList

/-- Padding does not count for the imports of a text. -/
theorem imports_bare (raw : String) : imports (bare raw) = imports raw := by
  unfold imports reference?
  rw [toList_bare, trim_trim]

/-! ## References -/

/-- What a text without padding is made of if it refers to types. -/
structure IsReference (text : List Char) : Prop where
  ne_nil : text ≠ []
  chars : ∀ c ∈ text, c.isAlphanum = true ∨ c ∈ ['(', ')', '[', ';', '/']
  slash_mem : '/' ∈ text
  head?_ne : text.head? ≠ some '/'
  no_two_slashes : ¬ ['/', '/'] <:+: text

theorem isReferenceChar_iff (c : Char) :
    isReferenceChar c = true ↔ c.isAlphanum = true ∨ c ∈ ['(', ')', '[', ';', '/'] := by
  simp only [isReferenceChar, Bool.or_eq_true, beq_iff_eq, List.mem_cons, List.not_mem_nil,
    or_false, or_assoc]

theorem dot_ne_slash (c : Char) : dot c ≠ '/' := by
  unfold dot
  split
  · decide
  · assumption

theorem dot_eq_iff {c d : Char} (h : d ≠ '.') (hd : d ≠ '/') : dot c = d ↔ c = d := by
  unfold dot
  split
  · next hc => simp [hc, Ne.symm h, Ne.symm hd]
  · rfl

/-- Two dots follow each other somewhere in the text. -/
theorem hasDoubleDot_iff (text : List Char) : hasDoubleDot text = true ↔ ['.', '.'] <:+: text := by
  induction text with
  | nil => simp [hasDoubleDot]
  | cons c rest ih =>
    rw [List.infix_cons_iff, List.cons_prefix_cons, ← ih]
    by_cases hc : c = '.'
    · subst hc
      cases rest with
      | nil => simp [hasDoubleDot]
      | cons d rest =>
        by_cases hd : d = '.'
        · subst hd
          simp [hasDoubleDot]
        · rw [hasDoubleDot_dot_cons hd, List.cons_prefix_cons]
          simp [Ne.symm hd]
    · rw [hasDoubleDot_cons_of_ne hc]
      simp [Ne.symm hc]

/-- Without dots of its own, a text has two of them in a row in its dotted form exactly if it has
two slashes in a row. -/
theorem infix_map_dot_iff {text : List Char} (h : '.' ∉ text) :
    ['.', '.'] <:+: text.map dot ↔ ['/', '/'] <:+: text := by
  rw [List.infix_map_iff]
  constructor
  · rintro ⟨part, hpart, hdots⟩
    have hslash : ∀ c ∈ part, dot c = '.' → c = '/' := by
      intro c hc hdot
      unfold dot at hdot
      split at hdot
      · assumption
      · exact absurd (hdot ▸ hpart.mem hc) h
    obtain ⟨c, tail, rfl, hc, htail⟩ := List.map_eq_cons_iff.1 hdots.symm
    obtain ⟨d, last, rfl, hd, hlast⟩ := List.map_eq_cons_iff.1 htail
    rw [List.map_eq_nil_iff.1 hlast, hslash c List.mem_cons_self hc,
      hslash d (List.mem_cons_of_mem _ List.mem_cons_self) hd] at hpart
    exact hpart
  · intro hslashes
    exact ⟨['/', '/'], hslashes, rfl⟩

theorem dot_notMem_of_chars {text : List Char}
    (h : ∀ c ∈ text, c.isAlphanum = true ∨ c ∈ ['(', ')', '[', ';', '/']) : '.' ∉ text := by
  intro hmem
  exact absurd (h '.' hmem) (by decide)

/-- The texts that are taken for references, and their dotted forms. -/
theorem reference?_eq_some_iff (raw reference : List Char) :
    reference? raw = some reference ↔
      IsReference (trim raw) ∧ reference = (trim raw).map dot := by
  simp only [reference?]
  constructor
  · intro h
    split at h
    · next hall =>
      cases h
      simp only [Bool.and_eq_true, List.all_eq_true, isReferenceChar_iff, List.contains_iff_mem,
        bne_iff_ne, ne_eq, Bool.not_eq_true'] at hall
      obtain ⟨⟨⟨hchars, hslash⟩, hhead⟩, hdots⟩ := hall
      refine ⟨⟨List.ne_nil_of_mem hslash, hchars, hslash, hhead, ?_⟩, rfl⟩
      rw [← infix_map_dot_iff (dot_notMem_of_chars hchars), ← hasDoubleDot_iff, hdots]
      exact Bool.false_ne_true
    · cases h
  · rintro ⟨h, rfl⟩
    have hdots : hasDoubleDot ((trim raw).map dot) = false := by
      rw [← Bool.not_eq_true, hasDoubleDot_iff, infix_map_dot_iff (dot_notMem_of_chars h.chars)]
      exact h.no_two_slashes
    have hchars : (trim raw).all isReferenceChar = true :=
      List.all_eq_true.2 fun c hc => (isReferenceChar_iff c).2 (h.chars c hc)
    rw [if_pos]
    simp [hchars, h.slash_mem, h.head?_ne, hdots]

/-! ## Imports -/

/-- What the imports of text constants are made of. -/
structure IsImport (name : List Char) : Prop where
  ne_nil : name ≠ []
  slash_notMem : '/' ∉ name
  no_two_dots : ¬ ['.', '.'] <:+: name
  head?_ne : name.head? ≠ some '.'
  chars : ∀ c ∈ name, c.isAlphanum = true ∨ c ∈ ['(', ')', '[', ';', '.']

/-- An object type stands in the text, spelled as in a descriptor. -/
def HoldsToken (text : List Char) : Prop :=
  ∃ before name after, ObjectType.isName name = true ∧
    text = before ++ 'L' :: (name ++ ';' :: after)

theorem names_ne_nil_iff (text : List Char) : ObjectType.names text ≠ [] ↔ HoldsToken text := by
  constructor
  · intro h
    obtain ⟨name, hname⟩ := List.exists_mem_of_ne_nil _ h
    obtain ⟨hisName, before, after, hsplit⟩ := ObjectType.isName_of_mem_names hname
    exact ⟨before, name, after, hisName, hsplit⟩
  · rintro ⟨before, name, after, hname, rfl⟩
    exact ObjectType.names_ne_nil_of_token hname before after

/-- The dotted form of a reference may be an import. -/
theorem IsReference.isImport_map_dot {text : List Char} (h : IsReference text) :
    IsImport (text.map dot) where
  ne_nil := by simpa using h.ne_nil
  slash_notMem := by
    intro hmem
    obtain ⟨c, -, hc⟩ := List.mem_map.1 hmem
    exact dot_ne_slash c hc
  no_two_dots := by
    rw [infix_map_dot_iff (dot_notMem_of_chars h.chars)]
    exact h.no_two_slashes
  head?_ne := by
    intro hhead
    obtain ⟨c, hc, hdot⟩ := Option.map_eq_some_iff.1 (List.head?_map ▸ hhead)
    have hmem : c ∈ text := List.mem_of_mem_head? hc
    unfold dot at hdot
    split at hdot
    · next hslash => exact h.head?_ne (hslash ▸ hc)
    · exact dot_notMem_of_chars h.chars (hdot ▸ hmem)
  chars := by
    intro d hd
    obtain ⟨c, hc, rfl⟩ := List.mem_map.1 hd
    unfold dot
    split
    · decide
    · next hslash =>
      refine (h.chars c hc).imp_right fun hpunctuation => ?_
      simp only [List.mem_cons, List.not_mem_nil, or_false] at hpunctuation ⊢
      grind

/-- A name of an object type that stands in an import is one itself. -/
theorem IsImport.of_isName {text name : List Char} (h : IsImport text) (hpart : name <:+: text)
    (hname : ObjectType.isName name = true) : IsImport name where
  ne_nil := by
    rintro rfl
    cases hname
  slash_notMem := fun hmem => h.slash_notMem (hpart.mem hmem)
  no_two_dots := fun hdots => h.no_two_dots (hdots.trans hpart)
  head?_ne := by
    intro hhead
    obtain ⟨rest, rfl⟩ := List.head?_eq_some_iff.1 hhead
    exact absurd (ObjectType.isName_cons_iff.1 hname).1 (by decide)
  chars := fun c hc => h.chars c (hpart.mem hc)

/-- What a reference refers to: names of object types in it, or itself. -/
theorem mem_types {reference name : List Char} (h : name ∈ types reference) :
    name ∈ ObjectType.names reference ∨ reference.head? ≠ some '(' ∧ name = reference := by
  unfold types at h
  simp only at h
  split at h
  · exact .inl h
  · next hparen =>
    split at h
    · next hnames => exact .inl (hnames ▸ h)
    · exact .inr ⟨hparen, List.mem_singleton.1 h⟩

theorem length_types_le {reference : List Char} (h : reference.head? ≠ some '(') :
    (types reference).length ≤ 1 := by
  unfold types
  simp only [h, if_false]
  split <;> exact Nat.le_refl 1

theorem types_ne_nil_iff (reference : List Char) :
    types reference ≠ [] ↔ (reference.head? = some '(' → ObjectType.names reference ≠ []) := by
  unfold types
  simp only
  split
  · next hparen => exact ⟨fun h _ => h, fun h => h hparen⟩
  · next hparen =>
    refine iff_of_true ?_ fun h => absurd h hparen
    split <;> exact List.cons_ne_nil _ _

theorem head?_map_dot_iff (text : List Char) :
    (text.map dot).head? = some '(' ↔ text.head? = some '(' := by
  rw [List.head?_map, Option.map_eq_some_iff]
  constructor
  · rintro ⟨c, hc, hdot⟩
    rwa [(dot_eq_iff (by decide) (by decide)).1 hdot] at hc
  · intro h
    exact ⟨'(', h, rfl⟩

/-! ## All text constants -/

theorem imports_of_isReference {raw : String} (h : IsReference (bare raw).toList) :
    imports raw = (types ((bare raw).toList.map dot)).map String.ofList := by
  rw [toList_bare] at h ⊢
  unfold imports
  rw [(reference?_eq_some_iff raw.toList _).2 ⟨h, rfl⟩]

theorem imports_eq_nil_of_not_isReference {raw : String} (h : ¬ IsReference (bare raw).toList) :
    imports raw = [] := by
  rw [toList_bare] at h
  unfold imports
  split
  · next reference hreference => exact absurd ((reference?_eq_some_iff _ _).1 hreference).1 h
  · rfl

theorem isReference_of_mem_imports {raw name : String} (h : name ∈ imports raw) :
    IsReference (bare raw).toList := by
  by_contra hnot
  rw [imports_eq_nil_of_not_isReference hnot] at h
  exact List.not_mem_nil h

theorem imports_ne_nil_iff (raw : String) :
    imports raw ≠ [] ↔ IsReference (bare raw).toList ∧
      ((bare raw).toList.head? = some '(' → HoldsToken ((bare raw).toList.map dot)) := by
  by_cases h : IsReference (bare raw).toList
  · rw [imports_of_isReference h, ne_eq, List.map_eq_nil_iff, ← ne_eq, types_ne_nil_iff,
      head?_map_dot_iff, names_ne_nil_iff]
    exact (and_iff_right h).symm
  · rw [imports_eq_nil_of_not_isReference h]
    exact iff_of_false (fun hne => hne rfl) fun hboth => h hboth.1

/-- The names among which the imports of a text are. -/
theorem mem_imports {raw name : String} (h : name ∈ imports raw) :
    name.toList ∈ ObjectType.names ((bare raw).toList.map dot) ∨
      (bare raw).toList.head? ≠ some '(' ∧ name.toList = (bare raw).toList.map dot := by
  rw [imports_of_isReference (isReference_of_mem_imports h)] at h
  obtain ⟨chars, hchars, rfl⟩ := List.mem_map.1 h
  rw [String.toList_ofList, ne_eq, ← head?_map_dot_iff]
  exact mem_types hchars

theorem isImport_of_mem_imports {raw name : String} (h : name ∈ imports raw) :
    IsImport name.toList := by
  have hwhole := (isReference_of_mem_imports h).isImport_map_dot
  rcases mem_imports h with hname | ⟨-, hname⟩
  · obtain ⟨hisName, before, after, hsplit⟩ := ObjectType.isName_of_mem_names hname
    refine hwhole.of_isName ⟨before ++ ['L'], ';' :: after, ?_⟩ hisName
    rw [hsplit]
    simp
  · rw [hname]
    exact hwhole

/-- **Which texts have imports, and what these look like.** Without the padding at its ends, which
does not count, a text that has imports holds only ASCII letters, digits and `( ) [ ; /`, has a slash
but not in front and no two in a row, and if it begins with a parenthesis there is an object type in
it. All such texts have imports. An import is not empty, holds only ASCII letters, digits and
`( ) [ ; .`, and has no dot in front and no two in a row. The imports of a text that begins with a
parenthesis are names of object types, and any other text has one import at most. -/
theorem imports_classified (raw : String) :
    IsTrimmed raw.toList (bare raw).toList ∧
      (imports raw ≠ [] ↔ IsReference (bare raw).toList ∧
        ((bare raw).toList.head? = some '(' → HoldsToken ((bare raw).toList.map dot))) ∧
      imports raw = imports (bare raw) ∧
      (∀ name ∈ imports raw, IsImport name.toList) ∧
      ((bare raw).toList.head? = some '(' →
        ∀ name ∈ imports raw, ObjectType.isName name.toList = true) ∧
      ((bare raw).toList.head? ≠ some '(' → (imports raw).length ≤ 1) := by
  refine ⟨?_, imports_ne_nil_iff raw, (imports_bare raw).symm, ?_, ?_, ?_⟩
  · rw [toList_bare]
    exact isTrimmed_trim raw.toList
  · exact fun name hname => isImport_of_mem_imports hname
  · intro hparen name hname
    have hfound := (mem_imports hname).resolve_right fun hwhole => hwhole.1 hparen
    exact (ObjectType.isName_of_mem_names hfound).1
  · intro hparen
    by_cases h : IsReference (bare raw).toList
    · rw [imports_of_isReference h, List.length_map]
      rw [ne_eq, ← head?_map_dot_iff] at hparen
      exact length_types_le hparen
    · rw [imports_eq_nil_of_not_isReference h]
      exact Nat.zero_le 1

end ClassImports.RawText
