import Mathlib
import ClassImports.Proofs.Import.Segments

/-!
# Method descriptors

A method descriptor spells the types of the parameters between parentheses, and then the type of the
result. The search for object types never loses its place in one: wherever a type begins, it finds
the name of that type, if it has one of at least two characters, and goes on where the next type
begins (`FieldType.names_spelled_append`). So a text constant that holds a method descriptor has the
names in it for its imports, in their order and as often as they occur
(`MethodDescriptor.imports_padded_spelled`).
-/

namespace ClassImports

/-- A name of a type in a descriptor: segments of ASCII letters and digits, of which the first starts
with a letter. -/
structure TypeName where
  segments : List (List Char)
  words : Segments.AreWords segments
  isAlpha_head : (Segments.slashed segments).head?.any Char.isAlpha = true

namespace TypeName

/-- The name with slashes between its segments, as class files write it. -/
def slashed (name : TypeName) : List Char :=
  Segments.slashed name.segments

/-- The name with dots between its segments. -/
def dotted (name : TypeName) : List Char :=
  Segments.dotted name.segments

variable (name : TypeName)

theorem map_dot_slashed : name.slashed.map dot = name.dotted :=
  name.words.map_dot_slashed

theorem isNameChar_of_mem_dotted {c : Char} (h : c ∈ name.dotted) :
    ObjectType.isNameChar c = true :=
  name.words.isNameChar_of_mem_dotted h

theorem hasDoubleDot_dotted_append (text : List Char) :
    RawText.hasDoubleDot (name.dotted ++ text) = RawText.hasDoubleDot text :=
  name.words.hasDoubleDot_dotted_append text

/-- A name is found behind its `L` as a whole, or not at all if it is a single letter. -/
theorem nameAtEnd?_dotted :
    ObjectType.nameAtEnd? ('L' :: name.dotted) =
      if 2 ≤ name.slashed.length then some name.dotted else none := by
  have hname : ObjectType.isName name.dotted = true ↔ 2 ≤ name.slashed.length :=
    name.words.isName_dotted_iff name.isAlpha_head
  split
  · next hlong => exact ObjectType.nameAtEnd?_cons_eq_some_iff.2 (hname.2 hlong)
  · next hshort =>
    rw [← List.length_map dot, map_dot_slashed] at hshort
    cases hdotted : name.dotted with
    | nil => rfl
    | cons first rest =>
      rw [hdotted, List.length_cons] at hshort
      have hrest : rest = [] := List.length_eq_zero_iff.1 (by omega)
      subst hrest
      simp [ObjectType.nameAtEnd?, ObjectType.isName]

end TypeName

/-- The types without a name, each of which has a letter. -/
inductive Primitive where
  | byte
  | char
  | double
  | float
  | int
  | long
  | short
  | boolean
  deriving DecidableEq, Repr

/-- The letter of a type. -/
def Primitive.letter : Primitive → Char
  | byte => 'B'
  | char => 'C'
  | double => 'D'
  | float => 'F'
  | int => 'I'
  | long => 'J'
  | short => 'S'
  | boolean => 'Z'

/-- What can be the type of a field, a parameter or a result. -/
inductive FieldType where
  | primitive (type : Primitive)
  | array (element : FieldType)
  | object (name : TypeName)

namespace FieldType

/-- The type as descriptors spell it. -/
def spelled : FieldType → List Char
  | primitive type => [type.letter]
  | array element => '[' :: element.spelled
  | object name => 'L' :: (name.slashed ++ [';'])

/-- The name in a type, if there is one. -/
def name? : FieldType → Option TypeName
  | primitive _ => none
  | array element => element.name?
  | object name => some name

end FieldType

/-- The types of a method's parameters and of its result, if it has one. -/
structure MethodDescriptor where
  parameters : List FieldType
  result : Option FieldType

namespace MethodDescriptor

/-- The descriptor as class files write it. -/
def spelled (descriptor : MethodDescriptor) : List Char :=
  '(' :: (descriptor.parameters.flatMap FieldType.spelled ++
    ')' :: descriptor.result.elim ['V'] FieldType.spelled)

/-- All types in the descriptor, from left to right. -/
def types (descriptor : MethodDescriptor) : List FieldType :=
  descriptor.parameters ++ descriptor.result.toList

/-- The names in the descriptor, from left to right. -/
def typeNames (descriptor : MethodDescriptor) : List TypeName :=
  descriptor.types.filterMap FieldType.name?

end MethodDescriptor

/-! ## The characters of a descriptor -/

theorem Primitive.letter_eq (type : Primitive) :
    type.letter ≠ 'L' ∧ type.letter ≠ '.' ∧ RawText.isReferenceChar type.letter = true ∧
      dot type.letter = type.letter := by
  cases type <;> decide

namespace FieldType

theorem isReferenceChar_of_mem_spelled {type : FieldType} {c : Char} (h : c ∈ type.spelled) :
    RawText.isReferenceChar c = true := by
  induction type with
  | primitive type =>
    rw [List.mem_singleton.1 h]
    exact type.letter_eq.2.2.1
  | array element ih =>
    rcases List.mem_cons.1 h with rfl | h
    · decide
    · exact ih h
  | object name =>
    rw [spelled, List.mem_cons, List.mem_append, List.mem_singleton] at h
    rcases h with rfl | h | rfl
    · decide
    · exact name.words.isReferenceChar_of_mem_slashed h
    · decide

theorem mem_spelled_of_name? {type : FieldType} {name : TypeName} (h : type.name? = some name)
    {c : Char} (hc : c ∈ name.slashed) : c ∈ type.spelled := by
  induction type with
  | primitive type => cases h
  | array element ih => exact List.mem_cons_of_mem _ (ih h)
  | object other =>
    cases h
    exact List.mem_cons_of_mem _ (List.mem_append_left _ hc)

theorem map_dot_spelled_object (name : TypeName) :
    (object name).spelled.map dot = 'L' :: (name.dotted ++ [';']) := by
  rw [spelled, List.map_cons, List.map_append, name.map_dot_slashed]
  rfl

/-- Between types, and inside of them, no dot follows another. -/
theorem hasDoubleDot_spelled_append (type : FieldType) (text : List Char) :
    RawText.hasDoubleDot (type.spelled.map dot ++ text) = RawText.hasDoubleDot text := by
  induction type with
  | primitive type =>
    obtain ⟨-, hdot, -, hsame⟩ := type.letter_eq
    rw [spelled, List.map_singleton, hsame]
    exact RawText.hasDoubleDot_cons_of_ne hdot text
  | array element ih =>
    rw [spelled, List.map_cons, List.cons_append, RawText.hasDoubleDot_cons_of_ne (by decide)]
    exact ih
  | object name =>
    rw [map_dot_spelled_object, List.cons_append, RawText.hasDoubleDot_cons_of_ne (by decide),
      List.append_assoc, name.hasDoubleDot_dotted_append]
    exact RawText.hasDoubleDot_cons_of_ne (by decide) text

theorem hasDoubleDot_flatMap_spelled_append (types : List FieldType) (text : List Char) :
    RawText.hasDoubleDot ((types.flatMap spelled).map dot ++ text) =
      RawText.hasDoubleDot text := by
  induction types with
  | nil => rfl
  | cons type types ih =>
    rw [List.flatMap_cons, List.map_append, List.append_assoc, hasDoubleDot_spelled_append, ih]

/-! ## The names in a descriptor -/

/-- The names that are found in types, in dotted form: those of at least two characters. -/
def namesFound (types : List FieldType) : List (List Char) :=
  ((types.filterMap name?).filter fun name => 2 ≤ name.slashed.length).map TypeName.dotted

theorem namesFound_append (types more : List FieldType) :
    namesFound (types ++ more) = namesFound types ++ namesFound more := by
  unfold namesFound
  rw [List.filterMap_append, List.filter_append, List.map_append]

/-- **The search keeps its place**: it takes a type off the text that starts with its spelling, with
the name in it if it can be found. -/
theorem names_spelled_append (type : FieldType) (rest : List Char) :
    ObjectType.names (type.spelled.map dot ++ rest) =
      namesFound [type] ++ ObjectType.names rest := by
  induction type with
  | primitive type =>
    obtain ⟨hletter, -, -, hsame⟩ := type.letter_eq
    rw [spelled, List.map_singleton, hsame]
    exact ObjectType.names_of_no_token (ObjectType.token?_cons_of_ne hletter rest)
  | array element ih =>
    rw [spelled, List.map_cons, List.cons_append,
      ObjectType.names_of_no_token (ObjectType.token?_cons_of_ne (by decide) _), ih]
    rfl
  | object name =>
    have hsemicolon : ';' ∉ 'L' :: name.dotted := by
      rw [List.mem_cons, not_or]
      exact ⟨by decide, fun hmem => absurd (name.isNameChar_of_mem_dotted hmem) (by decide)⟩
    rw [map_dot_spelled_object, ← List.cons_append, List.append_assoc, List.singleton_append,
      ObjectType.names_append_semicolon hsemicolon, name.nameAtEnd?_dotted]
    by_cases hlong : 2 ≤ name.slashed.length
    · simp [namesFound, name?, hlong]
    · simp [namesFound, name?, hlong]

theorem names_flatMap_spelled_append (types : List FieldType) (rest : List Char) :
    ObjectType.names ((types.flatMap spelled).map dot ++ rest) =
      namesFound types ++ ObjectType.names rest := by
  induction types with
  | nil => rfl
  | cons type types ih =>
    rw [List.flatMap_cons, List.map_append, List.append_assoc, names_spelled_append, ih,
      ← List.append_assoc, ← namesFound_append, List.singleton_append]

end FieldType

namespace MethodDescriptor

variable (descriptor : MethodDescriptor)

theorem isReferenceChar_of_mem_spelled {c : Char} (h : c ∈ descriptor.spelled) :
    RawText.isReferenceChar c = true := by
  rw [spelled, List.mem_cons, List.mem_append, List.mem_cons, List.mem_flatMap] at h
  rcases h with rfl | ⟨type, -, h⟩ | rfl | h
  · decide
  · exact FieldType.isReferenceChar_of_mem_spelled h
  · decide
  · cases hresult : descriptor.result with
    | none =>
      rw [hresult] at h
      rw [List.mem_singleton.1 h]
      decide
    | some type =>
      rw [hresult] at h
      exact FieldType.isReferenceChar_of_mem_spelled h

theorem mem_spelled_of_mem_typeNames {name : TypeName} (h : name ∈ descriptor.typeNames)
    {c : Char} (hc : c ∈ name.slashed) : c ∈ descriptor.spelled := by
  obtain ⟨type, htype, hname⟩ := List.mem_filterMap.1 h
  have hmem := FieldType.mem_spelled_of_name? hname hc
  rw [spelled, List.mem_cons, List.mem_append, List.mem_cons, List.mem_flatMap]
  rcases List.mem_append.1 htype with hparameter | hresult
  · exact .inr (.inl ⟨type, hparameter, hmem⟩)
  · rw [Option.mem_toList.1 hresult]
    exact .inr (.inr (.inr hmem))

theorem map_dot_spelled :
    descriptor.spelled.map dot =
      '(' :: ((descriptor.parameters.flatMap FieldType.spelled).map dot ++
        ')' :: (descriptor.result.elim ['V'] FieldType.spelled).map dot) := by
  rw [spelled, List.map_cons, List.map_append, List.map_cons]
  rfl

theorem hasDoubleDot_map_dot_spelled :
    RawText.hasDoubleDot (descriptor.spelled.map dot) = false := by
  rw [map_dot_spelled, RawText.hasDoubleDot_cons_of_ne (by decide),
    FieldType.hasDoubleDot_flatMap_spelled_append, RawText.hasDoubleDot_cons_of_ne (by decide)]
  cases descriptor.result with
  | none => decide
  | some type =>
    rw [Option.elim_some, ← List.append_nil (type.spelled.map dot),
      FieldType.hasDoubleDot_spelled_append]
    rfl

/-- The search finds the names of a descriptor: parentheses, and a result without a type, do not
start the name of a type. -/
theorem names_map_dot_spelled :
    ObjectType.names (descriptor.spelled.map dot) = FieldType.namesFound descriptor.types := by
  have hskips {c : Char} (hc : c ≠ 'L') (rest : List Char) :
      ObjectType.names (c :: rest) = ObjectType.names rest :=
    ObjectType.names_of_no_token (ObjectType.token?_cons_of_ne hc rest)
  have hresult : ObjectType.names ((descriptor.result.elim ['V'] FieldType.spelled).map dot) =
      FieldType.namesFound descriptor.result.toList := by
    cases descriptor.result with
    | none =>
      rw [Option.elim_none, List.map_singleton, show dot 'V' = 'V' from rfl,
        hskips (show 'V' ≠ 'L' by decide), ObjectType.names_nil]
      rfl
    | some type =>
      have hone := type.names_spelled_append []
      rwa [List.append_nil, ObjectType.names_nil, List.append_nil] at hone
  rw [map_dot_spelled, hskips (show '(' ≠ 'L' by decide), FieldType.names_flatMap_spelled_append,
    hskips (show ')' ≠ 'L' by decide), hresult, types, FieldType.namesFound_append]

/-- **Method descriptors are read completely and in order.** If a name in a method descriptor has a
slash, then a text constant that holds the descriptor, with padding around it or without, has for
its imports the names of at least two characters, from left to right and as often as they occur. -/
theorem imports_padded_spelled (hslash : ∃ name ∈ descriptor.typeNames, '/' ∈ name.slashed)
    {raw : String} {before after : List Char} (hbefore : ∀ c ∈ before, c ≤ ' ')
    (hafter : ∀ c ∈ after, c ≤ ' ') (hraw : raw.toList = before ++ descriptor.spelled ++ after) :
    RawText.imports raw =
      (descriptor.typeNames.filter fun name => 2 ≤ name.slashed.length).map fun name =>
        String.ofList name.dotted := by
  obtain ⟨name, hname, hslash⟩ := hslash
  have hreference : RawText.reference? raw.toList = some (descriptor.spelled.map dot) := by
    rw [hraw]
    refine RawText.reference?_padded before after
      (fun c hc => decide_eq_true (hbefore c hc)) (fun c hc => decide_eq_true (hafter c hc))
      (fun c hc => descriptor.isReferenceChar_of_mem_spelled hc)
      (descriptor.mem_spelled_of_mem_typeNames hname hslash) ?_
      descriptor.hasDoubleDot_map_dot_spelled
    rw [spelled, List.head?_cons]
    decide
  have hparen : (descriptor.spelled.map dot).head? = some '(' := by
    rw [map_dot_spelled, List.head?_cons]
  unfold RawText.imports RawText.types
  rw [hreference]
  simp only [hparen, if_true, names_map_dot_spelled, FieldType.namesFound, List.map_map]
  rfl

/-- A name of one letter is passed over, one that is repeated is found again, and an `L` inside of a
name starts nothing. -/
theorem imports_padded_spelled_labels :
    ∃ descriptor : MethodDescriptor,
      (∃ name ∈ descriptor.typeNames, '/' ∈ name.slashed) ∧
        "\t(ILA;[[Lcom/Label;BLcom/Label;)Lx/LL; ".toList = ['\t'] ++ descriptor.spelled ++ [' '] ∧
        RawText.imports "\t(ILA;[[Lcom/Label;BLcom/Label;)Lx/LL; " =
          ["com.Label", "com.Label", "x.LL"] := by
  let single : TypeName := ⟨["A".toList], by decide, by decide⟩
  let label : TypeName := ⟨["com".toList, "Label".toList], by decide, by decide⟩
  let ell : TypeName := ⟨["x".toList, "LL".toList], by decide, by decide⟩
  let descriptor : MethodDescriptor :=
    { parameters := [.primitive .int, .object single, .array (.array (.object label)),
        .primitive .byte, .object label]
      result := some (.object ell) }
  have hslash : ∃ name ∈ descriptor.typeNames, '/' ∈ name.slashed :=
    ⟨label, List.mem_cons_of_mem _ List.mem_cons_self, Segments.slash_mem_slashed (by decide)⟩
  have hspelled : "\t(ILA;[[Lcom/Label;BLcom/Label;)Lx/LL; ".toList =
      ['\t'] ++ descriptor.spelled ++ [' '] := by decide
  refine ⟨descriptor, hslash, hspelled, ?_⟩
  rw [descriptor.imports_padded_spelled hslash (List.forall_mem_singleton.2 (by decide))
    (List.forall_mem_singleton.2 (by decide)) hspelled]
  decide

end MethodDescriptor

end ClassImports
