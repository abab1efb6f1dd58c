import Mathlib
import ClassImports.Proofs.Import.Segments

/-!
# Internal names in class constants

An internal name may hold any character but the four that separate names or are punctuation of
descriptors. As the name of a class constant it stands for its dotted form, whatever its characters
are. In the descriptor of an array the same name is looked for as an object type, and such a type is
spelled with ASCII letters and digits only: an array of any other type stands for its descriptor
with dots, or for what follows an `L` in the name (`import?_inArray_eq_iff`).
-/

namespace ClassImports

/-- The name of a type in a package: at least two segments. The last one is not `class`, which as the
ending of a name would not count. -/
structure InternalName where
  segments : List (List Char)
  two_le_length : 2 ≤ segments.length
  ne_nil : ∀ segment ∈ segments, segment ≠ []
  notMem : ∀ segment ∈ segments, '.' ∉ segment ∧ ';' ∉ segment ∧ '[' ∉ segment ∧ '/' ∉ segment
  getLast?_ne : segments.getLast? ≠ some ['c', 'l', 'a', 's', 's']

namespace InternalName

/-- The name with slashes between its segments, as class files write it. -/
def slashed (name : InternalName) : List Char :=
  Segments.slashed name.segments

/-- The name with dots between its segments. -/
def dotted (name : InternalName) : List Char :=
  Segments.dotted name.segments

/-- The descriptor of the type, or of an array of that many dimensions of it. -/
def inArray (dimensions : Nat) (name : InternalName) : List Char :=
  List.replicate dimensions '[' ++ 'L' :: (name.slashed ++ [';'])

variable (name : InternalName)

theorem slash_mem_slashed : '/' ∈ name.slashed :=
  Segments.slash_mem_slashed name.two_le_length

theorem map_dot_slashed : name.slashed.map dot = name.dotted :=
  Segments.map_dot_slashed fun segment hsegment => (name.notMem segment hsegment).2.2.2

theorem map_dot_inArray (dimensions : Nat) :
    (name.inArray dimensions).map dot =
      List.replicate dimensions '[' ++ 'L' :: (name.dotted ++ [';']) := by
  unfold inArray
  rw [List.map_append, List.map_replicate, List.map_cons, List.map_append, map_dot_slashed]
  rfl

theorem semicolon_notMem_dotted : ';' ∉ name.dotted := by
  intro hmem
  rcases Segments.mem_of_mem_dotted hmem with h | ⟨segment, hsegment, h⟩
  · exact absurd h (by decide)
  · exact (name.notMem segment hsegment).2.1 h

/-! ## Object types -/

theorem names_dotted : ObjectType.names name.dotted = [] :=
  ObjectType.names_eq_nil_of_notMem name.semicolon_notMem_dotted

/-- One object type at most is found in the descriptor of an array. -/
theorem names_map_dot_inArray (dimensions : Nat) :
    ObjectType.names ((name.inArray dimensions).map dot) =
      (ObjectType.nameAtEnd? ('L' :: name.dotted)).toList := by
  have hbefore : 'L' ∉ List.replicate dimensions '[' := by
    intro hmem
    exact absurd (List.eq_of_mem_replicate hmem) (by decide)
  have hsemicolon : ';' ∉ 'L' :: name.dotted := by
    rw [List.mem_cons, not_or]
    exact ⟨by decide, name.semicolon_notMem_dotted⟩
  rw [map_dot_inArray, ObjectType.names_append_of_notMem hbefore, ← List.cons_append,
    ObjectType.names_append_semicolon hsemicolon, ObjectType.names_nil, List.append_nil]

/-- The name of a token is a name whose segments are words, the first of which starts with a
letter. -/
theorem isName_dotted_iff :
    ObjectType.isName name.dotted = true ↔
      Segments.AreWords name.segments ∧ name.slashed.head?.any Char.isAlpha = true := by
  have hslash := name.slash_mem_slashed
  constructor
  · intro h
    have hall := ObjectType.forall_isNameChar_of_isName h
    obtain ⟨hhead, -⟩ := (ObjectType.isName_iff_of_forall hall).1 h
    rw [← map_dot_slashed, Segments.head?_map_dot_any_isAlpha] at hhead
    refine ⟨⟨name.ne_nil, fun segment hsegment c hc => ?_⟩, hhead⟩
    have hname := hall c (Segments.mem_dotted_of_mem hsegment hc)
    rw [ObjectType.isNameChar, Bool.or_eq_true, beq_iff_eq] at hname
    refine hname.resolve_right ?_
    rintro rfl
    exact (name.notMem segment hsegment).1 hc
  · rintro ⟨hwords, hhead⟩
    refine (hwords.isName_dotted_iff hhead).2 ?_
    change 2 ≤ name.slashed.length
    cases hslashed : name.slashed with
    | nil =>
      rw [hslashed] at hhead
      cases hhead
    | cons first rest =>
      rw [hslashed] at hslash hhead
      have hfirst : first.isAlpha = true := hhead
      -- the first slash of the name comes after its first letter
      have hrest : '/' ∈ rest := by
        rcases List.mem_cons.1 hslash with rfl | hrest
        · exact absurd hfirst (by decide)
        · exact hrest
      rw [List.length_cons]
      exact Nat.succ_le_succ (List.length_pos_of_mem hrest)

/-! ## As the name of a class constant -/

theorem import?_slashed {text : String} (h : text.toList = name.slashed) :
    ClassName.import? text = some (String.ofList name.dotted) := by
  have hending : ClassName.dropEnding name.dotted = name.dotted :=
    ClassName.dropEnding_dotted name.two_le_length
      (fun segment hsegment => (name.notMem segment hsegment).1) name.getLast?_ne
  unfold ClassName.import? ClassName.unwrap
  rw [h, if_pos name.slash_mem_slashed, map_dot_slashed, hending, names_dotted]
  rfl

theorem import?_inArray {text : String} {dimensions : Nat}
    (h : text.toList = name.inArray dimensions) :
    ClassName.import? text =
      some (String.ofList ((ObjectType.nameAtEnd? ('L' :: name.dotted)).getD
        ((name.inArray dimensions).map dot))) := by
  have hslash : '/' ∈ name.inArray dimensions := by
    unfold inArray
    simp [name.slash_mem_slashed]
  have hending : ClassName.dropEnding ((name.inArray dimensions).map dot) =
      (name.inArray dimensions).map dot := by
    rw [map_dot_inArray, ← List.cons_append, ← List.append_assoc]
    exact ClassName.dropEnding_append_semicolon _
  unfold ClassName.import? ClassName.unwrap
  rw [h, if_pos hslash, hending, names_map_dot_inArray, Option.head?_toList]

/-- **Arrays of types in packages.** An internal name stands for its dotted form. The descriptor of
an array of the type stands for the object type that is found in it, or else for the descriptor with
dots; it stands for the same as the name exactly if all segments are words of ASCII letters and
digits, and the first character is a letter. -/
theorem import?_inArray_eq_iff (dimensions : Nat) :
    ClassName.import? (String.ofList name.slashed) = some (String.ofList name.dotted) ∧
      ClassName.import? (String.ofList (name.inArray dimensions)) =
        some (String.ofList ((ObjectType.nameAtEnd? ('L' :: name.dotted)).getD
          ((name.inArray dimensions).map dot))) ∧
      (ClassName.import? (String.ofList (name.inArray dimensions)) =
          some (String.ofList name.dotted) ↔
        Segments.AreWords name.segments ∧ name.slashed.head?.any Char.isAlpha = true) := by
  have hinArray := name.import?_inArray (String.toList_ofList (l := name.inArray dimensions))
  refine ⟨name.import?_slashed String.toList_ofList, hinArray, ?_⟩
  rw [hinArray, Option.some_inj, String.ofList_inj, ← isName_dotted_iff,
    ← ObjectType.nameAtEnd?_cons_eq_some_iff]
  cases hfound : ObjectType.nameAtEnd? ('L' :: name.dotted) with
  | some found => rw [Option.getD_some, Option.some_inj]
  | none =>
    -- the descriptor is longer than the name in it
    refine iff_of_false (fun heq => ?_) (by simp)
    have hlength := congrArg List.length heq
    rw [Option.getD_none, map_dot_inArray, List.length_append, List.length_cons,
      List.length_append, List.length_singleton] at hlength
    omega

/-- The name of an inner type, `com/example/Outer$Inner`. -/
def inner : InternalName where
  segments := ["com".toList, "example".toList, "Outer$Inner".toList]
  two_le_length := by decide
  ne_nil := by decide
  notMem := by decide
  getLast?_ne := by decide

/-- An inner type is an import by its name, but an array of it leaves the descriptor. -/
theorem import?_inArray_eq_iff_inner :
    ClassName.import? "com/example/Outer$Inner" = some "com.example.Outer$Inner" ∧
      ClassName.import? "[Lcom/example/Outer$Inner;" = some "[Lcom.example.Outer$Inner;" := by
  obtain ⟨hname, harray, -⟩ := inner.import?_inArray_eq_iff 1
  exact ⟨hname, harray⟩

end InternalName

end ClassImports
