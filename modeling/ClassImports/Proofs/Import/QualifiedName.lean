import Mathlib
import ClassImports.Proofs.Import.InternalName

/-!
# Qualified names in both scans

A qualified name, and the descriptor of an array of such a type, stand for the same import whether
they are read as the name of a class constant or as a text constant: the dotted form of the name
(`import?_slashed` and `imports_slashed`, `import?_inArray` and `imports_inArray`).
-/

namespace ClassImports

/-- The name of a type in a package: segments of ASCII letters and digits, at least two of them.
The name starts with a letter, and its last segment is not `class`, which as the ending of a name
would not count. -/
structure QualifiedName where
  segments : List (List Char)
  two_le_length : 2 ≤ segments.length
  ne_nil : ∀ segment ∈ segments, segment ≠ []
  isAlphanum : ∀ segment ∈ segments, ∀ c ∈ segment, c.isAlphanum = true
  isAlpha_head : ∀ c ∈ (Segments.slashed segments).head?, c.isAlpha = true
  getLast?_ne : segments.getLast? ≠ some ['c', 'l', 'a', 's', 's']

namespace QualifiedName

/-- The name with slashes between its segments, as class files write it. -/
def slashed (name : QualifiedName) : List Char :=
  Segments.slashed name.segments

/-- The name with dots between its segments. -/
def dotted (name : QualifiedName) : List Char :=
  Segments.dotted name.segments

/-- The descriptor of the type, or of an array of that many dimensions of it. -/
def inArray (dimensions : Nat) (name : QualifiedName) : List Char :=
  List.replicate dimensions '[' ++ 'L' :: (name.slashed ++ [';'])

variable (name : QualifiedName)

theorem words : Segments.AreWords name.segments :=
  ⟨name.ne_nil, name.isAlphanum⟩

/-- The name as one of which no more is known than that its segments are free of punctuation. -/
def internal : InternalName where
  segments := name.segments
  two_le_length := name.two_le_length
  ne_nil := name.ne_nil
  notMem := fun _ hsegment =>
    ⟨name.words.notMem_of_mem hsegment (by decide), name.words.notMem_of_mem hsegment (by decide),
      name.words.notMem_of_mem hsegment (by decide), name.words.notMem_of_mem hsegment (by decide)⟩
  getLast?_ne := name.getLast?_ne

theorem slash_mem_slashed : '/' ∈ name.slashed :=
  name.internal.slash_mem_slashed

theorem map_dot_slashed : name.slashed.map dot = name.dotted :=
  name.internal.map_dot_slashed

theorem map_dot_inArray (dimensions : Nat) :
    (name.inArray dimensions).map dot =
      List.replicate dimensions '[' ++ 'L' :: (name.dotted ++ [';']) :=
  name.internal.map_dot_inArray dimensions

/-! ## Object types -/

theorem names_dotted : ObjectType.names name.dotted = [] :=
  name.internal.names_dotted

theorem isName_dotted : ObjectType.isName name.dotted = true := by
  refine name.internal.isName_dotted_iff.2 ⟨name.words, ?_⟩
  have hslash := name.slash_mem_slashed
  have hhead := name.isAlpha_head
  change ∀ c ∈ name.slashed.head?, c.isAlpha = true at hhead
  change name.slashed.head?.any Char.isAlpha = true
  cases hslashed : name.slashed with
  | nil =>
    rw [hslashed] at hslash
    cases hslash
  | cons first rest =>
    rw [hslashed] at hhead
    exact hhead first rfl

/-- The name is found as a whole in the descriptor of an array. -/
theorem nameAtEnd?_dotted : ObjectType.nameAtEnd? ('L' :: name.dotted) = some name.dotted :=
  ObjectType.nameAtEnd?_cons_eq_some_iff.2 name.isName_dotted

theorem names_map_dot_inArray (dimensions : Nat) :
    ObjectType.names ((name.inArray dimensions).map dot) = [name.dotted] := by
  have hnames := name.internal.names_map_dot_inArray dimensions
  change _ = (ObjectType.nameAtEnd? ('L' :: name.dotted)).toList at hnames
  rw [nameAtEnd?_dotted] at hnames
  exact hnames

/-! ## As the name of a class constant -/

theorem import?_slashed {text : String} (h : text.toList = name.slashed) :
    ClassName.import? text = some (String.ofList name.dotted) :=
  name.internal.import?_slashed h

theorem import?_inArray {text : String} {dimensions : Nat}
    (h : text.toList = name.inArray dimensions) :
    ClassName.import? text = some (String.ofList name.dotted) := by
  have himport := name.internal.import?_inArray h
  change _ = some (String.ofList ((ObjectType.nameAtEnd? ('L' :: name.dotted)).getD _)) at himport
  rw [nameAtEnd?_dotted] at himport
  exact himport

/-! ## As a text constant -/

theorem hasDoubleDot_dotted_append (text : List Char) :
    RawText.hasDoubleDot (name.dotted ++ text) = RawText.hasDoubleDot text :=
  name.words.hasDoubleDot_dotted_append text

theorem reference?_slashed : RawText.reference? name.slashed = some name.dotted := by
  rw [← map_dot_slashed]
  apply RawText.reference?_eq_some
  · exact fun c hc => name.words.isReferenceChar_of_mem_slashed hc
  · exact name.slash_mem_slashed
  · intro hhead
    exact absurd (name.isAlpha_head '/' hhead) (by decide)
  · rw [map_dot_slashed, ← List.append_nil name.dotted, hasDoubleDot_dotted_append]
    rfl

theorem reference?_inArray (dimensions : Nat) :
    RawText.reference? (name.inArray dimensions) = some ((name.inArray dimensions).map dot) := by
  have hbefore : '.' ∉ List.replicate dimensions '[' := by
    intro hmem
    exact absurd (List.eq_of_mem_replicate hmem) (by decide)
  apply RawText.reference?_eq_some
  · intro c hc
    unfold inArray at hc
    rw [List.mem_append, List.mem_cons, List.mem_append, List.mem_singleton] at hc
    rcases hc with hc | rfl | hc | rfl
    · rw [List.eq_of_mem_replicate hc]
      decide
    · decide
    · exact name.words.isReferenceChar_of_mem_slashed hc
    · decide
  · unfold inArray
    simp [name.slash_mem_slashed]
  · unfold inArray
    cases dimensions <;> simp [List.replicate_succ]
  · rw [map_dot_inArray, RawText.hasDoubleDot_append_of_notMem hbefore,
      RawText.hasDoubleDot_cons_of_ne (by decide), hasDoubleDot_dotted_append]
    rfl

theorem imports_slashed {text : String} (h : text.toList = name.slashed) :
    RawText.imports text = [String.ofList name.dotted] := by
  have hhead : name.dotted.head? ≠ some '(' := by
    intro hparen
    obtain ⟨rest, hdotted⟩ := List.head?_eq_some_iff.1 hparen
    have hname := name.isName_dotted
    rw [hdotted, ObjectType.isName_cons_iff] at hname
    exact absurd hname.1 (by decide)
  unfold RawText.imports RawText.types
  rw [h, reference?_slashed]
  simp only [hhead, if_false, names_dotted, List.map_cons, List.map_nil]

theorem imports_inArray {text : String} {dimensions : Nat}
    (h : text.toList = name.inArray dimensions) :
    RawText.imports text = [String.ofList name.dotted] := by
  have hhead : ((name.inArray dimensions).map dot).head? ≠ some '(' := by
    rw [map_dot_inArray]
    cases dimensions <;> simp [List.replicate_succ]
  unfold RawText.imports RawText.types
  rw [h, reference?_inArray]
  simp only [hhead, if_false, names_map_dot_inArray, List.map_cons, List.map_nil]

end QualifiedName

end ClassImports
