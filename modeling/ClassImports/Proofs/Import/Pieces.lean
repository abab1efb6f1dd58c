import Mathlib
import ClassImports.Proofs.Import.ObjectType

/-!
# The search for tokens, piece by piece

The search goes through a text from each `L` on, forward over a name and on to its semicolon, and
back again where there is none. The same names are found without any going back: cut the text
behind its semicolons, take from the end of each piece all the characters that names have, and look
for the first `L` in them that a name can follow (`names_eq_filterMap_pieces`).
-/

namespace ClassImports.ObjectType

/-- The pieces of the text that end in a semicolon, each without it. -/
def pieces (text : List Char) : List (List Char) :=
  (text.splitOn ';').dropLast

/-- What follows the first `L` that comes before a letter and at least one more character. -/
def behindL? : List Char → Option (List Char)
  | [] => none
  | c :: rest =>
    if c = 'L' ∧ rest.head?.any Char.isAlpha = true ∧ 2 ≤ rest.length then some rest
    else behindL? rest

/-- The name in a piece, looked for in the longest ending of it that has only letters, digits and
dots. -/
def nameOfPiece? (piece : List Char) : Option (List Char) :=
  behindL? (piece.rtakeWhile isNameChar)

/-! ## Pieces -/

theorem pieces_append_semicolon {piece : List Char} (h : ';' ∉ piece) (rest : List Char) :
    pieces (piece ++ ';' :: rest) = piece :: pieces rest := by
  unfold pieces
  rw [List.splitOn_append_cons_self_of_not_mem h,
    List.dropLast_cons_of_ne_nil (List.splitOn_ne_nil ';' rest)]

theorem pieces_eq_nil_of_notMem {text : List Char} (h : ';' ∉ text) : pieces text = [] := by
  unfold pieces
  rw [List.splitOn_eq_singleton h]
  rfl

/-! ## The ending of a piece -/

/-- Where not all of a text is taken from its end, the first character is not. -/
theorem rtakeWhile_cons_of_not {p : Char → Bool} {c : Char} {rest : List Char}
    (h : ¬ ∀ d ∈ c :: rest, p d = true) : (c :: rest).rtakeWhile p = rest.rtakeWhile p := by
  unfold List.rtakeWhile
  rw [List.reverse_cons, List.takeWhile_append]
  split
  · next hlength =>
    have htake := (List.takeWhile_prefix p).eq_of_length hlength
    have hrest : ∀ d ∈ rest, p d = true := by
      intro d hd
      exact List.takeWhile_eq_self_iff.1 htake d (List.mem_reverse.2 hd)
    have hc : ¬ p c = true := fun hc => h (List.forall_mem_cons.2 ⟨hc, hrest⟩)
    rw [List.takeWhile_cons_of_neg hc, List.append_nil, htake]
  · rfl

/-- The name that ends with a piece is the one that the ending of the piece holds. -/
theorem nameAtEnd?_eq_nameOfPiece? (piece : List Char) : nameAtEnd? piece = nameOfPiece? piece := by
  unfold nameOfPiece?
  induction piece with
  | nil => rfl
  | cons c rest ih =>
    by_cases hrest : ∀ d ∈ rest, isNameChar d = true
    · by_cases hc : isNameChar c = true
      · have hall := List.rtakeWhile_eq_self_iff.2 (List.forall_mem_cons.2 ⟨hc, hrest⟩)
        rw [List.rtakeWhile_eq_self_iff.2 hrest] at ih
        rw [hall, nameAtEnd?, behindL?, ih]
        simp only [isName_iff_of_forall hrest]
      · have hL : c ≠ 'L' := by
          rintro rfl
          exact hc (by decide)
        rw [rtakeWhile_cons_of_not fun hall => hc (hall c List.mem_cons_self), ← ih, nameAtEnd?,
          if_neg fun hstart => hL hstart.1]
    · rw [rtakeWhile_cons_of_not fun hall => hrest (List.forall_mem_cons.1 hall).2, ← ih,
        nameAtEnd?, if_neg fun hstart => hrest (forall_isNameChar_of_isName hstart.2)]

/-- **The names are found piece by piece**: of every piece of the text that ends in a semicolon, the
longest ending of letters, digits and dots, and in it what follows the first `L` that comes before a
letter and at least one more character. A piece has one name at most, and what follows the last
semicolon has none. -/
theorem names_eq_filterMap_pieces (text : List Char) :
    names text = (pieces text).filterMap nameOfPiece? := by
  by_cases h : ';' ∈ text
  · obtain ⟨piece, rest, hsplit, hpiece⟩ := List.eq_append_cons_of_mem h
    have hshorter : rest.length < text.length := by
      rw [hsplit, List.length_append, List.length_cons]
      omega
    rw [hsplit, names_append_semicolon hpiece, pieces_append_semicolon hpiece,
      List.filterMap_cons, nameAtEnd?_eq_nameOfPiece?, names_eq_filterMap_pieces rest]
    cases nameOfPiece? piece <;> rfl
  · rw [names_eq_nil_of_notMem h, pieces_eq_nil_of_notMem h]
    rfl
termination_by text.length

end ClassImports.ObjectType
