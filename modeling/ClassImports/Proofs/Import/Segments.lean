import Mathlib
import ClassImports.Import.ClassName
import ClassImports.Proofs.Import.ObjectType
import ClassImports.Proofs.Import.RawText

/-!
# Names made of segments

The segments of a name stand between slashes or, in its dotted form, between dots. Where segments
are free of both and not empty, nothing is confused: the dotted form is the slashed one with dots
for its slashes (`map_dot_slashed`), it has no two dots in a row (`hasDoubleDot_dotted_append`),
and it ends in `.class` only if its last segment is `class` (`dropEnding_dotted`). All this holds of
segments that are words of ASCII letters and digits (`AreWords`).
-/

namespace ClassImports

namespace Segments

/-- The segments with slashes between them. -/
def slashed (segments : List (List Char)) : List Char :=
  ['/'].intercalate segments

/-- The segments with dots between them. -/
def dotted (segments : List (List Char)) : List Char :=
  ['.'].intercalate segments

theorem mem_of_mem_intercalate {separator c : Char} {segments : List (List Char)}
    (h : c ∈ [separator].intercalate segments) :
    c = separator ∨ ∃ segment ∈ segments, c ∈ segment := by
  induction segments with
  | nil => cases h
  | cons segment rest ih =>
    cases rest with
    | nil =>
      rw [List.intercalate_singleton] at h
      exact .inr ⟨segment, List.mem_cons_self, h⟩
    | cons next rest =>
      rw [List.intercalate_cons_cons, List.mem_append, List.mem_append, List.mem_singleton] at h
      rcases h with (h | h) | h
      · exact .inr ⟨segment, List.mem_cons_self, h⟩
      · exact .inl h
      · rcases ih h with h | ⟨other, hother, hc⟩
        · exact .inl h
        · exact .inr ⟨other, List.mem_cons_of_mem _ hother, hc⟩

theorem mem_of_mem_slashed {segments : List (List Char)} {c : Char} (h : c ∈ slashed segments) :
    c = '/' ∨ ∃ segment ∈ segments, c ∈ segment :=
  mem_of_mem_intercalate h

theorem mem_of_mem_dotted {segments : List (List Char)} {c : Char} (h : c ∈ dotted segments) :
    c = '.' ∨ ∃ segment ∈ segments, c ∈ segment :=
  mem_of_mem_intercalate h

theorem mem_dotted_of_mem {segments : List (List Char)} {segment : List Char}
    (hsegment : segment ∈ segments) {c : Char} (hc : c ∈ segment) : c ∈ dotted segments := by
  unfold dotted
  induction segments with
  | nil => cases hsegment
  | cons first rest ih =>
    cases rest with
    | nil =>
      rw [List.intercalate_singleton]
      rwa [List.mem_singleton.1 hsegment] at hc
    | cons next rest =>
      rw [List.intercalate_cons_cons]
      rcases List.mem_cons.1 hsegment with rfl | hsegment
      · exact List.mem_append_left _ (List.mem_append_left _ hc)
      · exact List.mem_append_right _ (ih hsegment)

theorem slash_mem_slashed {segments : List (List Char)} (h : 2 ≤ segments.length) :
    '/' ∈ slashed segments := by
  match segments, h with
  | first :: second :: rest, _ =>
    unfold slashed
    rw [List.intercalate_cons_cons]
    simp

theorem map_dot_of_notMem {text : List Char} (h : '/' ∉ text) : text.map dot = text := by
  have hsame : text.map dot = text.map id := by
    apply List.map_congr_left
    intro c hc
    exact if_neg fun heq : c = '/' => h (heq ▸ hc)
  rw [hsame, List.map_id]

theorem map_dot_slashed {segments : List (List Char)}
    (h : ∀ segment ∈ segments, '/' ∉ segment) : (slashed segments).map dot = dotted segments := by
  unfold slashed dotted
  induction segments with
  | nil => rfl
  | cons segment rest ih =>
    have hsegment := map_dot_of_notMem (h segment List.mem_cons_self)
    have hrest := ih fun other hother => h other (List.mem_cons_of_mem _ hother)
    cases rest with
    | nil =>
      rw [List.intercalate_singleton, List.intercalate_singleton]
      exact hsegment
    | cons next rest =>
      rw [List.intercalate_cons_cons, List.intercalate_cons_cons, List.map_append,
        List.map_append, hsegment, hrest]
      rfl

/-- A slash is no letter, and neither is a dot. -/
theorem head?_map_dot_any_isAlpha (text : List Char) :
    (text.map dot).head?.any Char.isAlpha = text.head?.any Char.isAlpha := by
  rw [List.head?_map]
  cases text.head? with
  | none => rfl
  | some c =>
    by_cases h : c = '/'
    · subst h
      decide
    · rw [Option.map_some, dot, if_neg h]

/-- The dotted form of a name of at least two segments: all but the last, a dot, and the last. -/
theorem dotted_append_singleton {segments : List (List Char)} (h : segments ≠ [])
    (last : List Char) : dotted (segments ++ [last]) = dotted segments ++ '.' :: last := by
  unfold dotted
  induction segments with
  | nil => exact absurd rfl h
  | cons segment rest ih =>
    cases rest with
    | nil => simp [List.intercalate_cons_cons]
    | cons next rest =>
      have hrest := ih (List.cons_ne_nil next rest)
      rw [List.cons_append, List.cons_append, List.intercalate_cons_cons, ← List.cons_append,
        hrest, List.intercalate_cons_cons]
      simp

end Segments

namespace RawText

/-! ## Dots in a row -/

theorem hasDoubleDot_cons_of_ne {c : Char} (h : c ≠ '.') (rest : List Char) :
    hasDoubleDot (c :: rest) = hasDoubleDot rest := by
  conv_lhs => unfold hasDoubleDot
  split
  · next heq => exact absurd (List.cons_eq_cons.1 heq).1 h
  · next heq => rw [(List.cons_eq_cons.1 heq).2]
  · next heq => cases heq

theorem hasDoubleDot_dot_cons {c : Char} (h : c ≠ '.') (rest : List Char) :
    hasDoubleDot ('.' :: c :: rest) = hasDoubleDot (c :: rest) := by
  conv_lhs => unfold hasDoubleDot
  split
  · next heq => exact absurd (List.cons_eq_cons.1 (List.cons_eq_cons.1 heq).2).1 h
  · next heq => rw [(List.cons_eq_cons.1 heq).2]
  · next heq => cases heq

theorem hasDoubleDot_append_of_notMem {before : List Char} (h : '.' ∉ before)
    (text : List Char) : hasDoubleDot (before ++ text) = hasDoubleDot text := by
  induction before with
  | nil => rfl
  | cons c rest ih =>
    rw [List.mem_cons, not_or] at h
    rw [List.cons_append, hasDoubleDot_cons_of_ne (Ne.symm h.1)]
    exact ih h.2

/-- Between segments that are not empty, no dot follows another. -/
theorem hasDoubleDot_dotted_append {segments : List (List Char)}
    (h : ∀ segment ∈ segments, segment ≠ [] ∧ '.' ∉ segment) (text : List Char) :
    hasDoubleDot (Segments.dotted segments ++ text) = hasDoubleDot text := by
  unfold Segments.dotted
  induction segments with
  | nil => rfl
  | cons segment rest ih =>
    have hsegment := h segment List.mem_cons_self
    have hrest := ih fun other hother => h other (List.mem_cons_of_mem _ hother)
    cases rest with
    | nil =>
      rw [List.intercalate_singleton]
      exact hasDoubleDot_append_of_notMem hsegment.2 text
    | cons next rest =>
      -- what follows the dot is the first character of the next segment, and no dot
      obtain ⟨hne, hdot⟩ := h next (List.mem_cons_of_mem _ List.mem_cons_self)
      obtain ⟨c, more, rfl⟩ := List.exists_cons_of_ne_nil hne
      have hc : c ≠ '.' := fun heq => hdot (heq ▸ List.mem_cons_self)
      have hnext : ∃ tail, ['.'].intercalate ((c :: more) :: rest) ++ text = c :: tail := by
        cases rest with
        | nil => exact ⟨_, by rw [List.intercalate_singleton, List.cons_append]⟩
        | cons _ _ => exact ⟨_, by rw [List.intercalate_cons_cons]; rfl⟩
      obtain ⟨tail, htail⟩ := hnext
      rw [List.intercalate_cons_cons, List.append_assoc, List.append_assoc,
        hasDoubleDot_append_of_notMem hsegment.2, List.singleton_append]
      rw [htail] at hrest ⊢
      rw [hasDoubleDot_dot_cons hc, hrest]

end RawText

namespace Segments

/-! ## Words -/

/-- Whether segments are words of ASCII letters and digits, none of them empty. -/
structure AreWords (segments : List (List Char)) : Prop where
  ne_nil : ∀ segment ∈ segments, segment ≠ []
  isAlphanum : ∀ segment ∈ segments, ∀ c ∈ segment, c.isAlphanum = true

instance (segments : List (List Char)) : Decidable (AreWords segments) :=
  decidable_of_iff
    ((segments.all fun segment => segment ≠ [] && segment.all Char.isAlphanum) = true) <| by
    simp only [List.all_eq_true, Bool.and_eq_true, decide_eq_true_eq, forall_and]
    exact ⟨fun h => ⟨h.1, h.2⟩, fun h => ⟨h.ne_nil, h.isAlphanum⟩⟩

namespace AreWords

variable {segments : List (List Char)} (h : AreWords segments)
include h

theorem notMem_of_mem {segment : List Char} (hsegment : segment ∈ segments) {c : Char}
    (hc : c.isAlphanum = false) : c ∉ segment := by
  intro hmem
  rw [h.isAlphanum segment hsegment c hmem] at hc
  cases hc

theorem mem_slashed {c : Char} (hc : c ∈ slashed segments) : c = '/' ∨ c.isAlphanum = true := by
  rcases mem_of_mem_slashed hc with hc | ⟨segment, hsegment, hc⟩
  · exact .inl hc
  · exact .inr (h.isAlphanum segment hsegment c hc)

theorem map_dot_slashed : (slashed segments).map dot = dotted segments :=
  Segments.map_dot_slashed fun _ hsegment => h.notMem_of_mem hsegment (by decide)

theorem isNameChar_of_mem_dotted {c : Char} (hc : c ∈ dotted segments) :
    ObjectType.isNameChar c = true := by
  rcases mem_of_mem_dotted hc with rfl | ⟨segment, hsegment, hc⟩
  · decide
  · exact ObjectType.isNameChar_of_isAlphanum (h.isAlphanum segment hsegment c hc)

/-- Words that start with a letter spell the name of a token, unless they are that letter. -/
theorem isName_dotted_iff (hhead : (slashed segments).head?.any Char.isAlpha = true) :
    ObjectType.isName (dotted segments) = true ↔ 2 ≤ (slashed segments).length := by
  rw [ObjectType.isName_iff_of_forall fun c hc => h.isNameChar_of_mem_dotted hc,
    ← h.map_dot_slashed, head?_map_dot_any_isAlpha, List.length_map]
  exact and_iff_right hhead

theorem isReferenceChar_of_mem_slashed {c : Char} (hc : c ∈ slashed segments) :
    RawText.isReferenceChar c = true := by
  rcases h.mem_slashed hc with rfl | halphanum
  · decide
  · exact RawText.isReferenceChar_of_isAlphanum halphanum

theorem hasDoubleDot_dotted_append (text : List Char) :
    RawText.hasDoubleDot (dotted segments ++ text) = RawText.hasDoubleDot text :=
  RawText.hasDoubleDot_dotted_append
    (fun segment hsegment => ⟨h.ne_nil segment hsegment, h.notMem_of_mem hsegment (by decide)⟩) text

end AreWords

end Segments

namespace ClassName

/-! ## The ending of a name -/

theorem dropEnding_of_not_isSuffix {text : List Char} (h : ¬ ending <:+ text) :
    dropEnding text = text :=
  if_neg fun hsuffix => h (List.isSuffixOf_iff_suffix.1 hsuffix)

/-- A text that ends in a semicolon, as the descriptor of an array does, has another ending. -/
theorem dropEnding_append_semicolon (text : List Char) :
    dropEnding (text ++ [';']) = text ++ [';'] := by
  apply dropEnding_of_not_isSuffix
  rintro ⟨before, hbefore⟩
  have hlast := congrArg List.getLast? hbefore
  rw [List.getLast?_concat, List.getLast?_append,
    show ending.getLast? = some 's' from rfl] at hlast
  exact absurd (Option.some_inj.1 hlast) (by decide)

/-- The last segment of a name is what follows its last dot. -/
theorem takeWhile_reverse_append {last : List Char} (h : '.' ∉ last) (before : List Char) :
    (before ++ '.' :: last).reverse.takeWhile (· ≠ '.') = last.reverse := by
  have hlast : ∀ c ∈ last.reverse, decide (c ≠ '.') = true := by
    intro c hc
    exact decide_eq_true fun heq => h (heq ▸ List.mem_reverse.1 hc)
  rw [List.reverse_append, List.reverse_cons, List.append_assoc,
    List.takeWhile_append_of_pos hlast]
  simp

/-- A name of at least two segments ends in `.class` only if its last segment is `class`. -/
theorem dropEnding_dotted {segments : List (List Char)} (hlength : 2 ≤ segments.length)
    (hdot : ∀ segment ∈ segments, '.' ∉ segment)
    (hlast : segments.getLast? ≠ some ['c', 'l', 'a', 's', 's']) :
    dropEnding (Segments.dotted segments) = Segments.dotted segments := by
  have hne : segments ≠ [] := by
    rintro rfl
    cases hlength
  have hinit : segments.dropLast ≠ [] := by
    intro hnil
    have hdrop : segments.dropLast.length = segments.length - 1 := List.length_dropLast
    rw [hnil, List.length_nil] at hdrop
    omega
  apply dropEnding_of_not_isSuffix
  rintro ⟨before, hbefore⟩
  rw [← List.dropLast_append_getLast hne, Segments.dotted_append_singleton hinit] at hbefore
  have hreversed := takeWhile_reverse_append (hdot _ (List.getLast_mem hne))
    (Segments.dotted segments.dropLast)
  rw [← hbefore, show ending = '.' :: ['c', 'l', 'a', 's', 's'] from rfl,
    takeWhile_reverse_append (by decide) before, List.reverse_inj] at hreversed
  rw [List.getLast?_eq_some_getLast hne, ← hreversed] at hlast
  exact hlast rfl

end ClassName

end ClassImports
