import Mathlib
import ClassImports.Import.ObjectType

/-!
# Where tokens are found

A token ends with a semicolon and starts with `L`: a text without a semicolon holds none
(`names_eq_nil_of_notMem`), and a text without `L` in front of another one adds none
(`names_append_of_notMem`). A name between `L` and a semicolon is found as a whole
(`token?_of_name`). So a text that goes up to a semicolon holds one token at most, whose name is
what follows some `L` in it up to the semicolon (`nameAtEnd?`), and after it the search goes on as
if nothing had come before (`names_append_semicolon`). What is found is a name
(`isName_of_mem_names`).
-/

namespace ClassImports.ObjectType

theorem isNameChar_of_isAlphanum {c : Char} (h : c.isAlphanum = true) : isNameChar c = true := by
  unfold isNameChar
  rw [h, Bool.true_or]

theorem token?_cons_of_ne {c : Char} (h : c ≠ 'L') (rest : List Char) :
    token? (c :: rest) = none := by
  unfold token?
  split
  · next heq => exact absurd (List.cons_eq_cons.1 heq).1 h
  · rfl

theorem token?_eq_none_of_notMem {text : List Char} (h : ';' ∉ text) : token? text = none := by
  unfold token?
  split
  · next first rest =>
    split
    · split
      · next after hrest =>
        -- the semicolon that ends the token is left after the name, so it stands in the text
        have hafter : ';' ∈ rest.dropWhile isNameChar := by simp [hrest]
        have hmem : ';' ∈ rest := (List.dropWhile_sublist _).subset hafter
        exact absurd (List.mem_cons_of_mem _ (List.mem_cons_of_mem _ hmem)) h
      · rfl
    · rfl
  · rfl

theorem names_eq_nil_of_notMem {text : List Char} (h : ';' ∉ text) : names text = [] := by
  induction text with
  | nil => exact names_nil
  | cons c rest ih =>
    rw [names_of_no_token (token?_eq_none_of_notMem h)]
    exact ih fun hmem => h (List.mem_cons_of_mem _ hmem)

theorem names_append_of_notMem {before : List Char} (h : 'L' ∉ before) (text : List Char) :
    names (before ++ text) = names text := by
  induction before with
  | nil => rfl
  | cons c rest ih =>
    rw [List.mem_cons, not_or] at h
    rw [List.cons_append, names_of_no_token (token?_cons_of_ne (Ne.symm h.1) _)]
    exact ih h.2

theorem token?_of_name {first : Char} {rest : List Char} (hfirst : first.isAlpha = true)
    (hne : rest ≠ []) (hrest : ∀ c ∈ rest, isNameChar c = true) (after : List Char) :
    token? ('L' :: first :: (rest ++ ';' :: after)) = some (first :: rest, after) := by
  have hsemicolon : isNameChar ';' = false := by decide
  have htake : (rest ++ ';' :: after).takeWhile isNameChar = rest := by
    rw [List.takeWhile_append_of_pos hrest, List.takeWhile_cons_of_neg (by simp [hsemicolon]),
      List.append_nil]
  have hdrop : (rest ++ ';' :: after).dropWhile isNameChar = ';' :: after := by
    rw [List.dropWhile_append_of_pos hrest, List.dropWhile_cons_of_neg (by simp [hsemicolon])]
  have hhead : (rest ++ ';' :: after).head?.any isNameChar = true := by
    obtain ⟨c, more, rfl⟩ := List.exists_cons_of_ne_nil hne
    exact hrest c List.mem_cons_self
  unfold token?
  simp only [hfirst, hhead, Bool.and_self, if_true, hdrop, htake]

/-! ## Up to a semicolon -/

/-- Whether a text is the name of a token: a letter, and at least one more character of names. -/
def isName : List Char → Bool
  | [] => false
  | first :: rest => first.isAlpha && !rest.isEmpty && rest.all isNameChar

/-- The name of the token that ends with a semicolon right after the text: what follows the first
`L` of the text after which the rest of it is a name. -/
def nameAtEnd? : List Char → Option (List Char)
  | [] => none
  | c :: rest => if c = 'L' ∧ isName rest = true then some rest else nameAtEnd? rest

theorem isName_cons_iff {first : Char} {rest : List Char} :
    isName (first :: rest) = true ↔
      first.isAlpha = true ∧ rest ≠ [] ∧ ∀ c ∈ rest, isNameChar c = true := by
  simp [isName, and_assoc]

theorem isNameChar_of_isAlpha {c : Char} (h : c.isAlpha = true) : isNameChar c = true := by
  apply isNameChar_of_isAlphanum
  simp [Char.isAlphanum, h]

theorem forall_isNameChar_of_isName {name : List Char} (h : isName name = true) :
    ∀ c ∈ name, isNameChar c = true := by
  cases name with
  | nil => exact List.forall_mem_nil _
  | cons first rest =>
    obtain ⟨hfirst, -, hrest⟩ := isName_cons_iff.1 h
    exact List.forall_mem_cons.2 ⟨isNameChar_of_isAlpha hfirst, hrest⟩

/-- Of characters that names have, a letter and at least one more are a name. -/
theorem isName_iff_of_forall {text : List Char} (h : ∀ c ∈ text, isNameChar c = true) :
    isName text = true ↔ text.head?.any Char.isAlpha = true ∧ 2 ≤ text.length := by
  cases text with
  | nil => simp [isName]
  | cons first rest =>
    have hrest := (List.forall_mem_cons.1 h).2
    rw [isName_cons_iff, List.head?_cons, Option.any_some, List.length_cons, Nat.succ_le_succ_iff,
      Nat.one_le_iff_ne_zero, ne_eq, ne_eq, List.length_eq_zero_iff]
    exact ⟨fun hname => ⟨hname.1, hname.2.1⟩, fun hstart => ⟨hstart.1, hstart.2, hrest⟩⟩

theorem semicolon_notMem_of_isName {name : List Char} (h : isName name = true) : ';' ∉ name := by
  cases name with
  | nil => exact List.not_mem_nil
  | cons first rest =>
    obtain ⟨hfirst, -, hrest⟩ := isName_cons_iff.1 h
    intro hmem
    rcases List.mem_cons.1 hmem with rfl | hmem
    · exact absurd hfirst (by decide)
    · exact absurd (hrest _ hmem) (by decide)

theorem length_lt_of_nameAtEnd? {text name : List Char} (h : nameAtEnd? text = some name) :
    name.length < text.length := by
  induction text with
  | nil => cases h
  | cons c rest ih =>
    rw [nameAtEnd?] at h
    split at h
    · cases h
      exact Nat.lt_succ_self _
    · exact Nat.lt_succ_of_lt (ih h)

/-- Behind its first `L` the text is found as a whole only if it is a name. -/
theorem nameAtEnd?_cons_eq_some_iff {text : List Char} :
    nameAtEnd? ('L' :: text) = some text ↔ isName text = true := by
  rw [nameAtEnd?]
  constructor
  · intro h
    by_contra hname
    rw [if_neg fun hstart => hname hstart.2] at h
    exact absurd (length_lt_of_nameAtEnd? h) (Nat.lt_irrefl _)
  · intro h
    rw [if_pos ⟨rfl, h⟩]

/-- What it is to start with a token. -/
theorem token?_eq_some_iff {text name after : List Char} :
    token? text = some (name, after) ↔
      text = 'L' :: (name ++ ';' :: after) ∧ isName name = true := by
  constructor
  · intro h
    unfold token? at h
    split at h
    · next first rest =>
      split at h
      · next hstart =>
        rw [Bool.and_eq_true] at hstart
        split at h
        · next hdrop =>
          cases h
          have hsplit := List.takeWhile_append_dropWhile (p := isNameChar) (l := rest)
          rw [hdrop] at hsplit
          refine ⟨by rw [List.cons_append, hsplit], isName_cons_iff.2 ⟨hstart.1, ?_, ?_⟩⟩
          · cases rest with
            | nil => cases hdrop
            | cons c rest =>
              have hc : isNameChar c = true := hstart.2
              rw [List.takeWhile_cons_of_pos hc]
              exact List.cons_ne_nil _ _
          · exact fun c hc => List.mem_takeWhile_imp hc
        · cases h
      · cases h
    · cases h
  · rintro ⟨rfl, hname⟩
    cases name with
    | nil => cases hname
    | cons first rest =>
      obtain ⟨hfirst, hne, hrest⟩ := isName_cons_iff.1 hname
      exact token?_of_name hfirst hne hrest after

/-- A name that is found is one, and stands in the text between an `L` and a semicolon. -/
theorem isName_of_mem_names :
    ∀ {text name : List Char}, name ∈ names text →
      isName name = true ∧ ∃ before after, text = before ++ 'L' :: (name ++ ';' :: after)
  | [], name, h => by
    rw [names_nil] at h
    cases h
  | c :: rest, name, h => by
    cases htoken : token? (c :: rest) with
    | none =>
      rw [names_of_no_token htoken] at h
      obtain ⟨hname, before, after, hsplit⟩ := isName_of_mem_names h
      exact ⟨hname, c :: before, after, by rw [List.cons_append, ← hsplit]⟩
    | some found =>
      obtain ⟨first, behind⟩ := found
      have hshorter : behind.length ≤ rest.length := Nat.le_of_lt_succ (length_of_token? htoken)
      obtain ⟨hspelled, hfirst⟩ := token?_eq_some_iff.1 htoken
      rw [names_of_token htoken, List.mem_cons] at h
      rcases h with rfl | h
      · exact ⟨hfirst, [], behind, hspelled⟩
      · obtain ⟨hname, before, after, rfl⟩ := isName_of_mem_names h
        exact ⟨hname, 'L' :: (first ++ ';' :: before), after, by rw [hspelled]; simp⟩
termination_by text => text.length

/-- A token anywhere in the text keeps the search from finding nothing. -/
theorem names_ne_nil_of_token {name : List Char} (hname : isName name = true)
    (before after : List Char) : names (before ++ 'L' :: (name ++ ';' :: after)) ≠ [] := by
  induction before with
  | nil =>
    rw [List.nil_append, names_of_token (token?_eq_some_iff.2 ⟨rfl, hname⟩)]
    exact List.cons_ne_nil _ _
  | cons c before ih =>
    rw [List.cons_append]
    cases htoken : token? (c :: (before ++ 'L' :: (name ++ ';' :: after))) with
    | none => rwa [names_of_no_token htoken]
    | some found =>
      rw [names_of_token htoken]
      exact List.cons_ne_nil _ _

theorem takeWhile_append_semicolon {text : List Char} (h : ';' ∉ text) (after : List Char) :
    (text ++ ';' :: after).takeWhile (· ≠ ';') = text := by
  have hbefore : ∀ c ∈ text, decide (c ≠ ';') = true :=
    fun c hc => decide_eq_true fun heq => h (heq ▸ hc)
  rw [List.takeWhile_append_of_pos hbefore, List.takeWhile_cons_of_neg (by simp), List.append_nil]

/-- **One token at most up to a semicolon**, and the search goes on behind it. -/
theorem names_append_semicolon {text : List Char} (h : ';' ∉ text) (after : List Char) :
    names (text ++ ';' :: after) = (nameAtEnd? text).toList ++ names after := by
  induction text with
  | nil => exact names_of_no_token (token?_cons_of_ne (by decide) after)
  | cons c rest ih =>
    rw [List.mem_cons, not_or] at h
    rw [List.cons_append, nameAtEnd?]
    by_cases hname : c = 'L' ∧ isName rest = true
    · rw [if_pos hname]
      exact names_of_token (token?_eq_some_iff.2 ⟨by rw [hname.1], hname.2⟩)
    · have hnone : token? (c :: (rest ++ ';' :: after)) = none := by
        rw [Option.eq_none_iff_forall_ne_some]
        rintro ⟨name, tail⟩ htoken
        obtain ⟨hspelled, hisName⟩ := token?_eq_some_iff.1 htoken
        obtain ⟨rfl, hsplit⟩ := List.cons_eq_cons.1 hspelled
        -- the token ends with the first semicolon, so its name is all of the rest
        have hrest := congrArg (List.takeWhile (· ≠ ';')) hsplit
        rw [takeWhile_append_semicolon h.2,
          takeWhile_append_semicolon (semicolon_notMem_of_isName hisName)] at hrest
        exact hname ⟨rfl, hrest ▸ hisName⟩
      rw [if_neg hname, names_of_no_token hnone]
      exact ih h.2

end ClassImports.ObjectType
