/-!
# Object types in descriptors

A descriptor writes a type that is not primitive as `L`, the type's name, and `;`. Here such a
token is looked for in dotted text: its name starts with a letter and goes on with at least one
more letter, digit or dot. Tokens are found from left to right and do not overlap; each starts as
far left as it can.
-/

namespace ClassImports.ObjectType

/-- A character that may stand in the name of a token. -/
def isNameChar (c : Char) : Bool :=
  c.isAlphanum || c == '.'

/-- The name of the token that the text starts with, if it starts with one, and the text after
the token. -/
def token? : List Char → Option (List Char × List Char)
  | 'L' :: first :: rest =>
    if first.isAlpha && rest.head?.any isNameChar then
      match rest.dropWhile isNameChar with
      | ';' :: after => some (first :: rest.takeWhile isNameChar, after)
      | _ => none
    else none
  | _ => none

/-- What follows a token is shorter than the text that starts with it. -/
theorem length_of_token? {text name after : List Char} (h : token? text = some (name, after)) :
    after.length < text.length := by
  unfold token? at h
  split at h
  · rename_i first rest
    split at h
    · split at h
      · rename_i heq
        have hlen : (rest.dropWhile isNameChar).length ≤ rest.length :=
          (List.dropWhile_sublist _).length_le
        rw [heq] at hlen
        simp only [Option.some.injEq, Prod.mk.injEq] at h
        obtain ⟨_, rfl⟩ := h
        simp only [List.length_cons] at hlen ⊢
        omega
      · simp at h
    · simp at h
  · simp at h

/-- Looks for tokens to the end of the text; `before` holds the names found so far, last one
first. -/
def namesFrom (before : List (List Char)) : List Char → List (List Char)
  | [] => before.reverse
  | c :: rest =>
    match _ : token? (c :: rest) with
    | some (name, after) => namesFrom (name :: before) after
    | none => namesFrom before rest
termination_by text => text.length
decreasing_by
  · exact length_of_token? ‹_›
  · simp

/-- The names of all tokens in the text, from left to right. -/
def names (text : List Char) : List (List Char) :=
  namesFrom [] text

theorem namesFrom_of_token {text name after : List Char} (before : List (List Char))
    (h : token? text = some (name, after)) :
    namesFrom before text = namesFrom (name :: before) after := by
  cases text with
  | nil => simp [token?] at h
  | cons c rest =>
    rw [namesFrom]
    split <;> simp_all

theorem namesFrom_of_no_token {c : Char} {rest : List Char} (before : List (List Char))
    (h : token? (c :: rest) = none) : namesFrom before (c :: rest) = namesFrom before rest := by
  rw [namesFrom]
  split <;> simp_all

theorem namesFrom_eq_append (before : List (List Char)) :
    ∀ text, namesFrom before text = before.reverse ++ names text
  | [] => by simp [names, namesFrom]
  | c :: rest => by
    rw [names]
    cases h : token? (c :: rest) with
    | none =>
      rw [namesFrom_of_no_token _ h, namesFrom_of_no_token _ h, namesFrom_eq_append before rest]
      rfl
    | some next =>
      have := length_of_token? h
      rw [namesFrom_of_token _ h, namesFrom_of_token _ h,
        namesFrom_eq_append (next.1 :: before) next.2, namesFrom_eq_append [next.1] next.2]
      simp
termination_by text => text.length
decreasing_by
  · exact Nat.lt_succ_self _
  · exact this
  · exact this

@[simp] theorem names_nil : names [] = [] := by
  simp [names, namesFrom]

/-- A text that starts with a token has the token's name first. -/
theorem names_of_token {text name after : List Char} (h : token? text = some (name, after)) :
    names text = name :: names after := by
  rw [names, namesFrom_of_token _ h, namesFrom_eq_append]
  rfl

/-- A character that starts no token is passed over. -/
theorem names_of_no_token {c : Char} {rest : List Char} (h : token? (c :: rest) = none) :
    names (c :: rest) = names rest := by
  rw [names, namesFrom_of_no_token _ h, names]

end ClassImports.ObjectType
