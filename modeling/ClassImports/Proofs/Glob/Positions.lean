import Mathlib
import ClassImports.Glob.Match

/-!
# The positions that tokens reach

What the steps of matching do, said of single positions: an octet leads from a position to the next
one (`reaches_step_succ_iff`), a row of octets to the place after it (`reaches_foldl_step_iff`), and
a wildcard to every later position that octets which pass its test lead to (`reaches_spread_iff`).
-/

namespace ClassImports.Glob

/-- Whether a position is among those that are reached. -/
def Reaches (reached : List Bool) (position : Nat) : Prop :=
  reached[position]? = some true

variable {test : UInt8 → Bool} {name octets : Bytes} {reached : List Bool} {position : Nat}

theorem reaches_cons_zero {here : Bool} : Reaches (here :: reached) 0 ↔ here = true :=
  Option.some_inj

theorem reaches_cons_succ {here : Bool} :
    Reaches (here :: reached) (position + 1) ↔ Reaches reached position :=
  Iff.rfl

theorem Reaches.lt_length (h : Reaches reached position) : position < reached.length := by
  obtain ⟨hlt, -⟩ := List.getElem?_eq_some_iff.1 h
  exact hlt

/-- At the start only the first position is reached. -/
theorem reaches_start_iff (length : Nat) :
    Reaches (true :: List.replicate length false) position ↔ position = 0 := by
  cases position with
  | zero => simp [Reaches]
  | succ position => simp [Reaches, List.getElem?_replicate]

/-! ## Octets -/

theorem length_step (test : UInt8 → Bool) (h : reached.length = name.length + 1) :
    (step test name reached).length = name.length + 1 := by
  unfold step
  rw [List.length_cons, List.length_zipWith, h]
  omega

theorem not_reaches_step_zero : ¬Reaches (step test name reached) 0 := by
  intro h
  cases reaches_cons_zero.1 h

theorem reaches_step_succ_iff :
    Reaches (step test name reached) (position + 1) ↔
      Reaches reached position ∧ ∃ octet, name[position]? = some octet ∧ test octet = true := by
  unfold step Reaches
  rw [List.getElem?_cons_succ, List.getElem?_zipWith]
  cases name[position]? with
  | none => simp
  | some octet =>
    cases reached[position]? with
    | none => simp
    | some here => simp [Bool.and_eq_true]

theorem length_foldl_step (octets : Bytes) (h : reached.length = name.length + 1) :
    (octets.foldl (fun reached octet => step (· == octet) name reached) reached).length =
      name.length + 1 := by
  induction octets generalizing reached with
  | nil => exact h
  | cons octet octets ih => exact ih (length_step _ h)

theorem cons_prefix_drop_iff {octet : UInt8} :
    octet :: octets <+: name.drop position ↔
      name[position]? = some octet ∧ octets <+: name.drop (position + 1) := by
  rw [← List.head?_drop, ← List.tail_drop]
  cases name.drop position with
  | nil => simp
  | cons first rest =>
    rw [List.cons_prefix_cons, List.head?_cons, List.tail_cons, Option.some_inj, eq_comm]

/-- A row of octets leads from where it stands in the name to its end. -/
theorem reaches_foldl_step_iff :
    Reaches (octets.foldl (fun reached octet => step (· == octet) name reached) reached) position ↔
      ∃ start, Reaches reached start ∧ octets <+: name.drop start ∧
        position = start + octets.length := by
  induction octets generalizing reached with
  | nil => simp
  | cons octet octets ih =>
    rw [List.foldl_cons, ih]
    constructor
    · rintro ⟨_ | start, hreaches, hprefix, rfl⟩
      · exact absurd hreaches not_reaches_step_zero
      · obtain ⟨hstart, here, hname, heq⟩ := reaches_step_succ_iff.1 hreaches
        rw [eq_of_beq heq] at hname
        refine ⟨start, hstart, cons_prefix_drop_iff.2 ⟨hname, hprefix⟩, ?_⟩
        rw [List.length_cons]
        omega
    · rintro ⟨start, hstart, hprefix, rfl⟩
      obtain ⟨hname, hrest⟩ := cons_prefix_drop_iff.1 hprefix
      refine ⟨start + 1, reaches_step_succ_iff.2 ⟨hstart, octet, hname, beq_self_eq_true octet⟩,
        hrest, ?_⟩
      rw [List.length_cons]
      omega

/-! ## Wildcards -/

/-- One more position of a wildcard, after the positions before it, last one first. -/
def spreadOver (test : UInt8 → Bool) (before : List Bool) (next : UInt8 × Bool) : List Bool :=
  (next.2 || (before.headD false && test next.1)) :: before

theorem spread_eq (test : UInt8 → Bool) (name : Bytes) (reached : List Bool) :
    spread test name reached =
      ((name.zip reached.tail).foldl (spreadOver test) [reached.headD false]).reverse :=
  rfl

/-- Of the positions before, only the last one counts. -/
theorem foldl_spreadOver_cons (here : Bool) (before : List Bool) (rest : List (UInt8 × Bool)) :
    rest.foldl (spreadOver test) (here :: before) =
      rest.foldl (spreadOver test) [here] ++ before := by
  induction rest generalizing here before with
  | nil => rfl
  | cons next rest ih =>
    show rest.foldl (spreadOver test) (_ :: here :: before) =
      rest.foldl (spreadOver test) (_ :: [here]) ++ before
    rw [ih, ih _ [here], List.append_assoc, List.singleton_append]
    rfl

theorem spread_nil (here : Bool) : spread test [] [here] = [here] :=
  rfl

/-- A wildcard goes on to the next position if it is at the first one and the octet between them
passes its test. -/
theorem spread_cons (octet : UInt8) (here next : Bool) :
    spread test (octet :: name) (here :: next :: reached) =
      here :: spread test name ((next || (here && test octet)) :: reached) := by
  rw [spread_eq, spread_eq, List.tail_cons, List.zip_cons_cons, List.foldl_cons]
  show ((name.zip reached).foldl (spreadOver test) (_ :: [here])).reverse = _
  rw [foldl_spreadOver_cons, List.reverse_append]
  rfl

/-- Positions of a name with a first octet: those before and after that octet, and others. -/
theorem exists_eq_cons_cons {octet : UInt8} (h : reached.length = (octet :: name).length + 1) :
    ∃ here next rest, reached = here :: next :: rest ∧ rest.length = name.length := by
  obtain ⟨here, later, rfl⟩ := List.exists_cons_of_length_eq_add_one h
  obtain ⟨next, rest, rfl⟩ := List.exists_cons_of_length_eq_add_one (Nat.add_right_cancel h)
  exact ⟨here, next, rest, rfl, Nat.add_right_cancel (Nat.add_right_cancel h)⟩

theorem length_spread (test : UInt8 → Bool) (h : reached.length = name.length + 1) :
    (spread test name reached).length = name.length + 1 := by
  induction name generalizing reached with
  | nil =>
    obtain ⟨here, rfl⟩ := List.length_eq_one_iff.1 h
    rfl
  | cons octet name ih =>
    obtain ⟨here, next, rest, rfl, hrest⟩ := exists_eq_cons_cons h
    rw [spread_cons, List.length_cons, ih (congrArg (· + 1) hrest)]
    rfl

theorem reaches_spread_zero_iff (h : reached.length = name.length + 1) :
    Reaches (spread test name reached) 0 ↔ Reaches reached 0 := by
  cases name with
  | nil =>
    obtain ⟨here, rfl⟩ := List.length_eq_one_iff.1 h
    rw [spread_nil]
  | cons octet name =>
    obtain ⟨here, next, rest, rfl, -⟩ := exists_eq_cons_cons h
    rw [spread_cons, reaches_cons_zero, reaches_cons_zero]

/-- A wildcard leads to a position that is reached already, and on from the position before it. -/
theorem reaches_spread_succ_iff (h : reached.length = name.length + 1) :
    Reaches (spread test name reached) (position + 1) ↔
      Reaches reached (position + 1) ∨ Reaches (spread test name reached) position ∧
        ∃ octet, name[position]? = some octet ∧ test octet = true := by
  induction name generalizing reached position with
  | nil =>
    obtain ⟨here, rfl⟩ := List.length_eq_one_iff.1 h
    simp [spread_nil]
  | cons octet name ih =>
    obtain ⟨here, next, rest, rfl, hrest⟩ := exists_eq_cons_cons h
    have hlength : ((next || (here && test octet)) :: rest).length = name.length + 1 :=
      congrArg (· + 1) hrest
    rw [spread_cons, reaches_cons_succ, reaches_cons_succ]
    cases position with
    | zero =>
      rw [reaches_spread_zero_iff hlength, reaches_cons_zero, reaches_cons_zero, reaches_cons_zero,
        Bool.or_eq_true, Bool.and_eq_true]
      simp
    | succ position =>
      rw [ih hlength, reaches_cons_succ, reaches_cons_succ, reaches_cons_succ,
        List.getElem?_cons_succ]

/-- A wildcard leads from a position to all those after octets that pass its test. -/
theorem reaches_spread_iff (h : reached.length = name.length + 1) :
    Reaches (spread test name reached) position ↔
      ∃ start ≤ position, Reaches reached start ∧
        ∀ place, start ≤ place → place < position →
          ∃ octet, name[place]? = some octet ∧ test octet = true := by
  induction position with
  | zero =>
    rw [reaches_spread_zero_iff h]
    constructor
    · intro hstart
      exact ⟨0, le_rfl, hstart, fun place _ hlt => absurd hlt (Nat.not_lt_zero place)⟩
    · rintro ⟨start, hle, hstart, -⟩
      rwa [Nat.le_zero.1 hle] at hstart
  | succ position ih =>
    rw [reaches_spread_succ_iff h, ih]
    constructor
    · rintro (hstart | ⟨⟨start, hle, hstart, hpasses⟩, hlast⟩)
      · exact ⟨position + 1, le_rfl, hstart, fun place hle hlt => by omega⟩
      · refine ⟨start, Nat.le_succ_of_le hle, hstart, fun place hplace hlt => ?_⟩
        rcases Nat.lt_succ_iff_lt_or_eq.1 hlt with hlt | rfl
        · exact hpasses place hplace hlt
        · exact hlast
    · rintro ⟨start, hle, hstart, hpasses⟩
      rcases Nat.le_succ_iff.1 hle with hle | rfl
      · refine .inr ⟨⟨start, hle, hstart, fun place hplace hlt => ?_⟩, ?_⟩
        · exact hpasses place hplace (Nat.lt_succ_of_lt hlt)
        · exact hpasses position hle (Nat.lt_succ_self position)
      · exact .inl hstart

end ClassImports.Glob
