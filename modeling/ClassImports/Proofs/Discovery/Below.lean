import Mathlib
import ClassImports.Proofs.Discovery.Walk

/-!
# Paths below a target

The path to which names lead from a directory is the directory's own path, a slash unless there is
one already, and the names with slashes between them (`toList_pathTo`). Of this the lines of a
selection see the names alone, unless the target starts with `././` (`pathBelow_pathTo`).
-/

namespace ClassImports

namespace Path

/-- Whether a text can be the name of a file or directory other than the directory at hand. -/
structure IsName (name : String) : Prop where
  ne_empty : name ≠ ""
  ne_current : name ≠ "."
  slash_notMem : '/' ∉ name.toList

/-- A path to which a name can be added. -/
def openEnd (path : List Char) : List Char :=
  if path.getLast?.all (· == '/') then path else path ++ ['/']

theorem toList_join (path name : String) :
    (join path name).toList = openEnd path.toList ++ name.toList := by
  unfold join
  split
  · next hlast => simp [openEnd, List.getLast?_eq_none_iff.1 hlast]
  · next hlast => simp [openEnd, hlast]
  · next hslash hlast => simp [openEnd, hlast, if_neg hslash]

theorem openEnd_eq_or (path : List Char) :
    openEnd path = path ∨ openEnd path = path ++ ['/'] := by
  unfold openEnd
  split
  · exact .inl rfl
  · exact .inr rfl

theorem openEnd_here (path : List Char) :
    openEnd ('.' :: '/' :: path) = '.' :: '/' :: openEnd path := by
  cases path with
  | nil => rfl
  | cons c rest =>
    unfold openEnd
    rw [List.getLast?_cons_cons, List.getLast?_cons_cons]
    split <;> rfl

/-- What is open for a name ends in a slash. -/
theorem slash_mem_openEnd {path : List Char} (h : path ≠ []) : '/' ∈ openEnd path := by
  unfold openEnd
  split
  · next hlast =>
    rw [List.getLast?_eq_some_getLast h] at hlast
    rw [← beq_iff_eq.1 hlast]
    exact List.getLast_mem h
  · exact List.mem_append_right _ (List.mem_singleton_self _)

theorem openEnd_append_name (path : List Char) {name : String} (h : IsName name) :
    openEnd (path ++ name.toList) = path ++ name.toList ++ ['/'] := by
  have hne : name.toList ≠ [] := fun hnil => h.ne_empty (String.toList_eq_nil_iff.1 hnil)
  have hlast : name.toList.getLast hne ≠ '/' := by
    intro hslash
    apply h.slash_notMem
    rw [← hslash]
    exact List.getLast_mem hne
  unfold openEnd
  rw [List.getLast?_append, List.getLast?_eq_some_getLast hne]
  simp [hlast]

/-- The first part of a path is what comes before its first slash. -/
theorem head?_splitFrom (part path : List Char) :
    (splitFrom part path).head? =
      some (String.ofList (part.reverse ++ path.takeWhile (· ≠ '/'))) := by
  induction path generalizing part with
  | nil => simp [splitFrom]
  | cons c rest ih =>
    unfold splitFrom
    split
    · next hc => simp [hc]
    · next hc =>
      rw [ih, List.takeWhile_cons_of_pos (by simpa using hc)]
      simp

theorem component?_ne_current (part : String) : component? part ≠ some .current := by
  unfold component?
  split
  · intro h
    cases h
  · split <;> exact fun h => by cases h

/-- A path of the component `.` alone starts with it. -/
theorem takeWhile_of_components {path : List Char}
    (h : components (String.ofList path) = [.current]) : path.takeWhile (· ≠ '/') = ['.'] := by
  have hcurrent : (split (String.ofList path)).head? = some "." := by
    simp only [components] at h
    split at h
    · cases h
    · split at h
      · next hdot => exact hdot
      · have hmem : Component.current ∈ (split (String.ofList path)).filterMap component? := by
          rw [List.nil_append] at h
          rw [h]
          exact List.mem_singleton_self _
        obtain ⟨part, -, hpart⟩ := List.mem_filterMap.1 hmem
        exact absurd hpart (component?_ne_current part)
  unfold split at hcurrent
  rw [head?_splitFrom, String.toList_ofList, Option.some_inj] at hcurrent
  simpa using congrArg String.toList hcurrent

end Path

namespace Selection

/-! ## What the lines see of a path -/

theorem dropHere_eq_or (path : List Char) :
    dropHere path = path ∨ path = '.' :: '/' :: dropHere path := by
  unfold dropHere
  split
  · exact .inr rfl
  · exact .inl rfl

theorem dropHere_of_takeWhile {path : List Char} (h : path.takeWhile (· ≠ '/') ≠ ['.']) :
    dropHere path = path := by
  unfold dropHere
  split
  · exact absurd rfl h
  · rfl

theorem eq_of_takeWhile {path : List Char} (h : path.takeWhile (· ≠ '/') = ['.'])
    (hhere : dropHere path = path) : path = ['.'] := by
  cases path with
  | nil => cases h
  | cons c rest =>
    rw [List.takeWhile_cons] at h
    split at h
    · obtain ⟨rfl, hrest⟩ := List.cons_eq_cons.1 h
      cases rest with
      | nil => rfl
      | cons d rest =>
        rw [List.takeWhile_cons] at hrest
        split at hrest
        · cases hrest
        · next hd =>
          have hslash : d = '/' := by simpa using hd
          subst hslash
          have hlength := congrArg List.length hhere
          simp only [dropHere, List.length_cons] at hlength
          omega
    · cases h

/-- Whether nothing that could be dropped stands at the start of a text. -/
def IsPlain (text : List Char) : Prop :=
  dropHere text = text ∧ dropSlash text = text

theorem isPlain_name_append {name : String} {rest : List Char} (h : Path.IsName name)
    (hrest : ∀ c ∈ rest.head?, c = '/') : IsPlain (name.toList ++ rest) := by
  have hslash : ∀ c ∈ name.toList, c ≠ '/' := fun c hc heq => h.slash_notMem (heq ▸ hc)
  have hfirst : (name.toList ++ rest).takeWhile (· ≠ '/') = name.toList := by
    rw [List.takeWhile_append_of_pos fun c hc => decide_eq_true (hslash c hc)]
    cases rest with
    | nil => simp
    | cons c rest => simp [hrest c rfl]
  constructor
  · apply dropHere_of_takeWhile
    rw [hfirst]
    exact fun hdot => h.ne_current (String.toList_injective hdot)
  · cases hchars : name.toList with
    | nil => exact absurd (String.toList_eq_nil_iff.1 hchars) h.ne_empty
    | cons c chars =>
      have hc : c ≠ '/' := hslash c (by simp [hchars])
      unfold dropSlash
      split
      · next heq => exact absurd (List.cons_eq_cons.1 heq).1 hc
      · rfl

theorem isPlain_intercalate {names : List String} (hnames : names ≠ [])
    (hvalid : ∀ name ∈ names, Path.IsName name) :
    IsPlain (String.intercalate "/" names).toList := by
  cases names with
  | nil => exact absurd rfl hnames
  | cons name rest =>
    have hname : Path.IsName name := hvalid name List.mem_cons_self
    by_cases hrest : rest = []
    · subst hrest
      rw [String.intercalate_singleton, ← List.append_nil name.toList]
      exact isPlain_name_append hname (by simp)
    · rw [String.intercalate_cons_of_ne_nil hrest, String.toList_append, String.toList_append,
        List.append_assoc]
      exact isPlain_name_append hname (by simp)

/-- What the lines see of a path, when nothing is left to be dropped at the start of either. -/
def below (target path : List Char) : List Char :=
  if Path.components (String.ofList target) = [.current] ∨ '/' ∉ path ∨ ¬ target <+: path then path
  else dropSlash (path.drop target.length)

theorem pathBelow_eq_below (target path : String) :
    pathBelow target path =
      String.ofList (below (dropHere target.toList) (dropHere (dropHere path.toList))) := by
  simp only [pathBelow, below, Bool.or_eq_true, Bool.not_eq_true', decide_eq_true_eq,
    ← Bool.not_eq_true, List.contains_iff_mem, List.isPrefixOf_iff_prefix, or_assoc]
  split <;> rfl

theorem takeWhile_append_slash (path text : List Char) :
    (path ++ '/' :: text).takeWhile (· ≠ '/') = path.takeWhile (· ≠ '/') := by
  induction path with
  | nil => rfl
  | cons c rest ih => rw [List.cons_append, List.takeWhile_cons, List.takeWhile_cons, ih]

theorem takeWhile_openEnd_append {target : List Char} (hne : target ≠ []) (text : List Char) :
    (Path.openEnd target ++ text).takeWhile (· ≠ '/') = target.takeWhile (· ≠ '/') := by
  have hslash := Path.slash_mem_openEnd hne
  rcases Path.openEnd_eq_or target with hopen | hopen
  · rw [hopen] at hslash ⊢
    obtain ⟨before, after, rfl⟩ := List.append_of_mem hslash
    rw [List.append_assoc, List.cons_append, takeWhile_append_slash, takeWhile_append_slash]
  · rw [hopen, List.append_assoc]
    exact takeWhile_append_slash target text

/-- What is below a target that starts with nothing to be dropped, and is not `.`, starts so
too. -/
theorem dropHere_openEnd_append {target : List Char} (htarget : dropHere target = target)
    (hne : target ≠ []) (hdot : target ≠ ['.']) (text : List Char) :
    dropHere (Path.openEnd target ++ text) = Path.openEnd target ++ text := by
  apply dropHere_of_takeWhile
  rw [takeWhile_openEnd_append hne]
  exact fun hfirst => hdot (eq_of_takeWhile hfirst htarget)

theorem below_nil {text : List Char} (htext : IsPlain text) : below [] text = text := by
  unfold below
  split
  · rfl
  · exact htext.2

theorem below_here (text : List Char) : below ['.'] text = text :=
  if_pos (.inl (by decide))

/-- Dropping once is enough. -/
theorem dropHere_dropHere_openEnd {target text : List Char} (htarget : dropHere target = target)
    (htext : IsPlain text) :
    dropHere (dropHere (Path.openEnd target ++ text)) = dropHere (Path.openEnd target ++ text) := by
  by_cases hne : target = []
  · subst hne
    exact congrArg dropHere htext.1
  by_cases hdot : target = ['.']
  · subst hdot
    exact htext.1
  rw [dropHere_openEnd_append htarget hne hdot, dropHere_openEnd_append htarget hne hdot]

theorem below_openEnd_append {target text : List Char} (htarget : dropHere target = target)
    (htext : IsPlain text) : below target (dropHere (Path.openEnd target ++ text)) = text := by
  by_cases hne : target = []
  · subst hne
    rw [show Path.openEnd [] ++ text = text from rfl, htext.1]
    exact below_nil htext
  by_cases hdot : target = ['.']
  · subst hdot
    exact below_here text
  rw [dropHere_openEnd_append htarget hne hdot]
  have hhere : Path.components (String.ofList target) ≠ [.current] :=
    fun h => hdot (eq_of_takeWhile (Path.takeWhile_of_components h) htarget)
  have hslash := Path.slash_mem_openEnd hne
  unfold below
  rcases Path.openEnd_eq_or target with hopen | hopen
  · rw [hopen] at hslash ⊢
    rw [if_neg (by simp [hhere, hslash]), List.drop_left]
    exact htext.2
  · rw [hopen, List.append_assoc, if_neg (by simp [hhere]), List.drop_left]
    rfl

end Selection

namespace Discovery

theorem toList_pathTo (dir : String) {names : List String} (hnames : names ≠ [])
    (hvalid : ∀ name ∈ names, Path.IsName name) :
    (pathTo dir names).toList =
      Path.openEnd dir.toList ++ (String.intercalate "/" names).toList := by
  induction names generalizing dir with
  | nil => exact absurd rfl hnames
  | cons name rest ih =>
    rw [pathTo_cons]
    cases rest with
    | nil =>
      rw [String.intercalate_singleton]
      exact Path.toList_join dir name
    | cons next rest =>
      have hname : Path.IsName name := hvalid name List.mem_cons_self
      rw [ih _ (List.cons_ne_nil _ _) fun other h => hvalid other (List.mem_cons_of_mem _ h),
        Path.toList_join, Path.openEnd_append_name _ hname, String.intercalate_cons_cons]
      simp

/-- **What the lines see** of the path to which names lead from a target: the names with slashes
between them, unless the target starts with `././`. -/
theorem pathBelow_pathTo {target : String} {names : List String}
    (htarget : ¬ ['.', '/', '.', '/'] <+: target.toList) (hnames : names ≠ [])
    (hvalid : ∀ name ∈ names, Path.IsName name) :
    Selection.pathBelow target (pathTo target names) = String.intercalate "/" names := by
  have hplain := Selection.isPlain_intercalate hnames hvalid
  rw [Selection.pathBelow_eq_below, toList_pathTo target hnames hvalid]
  apply String.toList_injective
  rw [String.toList_ofList]
  rcases Selection.dropHere_eq_or target.toList with hhere | hhere
  · rw [hhere, Selection.dropHere_dropHere_openEnd hhere hplain]
    exact Selection.below_openEnd_append hhere hplain
  · generalize Selection.dropHere target.toList = rest at hhere
    rw [hhere] at htarget ⊢
    have hrest : Selection.dropHere rest = rest := by
      rcases Selection.dropHere_eq_or rest with hrest | hrest
      · exact hrest
      · rw [hrest] at htarget
        exact absurd ⟨_, rfl⟩ htarget
    rw [Path.openEnd_here]
    exact Selection.below_openEnd_append hrest hplain

end Discovery

end ClassImports
