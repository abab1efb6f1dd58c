import Mathlib
import ClassImports.Glob.Parser
import ClassImports.Proofs.Glob.Positions
import ClassImports.Proofs.Glob.Usable
import ClassImports.Proofs.Text.Utf8

/-!
# Characters and stars

Globs of ordinary characters and then stars, which cover exactly the names that start with the
characters (`covers_startingWith_iff`). The depth of such globs does not grow with their length, so
they can be used (`usable_startingWith`), up to a limit on the size of what they compile to, which is
not modelled. They are not about file names (`isAboutFileName_startingWith`). A text without special
characters is read as its characters (`readTokens_append_of_plain`).
-/

namespace ClassImports.Glob

/-! ## Reading -/

/-- Whether a character can have a meaning of its own in a glob. -/
def isSpecial (c : Char) : Bool :=
  ['*', '?', '[', ']', '{', '}', '\\'].contains c

/-- The tokens of characters. -/
def literals (chars : List Char) : List Token :=
  chars.map .literal

variable {reading : Reading}

/-- Outside of braces a comma is an ordinary character. -/
theorem readTokens_cons_of_plain {c : Char} (hmode : reading.mode = .branch)
    (hgroups : reading.groups = []) (hc : isSpecial c = false) (rest : List Char) :
    readTokens reading (c :: rest) = readTokens (reading.push (.literal c) c) rest := by
  rw [readTokens.eq_def]
  simp only [hmode]
  split
  · cases hc
  · cases hc
  · cases hc
  · rw [Reading.comma, hgroups]
  · cases hc
  · cases hc
  · cases hc
  · rfl

/-- After ordinary characters and one more of them, which is the character before what follows. -/
def Reading.pushText (reading : Reading) (chars : List Char) (last : Char) : Reading where
  current := (literals (chars ++ [last])).reverse ++ reading.current
  groups := reading.groups
  previous := some last
  mode := .branch

theorem readTokens_append_of_plain {chars : List Char} {last : Char}
    (hmode : reading.mode = .branch) (hgroups : reading.groups = [])
    (hchars : ∀ c ∈ chars, isSpecial c = false) (hlast : isSpecial last = false)
    (rest : List Char) :
    readTokens reading (chars ++ last :: rest) = readTokens (reading.pushText chars last) rest := by
  induction chars generalizing reading with
  | nil => exact readTokens_cons_of_plain hmode hgroups hlast rest
  | cons c chars ih =>
    obtain ⟨hc, hchars⟩ := List.forall_mem_cons.1 hchars
    have hpushed : (reading.push (.literal c) c).mode = .branch := rfl
    rw [List.cons_append, readTokens_cons_of_plain hmode hgroups hc, ih hpushed hgroups hchars]
    congr 1
    simp [Reading.pushText, Reading.push, literals]

theorem readTokens_star (hmode : reading.mode = .branch) (hgroups : reading.groups = []) :
    readTokens reading ['*'] = .ok (reading.current.reverse ++ [.star]) := by
  rw [readTokens.eq_def]
  simp only [hmode]
  show Reading.finish _ = _
  simp [Reading.finish, Reading.push, hgroups]

/-- Two stars are no double star after a character that is no slash. -/
theorem readTokens_two_stars (hmode : reading.mode = .branch) (hgroups : reading.groups = [])
    (hcurrent : reading.current ≠ []) (hprevious : reading.previous ≠ some '/') :
    readTokens reading ['*', '*'] = .ok (reading.current.reverse ++ [.star, .star]) := by
  have hdeep : reading.doubleStar [] = (reading.pushStars, false) := by
    simp [Reading.doubleStar, Reading.mayGoDeep, hcurrent, hprevious, hgroups]
  rw [readTokens.eq_def]
  simp only [hmode, hdeep]
  show Reading.finish _ = _
  simp [Reading.finish, Reading.pushStars, Reading.push, hgroups]

/-! ## Matching -/

section matching

variable {name : Bytes} {reached : List Bool} {position : Nat}

theorem advance_append (stopsAtSlash : Bool) (name : Bytes) (reached : List Bool)
    (tokens others : List Token) :
    advance stopsAtSlash name reached (tokens ++ others) =
      advance stopsAtSlash name (advance stopsAtSlash name reached tokens) others := by
  induction tokens generalizing reached with
  | nil => rw [advance, List.nil_append]
  | cons token tokens ih => rw [List.cons_append, advance, advance, ih]

/-- Characters are matched by their octets. -/
theorem advance_literals (stopsAtSlash : Bool) (name : Bytes) (reached : List Bool)
    (chars : List Char) :
    advance stopsAtSlash name reached (literals chars) =
      (Utf8.encode chars).foldl (fun reached octet => step (· == octet) name reached) reached := by
  induction chars generalizing reached with
  | nil => rfl
  | cons c chars ih =>
    show advance _ _ (Token.advance _ _ _ (.literal c)) (literals chars) = _
    rw [ih, Token.advance, Utf8.encode, Utf8.encode, List.flatMap_cons, List.foldl_append]

/-- A star that stops at nothing leads to the end of the name, from wherever it starts. -/
theorem reaches_spread_length_iff (h : reached.length = name.length + 1) :
    Reaches (spread (wild false) name reached) name.length ↔ ∃ start, Reaches reached start := by
  rw [reaches_spread_iff h]
  constructor
  · rintro ⟨start, -, hstart, -⟩
    exact ⟨start, hstart⟩
  · rintro ⟨start, hstart⟩
    have hlt := hstart.lt_length
    rw [h] at hlt
    refine ⟨start, Nat.le_of_lt_succ hlt, hstart, fun place _ hplace => ⟨name[place], ?_, rfl⟩⟩
    exact List.getElem?_eq_getElem hplace

theorem reaches_advance_stars_iff (n : Nat) (h : reached.length = name.length + 1) :
    Reaches (advance false name reached (List.replicate (n + 1) .star)) name.length ↔
      ∃ start, Reaches reached start := by
  induction n generalizing reached with
  | zero => exact reaches_spread_length_iff h
  | succ n ih =>
    show Reaches (advance false name (spread (wild false) name reached)
      (List.replicate (n + 1) .star)) name.length ↔ _
    rw [ih (length_spread _ h)]
    constructor
    · rintro ⟨position, hposition⟩
      obtain ⟨start, -, hstart, -⟩ := (reaches_spread_iff h).1 hposition
      exact ⟨start, hstart⟩
    · intro hstart
      exact ⟨name.length, (reaches_spread_length_iff h).2 hstart⟩

theorem length_advance_stars (n : Nat) (h : reached.length = name.length + 1) :
    (advance false name reached (List.replicate n .star)).length = name.length + 1 := by
  induction n generalizing reached with
  | zero => exact h
  | succ n ih => exact ih (length_spread _ h)

/-- The last of the positions of a name is the one after all its octets. -/
theorem getLastD_eq_true_iff {length : Nat} (h : reached.length = length + 1) :
    reached.getLastD false = true ↔ Reaches reached length := by
  have hlast : reached.getLast? = reached[length]? := by
    rw [List.getLast?_eq_getElem?, h, Nat.add_sub_cancel]
  rw [List.getLastD_eq_getLast?, hlast, Reaches]
  cases reached[length]? <;> simp

end matching

/-! ## Characters and then stars -/

section startingWith

variable {chars : List Char} {n : Nat} {text : String}

/-- The tokens of characters and of stars after them, at least one. -/
def startingWith (chars : List Char) (n : Nat) : List Token :=
  literals chars ++ List.replicate (n + 1) .star

/-- After a character that is no slash a star is read as a star, and two stars as two. -/
theorem readTokens_startingWith {last : Char} (hchars : ∀ c ∈ chars, isSpecial c = false)
    (hlast : isSpecial last = false) (hslash : last ≠ '/') (hn : n ≤ 1) :
    readTokens {} (chars ++ last :: List.replicate (n + 1) '*') =
      .ok (startingWith (chars ++ [last]) n) := by
  rw [readTokens_append_of_plain rfl rfl hchars hlast]
  have hcurrent : (Reading.pushText {} chars last).current.reverse = literals (chars ++ [last]) := by
    rw [Reading.pushText, List.append_nil, List.reverse_reverse]
  cases n with
  | zero => exact (readTokens_star rfl rfl).trans (by rw [hcurrent]; rfl)
  | succ n =>
    obtain rfl : n = 0 := by omega
    have hne : (Reading.pushText {} chars last).current ≠ [] := by
      simp [Reading.pushText, literals]
    have hprevious : (Reading.pushText {} chars last).previous ≠ some '/' :=
      fun h => hslash (Option.some.inj h)
    exact (readTokens_two_stars rfl rfl hne hprevious).trans (by rw [hcurrent]; rfl)

/-- Such a glob covers the names that start with its characters. -/
theorem covers_startingWith_iff {name : String} (hne : chars ≠ []) :
    covers ⟨text, startingWith chars n, false⟩ name = true ↔ chars <+: name.toList := by
  obtain ⟨c, chars, rfl⟩ := List.exists_cons_of_ne_nil hne
  set octets := Utf8.encode name.toList
  have hstart : (true :: List.replicate octets.length false).length = octets.length + 1 := by
    rw [List.length_cons, List.length_replicate]
  have hliterals := length_foldl_step (Utf8.encode (c :: chars)) hstart
  show (advance false octets _ (literals (c :: chars) ++ _)).getLastD false = true ↔ _
  rw [advance_append, advance_literals, getLastD_eq_true_iff (length_advance_stars _ hliterals),
    reaches_advance_stars_iff n hliterals, ← Utf8.encode_prefix_encode_iff]
  constructor
  · rintro ⟨position, hposition⟩
    obtain ⟨start, hfirst, hprefix, -⟩ := reaches_foldl_step_iff.1 hposition
    rwa [(reaches_start_iff _).1 hfirst, List.drop_zero] at hprefix
  · intro hprefix
    exact ⟨_, reaches_foldl_step_iff.2 ⟨0, (reaches_start_iff _).2 rfl, hprefix, rfl⟩⟩

/-- It is not about the last component of a name, since a star ends it. -/
theorem isAboutFileName_startingWith (stopsAtSlash : Bool) (hne : chars ≠ []) :
    isAboutFileName ⟨text, startingWith chars n, stopsAtSlash⟩ = false := by
  obtain ⟨c, chars, rfl⟩ := List.exists_cons_of_ne_nil hne
  have hending : endsInExtension (startingWith (c :: chars) n) = false := by
    rw [endsInExtension, startingWith, List.reverse_append, List.reverse_replicate]
    rfl
  rw [isAboutFileName, hending]
  rfl

theorem depth_tokensExtent_le {stopsAtSlash : Bool} {tokens : List Token} {bound : Nat}
    (h : ∀ token ∈ tokens, (token.extent stopsAtSlash).depth ≤ bound) :
    (tokensExtent stopsAtSlash tokens).depth ≤ bound := by
  induction tokens with
  | nil => exact Nat.zero_le bound
  | cons token tokens ih =>
    obtain ⟨htoken, htokens⟩ := List.forall_mem_cons.1 h
    exact max_le htoken (ih htokens)

/-- It does not nest, so its depth never keeps it from being used. How large it is once it is
compiled is not modelled. -/
theorem usable_startingWith : Usable ⟨text, startingWith chars n, false⟩ := by
  have hdepth : (tokensExtent false (startingWith chars n)).depth ≤ 1 := by
    apply depth_tokensExtent_le
    intro token htoken
    rw [startingWith, List.mem_append, literals, List.mem_map] at htoken
    rcases htoken with ⟨c, -, rfl⟩ | hstar
    · exact Nat.zero_le 1
    · rw [List.eq_of_mem_replicate hstar]
      rfl
  right
  calc depth ⟨text, startingWith chars n, false⟩
      = (tokensExtent false (startingWith chars n)).depth + 1 := rfl
    _ ≤ 1 + 1 := Nat.succ_le_succ hdepth
    _ ≤ depthLimit := by decide

end startingWith

end ClassImports.Glob
