import Mathlib
import ClassImports.Proofs.ClassFile.Grammar

/-!
# Class files cut short

Octets that are read as a class file, or refused for another reason than that octets are missing,
are read or refused in the same way whatever follows them; octets that are too few can be completed.

* `Reader.Steady`: how a reader fails. An error that missing octets do not explain stays when there
  are more of them, and missing octets are reported at the place where they are missing.
* `Reader.Completes`: a reader that lacks octets can be given some with which it succeeds.
* `isLeast_readLengths`: the form of a head is the shortest start of the octets that is read.
* `ofBytes_extension`: all of it for whole class files.
-/

namespace ClassImports.ClassFile

open BigEndian (encode decode)

/-- Whether an error says that octets are missing. -/
def ReadError.isTruncated : ReadError → Bool
  | truncated _ _ => true
  | _ => false

theorem ReadError.isTruncated_iff {error : ReadError} :
    error.isTruncated = true ↔ ∃ offset needed, error = .truncated offset needed := by
  cases error with
  | truncated offset needed => exact ⟨fun _ => ⟨offset, needed, rfl⟩, fun _ => rfl⟩
  | _ => simp [isTruncated]

namespace Cursor

/-- The same place with more octets to come. -/
def append (cursor : Cursor) (more : Bytes) : Cursor :=
  ⟨cursor.offset, cursor.rest ++ more⟩

/-- The offset at which the octets end. -/
def limit (cursor : Cursor) : Nat :=
  cursor.offset + cursor.rest.length

end Cursor

namespace Reader

variable {α β : Type}

/-! ## Steady readers -/

/-- What a reader accepts, it accepts in front of more octets too. -/
theorem Accepts.append {reader : Reader α} {language : Bytes → α → Prop}
    (h : Accepts reader language) {before after : Cursor} {value : α}
    (hread : reader before = .ok (value, after)) (more : Bytes) :
    reader (before.append more) = .ok (value, after.append more) := by
  obtain ⟨form, hform, hrest, hoffset⟩ := (h _ _ _).1 hread
  refine (h _ _ _).2 ⟨form, hform, ?_, hoffset⟩
  simp only [Cursor.append, hrest, List.append_assoc]

/-- What a reader accepts, it accepts between the place it is at and the end. -/
theorem Accepts.offset_le {reader : Reader α} {language : Bytes → α → Prop}
    (h : Accepts reader language) {before after : Cursor} {value : α}
    (hread : reader before = .ok (value, after)) :
    before.offset ≤ after.offset ∧ after.limit = before.limit := by
  obtain ⟨form, -, hrest, hoffset⟩ := (h _ _ _).1 hread
  simp only [Cursor.limit, hrest, hoffset, List.length_append]
  omega

/-- How a reader fails: more octets mend no error but that of missing octets, and this error names a
place between the start and the end of the octets, from which on more octets are needed than there
are. -/
structure Steady (reader : Reader α) : Prop where
  error : ∀ {cursor error}, reader cursor = .error error → error.isTruncated = false →
    ∀ more, reader (cursor.append more) = .error error
  truncated : ∀ {cursor offset needed}, reader cursor = .error (.truncated offset needed) →
    cursor.offset ≤ offset ∧ offset ≤ cursor.limit ∧ cursor.limit < offset + needed

theorem steady_pure (value : α) : Steady (pure value : Reader α) where
  error h := by cases h
  truncated h := by cases h

theorem steady_throw {error : ReadError} (herror : error.isTruncated = false) :
    Steady (throw error : Reader α) where
  error h _ _ := by
    cases h
    rfl
  truncated h := by
    cases h
    cases herror

/-- A reader of two parts fails with the first of them, or with the second after the first. -/
theorem bind_eq_error_iff {first : Reader α} {next : α → Reader β} {cursor : Cursor}
    {error : ReadError} :
    (first >>= next) cursor = .error error ↔
      first cursor = .error error ∨
        ∃ a middle, first cursor = .ok (a, middle) ∧ next a middle = .error error := by
  show (first cursor >>= fun result => next result.1 result.2) = _ ↔ _
  rw [Except.bind_eq_error_iff, Prod.exists]

theorem steady_bind {first : Reader α} {next : α → Reader β} {front : Bytes → α → Prop}
    (haccepts : Accepts first front) (hfirst : Steady first) (hnext : ∀ a, Steady (next a)) :
    Steady (first >>= next) where
  error h herror more := by
    rcases bind_eq_error_iff.1 h with h | ⟨a, middle, ha, h⟩
    · exact bind_eq_error_iff.2 (.inl (hfirst.error h herror more))
    · exact bind_eq_error_iff.2
        (.inr ⟨a, middle.append more, haccepts.append ha more, (hnext a).error h herror more⟩)
  truncated h := by
    rcases bind_eq_error_iff.1 h with h | ⟨a, middle, ha, h⟩
    · exact hfirst.truncated h
    · obtain ⟨hle, hlimit⟩ := haccepts.offset_le ha
      obtain ⟨hoffset, hinside, hneeded⟩ := (hnext a).truncated h
      exact ⟨Nat.le_trans hle hoffset, hlimit ▸ hinside, hlimit ▸ hneeded⟩

theorem steady_map {reader : Reader α} {language : Bytes → α → Prop}
    (haccepts : Accepts reader language) (h : Steady reader) (f : α → β) :
    Steady (do return f (← reader)) :=
  steady_bind haccepts h fun a => steady_pure (f a)

theorem steady_ite {condition : Prop} [Decidable condition] {reader : Reader α}
    {error : ReadError} (herror : error.isTruncated = false) (h : Steady reader) :
    Steady (if condition then throw error else reader) := by
  split
  · exact steady_throw herror
  · exact h

theorem steady_take (n : Nat) : Steady (take n) where
  error h herror := by
    simp only [take] at h
    split at h
    · cases h
    · cases h
      cases herror
  truncated {cursor offset needed} h := by
    simp only [take] at h
    split at h
    · cases h
    · next hlength =>
      cases h
      rw [List.length_take] at hlength
      simp only [Cursor.limit]
      omega

theorem steady_number (width : Nat) : Steady (number width) :=
  steady_map (accepts_take width) (steady_take width) decode

theorem number_ne_error {width : Nat} {cursor : Cursor} (h : width ≤ cursor.rest.length)
    (error : ReadError) : number width cursor ≠ .error error := by
  intro hread
  rcases bind_eq_error_iff.1 hread with hread | ⟨a, middle, -, hread⟩
  · simp [take, h] at hread
  · cases hread

theorem steady_octet : Steady octet :=
  steady_map (accepts_number 1) (steady_number 1) Nat.toUInt8

theorem steady_word : Steady word :=
  steady_map (accepts_number 2) (steady_number 2) Nat.toUInt16

theorem steady_text : Steady text :=
  steady_bind (accepts_number 2) (steady_number 2) fun n =>
    steady_map (accepts_take n) (steady_take n) ModifiedUtf8.decode

theorem steady_body (tag : Tag) : Steady (body tag) := by
  cases tag with
  | unusable => exact steady_pure _
  | utf8 => exact steady_map accepts_text steady_text _
  | integer => exact steady_map (accepts_number 4) (steady_number 4) _
  | float => exact steady_map (accepts_number 4) (steady_number 4) _
  | long => exact steady_map (accepts_number 8) (steady_number 8) _
  | double => exact steady_map (accepts_number 8) (steady_number 8) _
  | classInfo => exact steady_map accepts_word steady_word _
  | link kind => exact steady_map accepts_word steady_word _
  | pair kind =>
    exact steady_bind accepts_word steady_word fun first => steady_map accepts_word steady_word _
  | methodHandle =>
    exact steady_bind accepts_octet steady_octet fun kind => steady_map accepts_word steady_word _

theorem steady_constant (index : Nat) : Steady (constant index) := by
  rw [constant_eq]
  refine steady_bind accepts_octet steady_octet fun code => ?_
  cases Tag.ofCode? code with
  | none => exact steady_throw rfl
  | some tag => exact steady_body tag

theorem steady_slotsUnbounded (count index : Nat) (before : Array Constant) :
    Steady (slotsUnbounded count index before) := by
  induction hroom : count - index using Nat.strong_induction_on generalizing index before with
  | _ room ih =>
    rw [slotsUnbounded]
    split
    · refine steady_bind (accepts_constant index) (steady_constant index) fun next => ?_
      have hwidth := next.width_pos
      exact ih _ (by omega) _ _ rfl
    · exact steady_pure before

/-- Reading a pool, with slot numbers that are not limited to 16 bits. -/
theorem pool_eq : pool = (word >>= fun count =>
    if count = 0 then throw .noSlots else return ⟨← slotsUnbounded count.toNat 1 #[]⟩) := by
  unfold pool
  refine congrArg (word >>= ·) (funext fun count => ?_)
  rw [slots_eq_slotsUnbounded]
  rfl

theorem steady_pool : Steady pool := by
  rw [pool_eq]
  exact steady_bind accepts_word steady_word fun count => steady_ite rfl
    (steady_map (accepts_slotsUnbounded _ _ _) (steady_slotsUnbounded _ _ _) Pool.mk)

/-- Reads what follows the magic number. -/
def fields : Reader ClassFile := do
  let minor ← word
  let major ← word
  let pool ← pool
  let accessFlags ← word
  let thisClass ← word
  let superClass ← word
  return { version := ⟨major, minor⟩, pool, accessFlags, thisClass, superClass }

theorem head_eq : head = (number 4 >>= fun found =>
    if found ≠ magic then throw (.badMagic found) else fields) :=
  rfl

theorem steady_fields : Steady fields :=
  steady_bind accepts_word steady_word fun _ => steady_bind accepts_word steady_word fun _ =>
    steady_bind accepts_pool steady_pool fun _ => steady_bind accepts_word steady_word fun _ =>
      steady_bind accepts_word steady_word fun _ => steady_map accepts_word steady_word _

theorem steady_head : Steady head :=
  head_eq ▸ steady_bind (accepts_number 4) (steady_number 4) fun _ => steady_ite rfl steady_fields

/-! ## Completion -/

/-- With more octets a reader succeeds at a place, uses all octets up and gives a value of some
kind. -/
def Finishes (reader : Reader α) (kind : α → Prop) (cursor : Cursor) : Prop :=
  ∃ more value after,
    reader (cursor.append more) = .ok (value, after) ∧ after.rest = [] ∧ kind value

/-- Wherever a reader lacks octets, there are some with which it finishes. -/
def Mends (reader : Reader α) (kind : α → Prop) : Prop :=
  ∀ cursor error, reader cursor = .error error → error.isTruncated = true →
    Finishes reader kind cursor

/-- A reader finishes where it lacks octets, and in front of no octets at all. -/
structure Completes (reader : Reader α) (kind : α → Prop) : Prop where
  mends : Mends reader kind
  starts : ∀ offset, Finishes reader kind ⟨offset, []⟩

variable {kind : α → Prop} {other : β → Prop}

theorem mends_throw {error : ReadError} (herror : error.isTruncated = false) :
    Mends (throw error : Reader α) kind := by
  intro cursor _ h htruncated
  cases h
  rw [herror] at htruncated
  cases htruncated

theorem completes_pure {value : α} (h : kind value) : Completes (pure value) kind where
  mends := by
    intro cursor error hread
    cases hread
  starts offset := ⟨[], value, _, rfl, rfl, h⟩

/-- A reader of two parts finishes if the second part does after every value that the first part can
be brought to. -/
theorem completes_bind {first : Reader α} {next : α → Reader β} {front : Bytes → α → Prop}
    (haccepts : Accepts first front) (hfirst : Completes first kind)
    (hstarts : ∀ a, kind a → ∀ offset, Finishes (next a) other ⟨offset, []⟩)
    (hmends : ∀ a, Mends (next a) other) : Completes (first >>= next) other := by
  have hjoin : ∀ cursor, Finishes first kind cursor → Finishes (first >>= next) other cursor := by
    rintro cursor ⟨more, a, middle, ha, hrest, hkind⟩
    obtain ⟨form, value, after, hvalue, hend, hother⟩ := hstarts a hkind middle.offset
    have happend : cursor.append (more ++ form) = (cursor.append more).append form := by
      simp only [Cursor.append, List.append_assoc]
    have hmiddle : middle.append form = Cursor.append ⟨middle.offset, []⟩ form := by
      simp only [Cursor.append, hrest]
    refine ⟨more ++ form, value, after, bind_eq_ok_iff.2 ⟨a, middle.append form, ?_, ?_⟩, hend,
      hother⟩
    · rw [happend]
      exact haccepts.append ha form
    · rw [hmiddle]
      exact hvalue
  refine ⟨fun cursor error h htruncated => ?_, fun offset => hjoin _ (hfirst.starts offset)⟩
  rcases bind_eq_error_iff.1 h with h | ⟨a, middle, ha, h⟩
  · exact hjoin cursor (hfirst.mends _ _ h htruncated)
  · obtain ⟨more, value, after, hmore, hrest, hother⟩ := hmends a _ _ h htruncated
    exact ⟨more, value, after, bind_eq_ok_iff.2 ⟨a, _, haccepts.append ha more, hmore⟩, hrest,
      hother⟩

/-- The second part may finish after every value of the first part. -/
theorem completes_bind_all {first : Reader α} {next : α → Reader β} {front : Bytes → α → Prop}
    (haccepts : Accepts first front) (hfirst : Completes first kind)
    (hnext : ∀ a, Completes (next a) other) : Completes (first >>= next) other :=
  completes_bind haccepts hfirst (fun a _ => (hnext a).starts) fun a => (hnext a).mends

theorem completes_map {reader : Reader α} {language : Bytes → α → Prop} {f : α → β}
    (haccepts : Accepts reader language) (h : Completes reader kind)
    (hkind : ∀ a, kind a → other (f a)) : Completes (do return f (← reader)) other := by
  refine completes_bind haccepts h (fun a ha => (completes_pure (hkind a ha)).starts) ?_
  intro a cursor error hread
  cases hread

/-- The octets that are missing can be `01`, and then the last octet is that. -/
theorem completes_take (n : Nat) :
    Completes (take n) fun value => 0 < n → ∃ front, value = front ++ [0x01] := by
  have hfill : ∀ cursor : Cursor, cursor.rest.length < n → Finishes (take n)
      (fun value => 0 < n → ∃ front, value = front ++ [0x01]) cursor := by
    intro cursor hlength
    obtain ⟨missing, rfl⟩ := Nat.exists_eq_add_of_lt hlength
    refine ⟨List.replicate (missing + 1) 0x01, _, ⟨_, []⟩, (accepts_take _ _ _ _).2
      ⟨cursor.rest ++ List.replicate (missing + 1) 0x01, ⟨rfl, ?_⟩, ?_, rfl⟩, rfl, fun _ =>
      ⟨cursor.rest ++ List.replicate missing 0x01, ?_⟩⟩
    · simp [Nat.add_assoc]
    · simp [Cursor.append]
    · rw [List.replicate_succ', List.append_assoc]
  constructor
  · intro cursor error h _
    simp only [take, List.length_take] at h
    split at h
    · cases h
    · exact hfill cursor (by omega)
  · intro offset
    cases n with
    | zero => exact ⟨[], [], _, rfl, rfl, fun h => absurd h (Nat.lt_irrefl 0)⟩
    | succ n => exact hfill _ (Nat.succ_pos n)

theorem completes_number {width : Nat} (hwidth : 0 < width) :
    Completes (number width) fun n => n % 256 = 1 := by
  refine completes_map (accepts_take width) (completes_take width) fun value hvalue => ?_
  obtain ⟨front, rfl⟩ := hvalue hwidth
  rw [BigEndian.decode_append_singleton]
  show (256 * decode front + 1) % 256 = 1
  omega

/-- A number that is turned into a constant can be any. -/
theorem completes_number_as {width : Nat} (hwidth : 0 < width) (f : Nat → α) :
    Completes (do return f (← number width)) fun _ => True :=
  completes_map (accepts_number width) (completes_number hwidth) fun _ _ => trivial

/-- An octet that is missing can be the code of a text. -/
theorem completes_octet : Completes octet fun code => code = 1 :=
  completes_map (accepts_number 1) (completes_number Nat.one_pos) fun n hn =>
    UInt8.toNat_inj.1 (by simpa using hn)

/-- A 16-bit number of which octets are missing can be another one than zero. -/
theorem completes_word : Completes word fun n => n ≠ 0 := by
  refine completes_map (accepts_number 2) (completes_number Nat.two_pos) fun n hn hzero => ?_
  have hmod := congrArg UInt16.toNat hzero
  simp at hmod
  omega

theorem completes_text : Completes text fun _ => True :=
  completes_bind_all (accepts_number 2) (completes_number Nat.two_pos) fun n =>
    completes_map (accepts_take n) (completes_take n) fun _ _ => trivial

/-- A 16-bit number that is turned into a constant can be any. -/
theorem completes_word_as (f : UInt16 → α) :
    Completes (do return f (← word)) fun _ => True :=
  completes_map accepts_word completes_word fun _ _ => trivial

theorem completes_body (tag : Tag) : Completes (body tag) fun _ => True := by
  cases tag with
  | unusable => exact completes_pure trivial
  | utf8 => exact completes_map accepts_text completes_text fun _ _ => trivial
  | integer => exact completes_number_as (by decide) _
  | float => exact completes_number_as (by decide) _
  | long => exact completes_number_as (by decide) _
  | double => exact completes_number_as (by decide) _
  | classInfo => exact completes_word_as _
  | link kind => exact completes_word_as _
  | pair kind => exact completes_bind_all accepts_word completes_word fun _ => completes_word_as _
  | methodHandle =>
    exact completes_bind_all accepts_octet completes_octet fun _ => completes_word_as _

theorem completes_constant (index : Nat) : Completes (constant index) fun _ => True := by
  rw [constant_eq]
  refine completes_bind accepts_octet completes_octet ?_ fun code => ?_
  · rintro code rfl
    exact (completes_body .utf8).starts
  · cases Tag.ofCode? code with
    | none => exact mends_throw rfl
    | some tag => exact (completes_body tag).mends

theorem completes_slotsUnbounded (count index : Nat) (before : Array Constant) :
    Completes (slotsUnbounded count index before) fun _ => True := by
  induction hroom : count - index using Nat.strong_induction_on generalizing index before with
  | _ room ih =>
    rw [slotsUnbounded]
    split
    · refine completes_bind_all (accepts_constant index) (completes_constant index) fun next => ?_
      have hwidth := next.width_pos
      exact ih _ (by omega) _ _ rfl
    · exact completes_pure trivial

theorem completes_pool : Completes pool fun _ => True := by
  have hslots : ∀ count : UInt16,
      Completes (do return Pool.mk (← slotsUnbounded count.toNat 1 #[])) fun _ => True := fun _ =>
    completes_map (accepts_slotsUnbounded _ _ _) (completes_slotsUnbounded _ _ _) fun _ _ => trivial
  rw [pool_eq]
  -- a count of which octets are missing can be completed to one that leaves room for slot 0
  refine completes_bind accepts_word completes_word (fun count hcount => ?_) fun count => ?_
  · rw [if_neg hcount]
    exact (hslots count).starts
  · split
    · exact mends_throw rfl
    · exact (hslots count).mends

theorem completes_fields : Completes fields fun _ => True :=
  completes_bind_all accepts_word completes_word fun _ =>
    completes_bind_all accepts_word completes_word fun _ =>
      completes_bind_all accepts_pool completes_pool fun _ =>
        completes_bind_all accepts_word completes_word fun _ =>
          completes_bind_all accepts_word completes_word fun _ => completes_word_as _

/-! ## Forms and what follows them -/

/-- Octets start with one form at most. -/
theorem Accepts.unique {reader : Reader α} {language : Bytes → α → Prop}
    (h : Accepts reader language) {form form' rest rest' : Bytes} {value value' : α}
    (hform : language form value) (hform' : language form' value')
    (heq : form ++ rest = form' ++ rest') : form = form' ∧ value = value' := by
  have hread : reader ⟨0, form ++ rest⟩ = .ok (value, ⟨0 + form.length, rest⟩) :=
    (h _ _ _).2 ⟨form, hform, rfl, rfl⟩
  have hread' : reader ⟨0, form ++ rest⟩ = .ok (value', ⟨0 + form'.length, rest'⟩) :=
    (h _ _ _).2 ⟨form', hform', heq, rfl⟩
  rw [hread'] at hread
  obtain ⟨rfl, hcursor⟩ := Prod.mk.inj (Except.ok.inj hread)
  obtain rfl : rest' = rest := congrArg Cursor.rest hcursor
  exact ⟨List.append_cancel_right heq, rfl⟩

end Reader

/-! ## Whole files -/

/-- Octets that are no class file yet: some are missing. -/
def Unfinished (bytes : Bytes) : Prop :=
  ∃ offset needed, ofBytes bytes = .error (.truncated offset needed)

theorem ofBytes_eq_error_iff {bytes : Bytes} {error : ReadError} :
    ofBytes bytes = .error error ↔ Reader.head ⟨0, bytes⟩ = .error error :=
  Except.map_eq_error_iff

theorem ofBytes_append_of_ok {bytes : Bytes} {file : ClassFile} (h : ofBytes bytes = .ok file)
    (more : Bytes) : ofBytes (bytes ++ more) = .ok file := by
  obtain ⟨form, rest, hform, rfl⟩ := ofBytes_eq_ok_iff.1 h
  exact ofBytes_eq_ok_iff.2 ⟨form, rest ++ more, hform, List.append_assoc _ _ _⟩

/-- Octets of which none are missing are read or refused as they are, whatever follows them. -/
theorem ofBytes_append {bytes : Bytes} (h : ¬Unfinished bytes) (more : Bytes) :
    ofBytes (bytes ++ more) = ofBytes bytes := by
  cases hread : ofBytes bytes with
  | ok file => exact ofBytes_append_of_ok hread more
  | error error =>
    have htruncated : error.isTruncated = false := by
      rw [← Bool.not_eq_true, ReadError.isTruncated_iff]
      rintro ⟨offset, needed, rfl⟩
      exact h ⟨offset, needed, hread⟩
    exact ofBytes_eq_error_iff.2
      (Reader.steady_head.error (ofBytes_eq_error_iff.1 hread) htruncated more)

/-- Octets are reported as missing where they are missing. -/
theorem offset_le_of_truncated {bytes : Bytes} {offset needed : Nat}
    (h : ofBytes bytes = .error (.truncated offset needed)) :
    offset ≤ bytes.length ∧ bytes.length < offset + needed := by
  have hbounds := Reader.steady_head.truncated (ofBytes_eq_error_iff.1 h)
  simpa [Cursor.limit] using hbounds

/-- Octets that start with the magic number are completed by some others if any are missing. -/
theorem exists_append_eq_ok {bytes : Bytes} (hlength : 4 ≤ bytes.length) (h : Unfinished bytes) :
    ∃ more file, ofBytes (bytes ++ more) = .ok file := by
  obtain ⟨offset, needed, h⟩ := h
  rw [ofBytes_eq_error_iff, Reader.head_eq] at h
  rcases Reader.bind_eq_error_iff.1 h with h | ⟨found, middle, hfound, h⟩
  · exact absurd h (Reader.number_ne_error hlength _)
  · split at h
    · cases h
    · obtain ⟨more, file, after, hfile, -, -⟩ := Reader.completes_fields.mends _ _ h rfl
      refine ⟨more, file, Except.map_eq_ok_iff.2 ⟨(file, after), ?_, rfl⟩⟩
      refine Reader.bind_eq_ok_iff.2
        ⟨found, _, (Reader.accepts_number 4).append hfound more, ?_⟩
      rw [if_neg ‹_›]
      exact hfile

/-- The lengths of the starts of the octets that are read as a class file. -/
def readLengths (bytes : Bytes) : Set Nat :=
  {n | n ≤ bytes.length ∧ ∃ file, ofBytes (bytes.take n) = .ok file}

/-- The form of a head is the shortest start that is read. -/
theorem isLeast_readLengths {form : Bytes} {file : ClassFile} (h : HeadForm form file)
    (rest : Bytes) : IsLeast (readLengths (form ++ rest)) form.length := by
  constructor
  · refine ⟨by simp, file, ?_⟩
    rw [List.take_left]
    exact ofBytes_eq_ok_iff.2 ⟨form, [], h, (List.append_nil form).symm⟩
  · rintro n ⟨-, other, hother⟩
    obtain ⟨start, between, hstart, htake⟩ := ofBytes_eq_ok_iff.1 hother
    have heq : form ++ rest = start ++ (between ++ (form ++ rest).drop n) := by
      rw [← List.append_assoc, ← htake, List.take_append_drop]
    obtain ⟨rfl, -⟩ := Reader.accepts_head.unique h hstart heq
    have hlength := congrArg List.length htake
    simp only [List.length_take, List.length_append] at hlength
    omega

/-- **What has been read stays, and what is missing is told exactly.** Octets that are read as a
class file, or refused for another reason than missing octets, are so whatever follows them. Of
octets that are read, every start that is shorter than the shortest one that is read lacks octets,
at an offset that it reaches and for as many octets as it does not have. Octets that lack some after
the magic number start a class file. -/
theorem ofBytes_extension (bytes : Bytes) :
    (¬Unfinished bytes → ∀ more, ofBytes (bytes ++ more) = ofBytes bytes) ∧
    (∀ file, ofBytes bytes = .ok file →
      ∃ n, IsLeast (readLengths bytes) n ∧ ∀ k < n, ∃ offset needed,
        ofBytes (bytes.take k) = .error (.truncated offset needed) ∧
          offset ≤ k ∧ k < offset + needed) ∧
    (4 ≤ bytes.length → Unfinished bytes → ∃ more file, ofBytes (bytes ++ more) = .ok file) := by
  refine ⟨ofBytes_append, fun file h => ?_, exists_append_eq_ok⟩
  obtain ⟨form, rest, hform, rfl⟩ := ofBytes_eq_ok_iff.1 h
  have hleast := isLeast_readLengths hform rest
  refine ⟨form.length, hleast, fun k hk => ?_⟩
  have hinside : k ≤ (form ++ rest).length := Nat.le_trans (Nat.le_of_lt hk) hleast.1.1
  have hlength : ((form ++ rest).take k).length = k := List.length_take_of_le hinside
  -- a start that lacks nothing would be read as the whole is
  have hunfinished : Unfinished ((form ++ rest).take k) := by
    by_contra hfinished
    have hsame := ofBytes_append hfinished ((form ++ rest).drop k)
    rw [List.take_append_drop, h] at hsame
    exact absurd (hleast.2 ⟨hinside, file, hsame.symm⟩) (Nat.not_le.2 hk)
  obtain ⟨offset, needed, herror⟩ := hunfinished
  obtain ⟨hoffset, hneeded⟩ := offset_le_of_truncated herror
  rw [hlength] at hoffset hneeded
  exact ⟨offset, needed, herror, hoffset, hneeded⟩

/-- A class file without constants, and one that ends inside the length of a text. -/
theorem ofBytes_extension_cut_text :
    (¬Unfinished [0xCA, 0xFE, 0xBA, 0xBE, 0, 0, 0, 52, 0, 1, 0, 0x21, 0, 0, 0, 0] ∧
      ofBytes ([0xCA, 0xFE, 0xBA, 0xBE, 0, 0, 0, 52, 0, 1, 0, 0x21, 0, 0, 0, 0] ++ [0xFF]) =
        ofBytes [0xCA, 0xFE, 0xBA, 0xBE, 0, 0, 0, 52, 0, 1, 0, 0x21, 0, 0, 0, 0]) ∧
    (ofBytes [0xCA, 0xFE, 0xBA, 0xBE, 0, 0, 0, 52, 0, 1, 0, 0x21, 0, 0, 0, 0] =
        .ok ⟨⟨52, 0⟩, ⟨#[]⟩, 0x21, 0, 0⟩ ∧
      ∃ n, IsLeast (readLengths
          [0xCA, 0xFE, 0xBA, 0xBE, 0, 0, 0, 52, 0, 1, 0, 0x21, 0, 0, 0, 0]) n ∧
        ∀ k < n, ∃ offset needed,
          ofBytes ([0xCA, 0xFE, 0xBA, 0xBE, 0, 0, 0, 52, 0, 1, 0, 0x21, 0, 0, 0, 0].take k) =
            .error (.truncated offset needed) ∧ offset ≤ k ∧ k < offset + needed) ∧
    (Unfinished [0xCA, 0xFE, 0xBA, 0xBE, 0, 0, 0, 52, 0, 2, 1, 0] ∧
      ∃ more file,
        ofBytes ([0xCA, 0xFE, 0xBA, 0xBE, 0, 0, 0, 52, 0, 2, 1, 0] ++ more) = .ok file) := by
  have hread : ofBytes [0xCA, 0xFE, 0xBA, 0xBE, 0, 0, 0, 52, 0, 1, 0, 0x21, 0, 0, 0, 0] =
      .ok ⟨⟨52, 0⟩, ⟨#[]⟩, 0x21, 0, 0⟩ := by cbv
  have hfinished :
      ¬Unfinished [0xCA, 0xFE, 0xBA, 0xBE, 0, 0, 0, 52, 0, 1, 0, 0x21, 0, 0, 0, 0] := by
    rintro ⟨offset, needed, h⟩
    rw [hread] at h
    cases h
  have hcut : Unfinished [0xCA, 0xFE, 0xBA, 0xBE, 0, 0, 0, 52, 0, 2, 1, 0] :=
    ⟨11, 2, by cbv⟩
  exact ⟨⟨hfinished, (ofBytes_extension _).1 hfinished [0xFF]⟩,
    ⟨hread, (ofBytes_extension _).2.1 _ hread⟩,
    ⟨hcut, (ofBytes_extension _).2.2 (by decide) hcut⟩⟩

end ClassImports.ClassFile
