import ClassImports.Text.Utf8

/-!
# Modified UTF-8

The form in which a class file keeps text. It differs from UTF-8 in two places: NUL is written as
`C0 80`, so that no octet is zero, and a character above U+FFFF is written as its two surrogates,
each in three octets. Reading never fails: whatever is malformed becomes U+FFFD.

There are two readings. `decodeSequences` goes through the octets one sequence at a time and is
what the form asks for. Octets that hold neither `00`, `C0` nor `ED` and are well-formed UTF-8 are
taken as UTF-8 instead; this differs from the first reading only on four-octet sequences, which
the modified form does not have and UTF-8 does.
-/

namespace ClassImports.ModifiedUtf8

open Utf8 (isContinuation payload)

/-- What a malformed sequence reads as. -/
def replacement : Char := '\uFFFD'

/-- The character with number `n`, or the replacement where there is none. -/
def ofScalar (n : Nat) : Char :=
  if n.isValidChar then Char.ofNat n else replacement

/-! ## Writing -/

/-- Three octets for a 16-bit unit. -/
def encodeUnit (unit : Nat) : Bytes :=
  [UInt8.ofNat (0xE0 + unit / 4096), UInt8.ofNat (0x80 + unit / 64 % 64),
    UInt8.ofNat (0x80 + unit % 64)]

/-- The octets of one character: NUL in two, a character above U+FFFF as its surrogate pair, all
others as in UTF-8. -/
def encodeChar (c : Char) : Bytes :=
  let n := c.toNat
  if n = 0 then
    [0xC0, 0x80]
  else if n < 0x10000 then
    Utf8.encodeChar c
  else
    encodeUnit (0xD800 + (n - 0x10000) / 1024) ++ encodeUnit (0xDC00 + (n - 0x10000) % 1024)

/-- The octets of a text. -/
def encode (text : String) : Bytes :=
  text.toList.flatMap encodeChar

/-! ## Reading one sequence at a time -/

/-- The 16-bit unit that the octets start with, if they start with three octets for one. -/
def unit? : Bytes → Option (Nat × Bytes)
  | a :: b :: c :: rest =>
    if 0xE0 ≤ a && a ≤ 0xEF && isContinuation b && isContinuation c then
      some (a.toNat % 16 * 4096 + payload b * 64 + payload c, rest)
    else none
  | _ => none

/-- The first half of a surrogate pair. -/
def isHighSurrogate (unit : Nat) : Bool :=
  0xD800 ≤ unit && unit ≤ 0xDBFF

/-- The second half of a surrogate pair. -/
def isLowSurrogate (unit : Nat) : Bool :=
  0xDC00 ≤ unit && unit ≤ 0xDFFF

/-- What follows a high surrogate: the character of the pair if a low one comes next, and the
replacement for the high one alone otherwise. -/
def afterHigh (high : Nat) (rest : Bytes) : Char × Bytes :=
  match unit? rest with
  | some (low, after) =>
    if isLowSurrogate low then
      (ofScalar (0x10000 + (high - 0xD800) * 1024 + (low - 0xDC00)), after)
    else (replacement, rest)
  | none => (replacement, rest)

/-- The character that the octets `lead :: rest` start with, and the octets after it. A lone lead
octet, a stray continuation octet, `00` and `F0` to `FF` are one replacement each; a high
surrogate without its low one is a replacement for its three octets. -/
def sequence (lead : UInt8) (rest : Bytes) : Char × Bytes :=
  if 0x01 ≤ lead ∧ lead ≤ 0x7F then
    (Char.ofNat lead.toNat, rest)
  else if 0xC0 ≤ lead ∧ lead ≤ 0xDF then
    match rest with
    | b :: after =>
      if isContinuation b then (ofScalar (lead.toNat % 32 * 64 + payload b), after)
      else (replacement, rest)
    | [] => (replacement, rest)
  else if 0xE0 ≤ lead ∧ lead ≤ 0xEF then
    match unit? (lead :: rest) with
    | some (unit, after) =>
      if isHighSurrogate unit then afterHigh unit after else (ofScalar unit, after)
    | none => (replacement, rest)
  else (replacement, rest)

theorem length_of_unit? {bytes after : Bytes} {unit : Nat} (h : unit? bytes = some (unit, after)) :
    after.length + 3 = bytes.length := by
  unfold unit? at h
  grind

theorem length_afterHigh_le (high : Nat) (rest : Bytes) :
    (afterHigh high rest).2.length ≤ rest.length := by
  have h := @length_of_unit? rest
  unfold afterHigh
  grind

/-- What follows a sequence is no longer than what follows its first octet. -/
theorem length_sequence_le (lead : UInt8) (rest : Bytes) :
    (sequence lead rest).2.length ≤ rest.length := by
  have h := @length_of_unit? (lead :: rest)
  have h' := length_afterHigh_le
  unfold sequence
  grind

/-- Reads octets to the end; `before` holds the characters read so far, last one first. -/
def decodeSequencesFrom (before : List Char) : Bytes → List Char
  | [] => before.reverse
  | lead :: rest =>
    let next := sequence lead rest
    decodeSequencesFrom (next.1 :: before) next.2
termination_by bytes => bytes.length
decreasing_by
  have := length_sequence_le lead rest
  simp only [List.length_cons]
  omega

/-- The text of the octets, read one sequence at a time. -/
def decodeSequences (bytes : Bytes) : List Char :=
  decodeSequencesFrom [] bytes

theorem decodeSequencesFrom_cons (before : List Char) (lead : UInt8) (rest : Bytes) :
    decodeSequencesFrom before (lead :: rest) =
      decodeSequencesFrom ((sequence lead rest).1 :: before) (sequence lead rest).2 := by
  rw [decodeSequencesFrom]

theorem decodeSequencesFrom_eq_append (before : List Char) :
    ∀ bytes, decodeSequencesFrom before bytes = before.reverse ++ decodeSequences bytes
  | [] => by simp [decodeSequences, decodeSequencesFrom]
  | lead :: rest => by
    have := length_sequence_le lead rest
    rw [decodeSequences, decodeSequencesFrom_cons, decodeSequencesFrom_cons,
      decodeSequencesFrom_eq_append _ (sequence lead rest).2,
      decodeSequencesFrom_eq_append [(sequence lead rest).1] (sequence lead rest).2]
    simp
termination_by bytes => bytes.length

@[simp] theorem decodeSequences_nil : decodeSequences [] = [] := by
  simp [decodeSequences, decodeSequencesFrom]

theorem decodeSequences_cons (lead : UInt8) (rest : Bytes) :
    decodeSequences (lead :: rest) =
      (sequence lead rest).1 :: decodeSequences (sequence lead rest).2 := by
  rw [decodeSequences, decodeSequencesFrom_cons, decodeSequencesFrom_eq_append]
  rfl

/-! ## Reading -/

/-- The octets `00`, `C0` and `ED`, with which the sequences begin that UTF-8 reads otherwise. -/
def isTelling (byte : UInt8) : Bool :=
  byte = 0x00 || byte = 0xC0 || byte = 0xED

/-- The text of the octets when they can be taken as UTF-8. -/
def decodePlain? (bytes : Bytes) : Option (List Char) :=
  if bytes.any isTelling then none else Utf8.decode? bytes

/-- The characters that octets stand for. -/
def decodeChars (bytes : Bytes) : List Char :=
  (decodePlain? bytes).getD (decodeSequences bytes)

/-- The text that octets stand for. -/
def decode (bytes : Bytes) : String :=
  String.ofList (decodeChars bytes)

end ClassImports.ModifiedUtf8
