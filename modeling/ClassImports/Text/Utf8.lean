import ClassImports.BigEndian

/-!
# UTF-8

The standard encoding form: `encodeChar` writes one character, `decode?` reads octets and refuses
whatever is not well formed (a stray or missing continuation octet, a form longer than needed, a
surrogate, a value above U+10FFFF). `sequence?` is the single step: the character that starts the
octets, and what follows it.
-/

namespace ClassImports.Utf8

/-- The octets of one character. -/
def encodeChar (c : Char) : Bytes :=
  let n := c.toNat
  if n < 0x80 then
    [UInt8.ofNat n]
  else if n < 0x800 then
    [UInt8.ofNat (0xC0 + n / 64), UInt8.ofNat (0x80 + n % 64)]
  else if n < 0x10000 then
    [UInt8.ofNat (0xE0 + n / 4096), UInt8.ofNat (0x80 + n / 64 % 64), UInt8.ofNat (0x80 + n % 64)]
  else
    [UInt8.ofNat (0xF0 + n / 262144), UInt8.ofNat (0x80 + n / 4096 % 64),
      UInt8.ofNat (0x80 + n / 64 % 64), UInt8.ofNat (0x80 + n % 64)]

/-- The octets of a text. -/
def encode (text : List Char) : Bytes :=
  text.flatMap encodeChar

/-- A continuation octet is one of `80` to `BF`. -/
def isContinuation (byte : UInt8) : Bool :=
  0x80 ≤ byte && byte ≤ 0xBF

/-- The six bits that a continuation octet carries. -/
def payload (byte : UInt8) : Nat :=
  byte.toNat % 64

/-- Reads the character that starts the octets `lead :: rest`, if they start with a well-formed
sequence, and gives the octets after it. -/
def sequence? (lead : UInt8) (rest : Bytes) : Option (Char × Bytes) :=
  if lead < 0x80 then
    some (Char.ofNat lead.toNat, rest)
  else if lead < 0xC2 then
    none
  else if lead < 0xE0 then
    match rest with
    | b :: rest =>
      if isContinuation b then some (Char.ofNat (lead.toNat % 32 * 64 + payload b), rest) else none
    | _ => none
  else if lead < 0xF0 then
    match rest with
    | b :: c :: rest =>
      if isContinuation b && isContinuation c && (lead != 0xE0 || 0xA0 ≤ b) &&
          (lead != 0xED || b ≤ 0x9F) then
        some (Char.ofNat (lead.toNat % 16 * 4096 + payload b * 64 + payload c), rest)
      else none
    | _ => none
  else if lead < 0xF5 then
    match rest with
    | b :: c :: d :: rest =>
      if isContinuation b && isContinuation c && isContinuation d && (lead != 0xF0 || 0x90 ≤ b) &&
          (lead != 0xF4 || b ≤ 0x8F) then
        some (Char.ofNat (lead.toNat % 8 * 262144 + payload b * 4096 + payload c * 64 + payload d),
          rest)
      else none
    | _ => none
  else none

/-- What follows a sequence is no longer than what follows its first octet. -/
theorem length_of_sequence? {lead : UInt8} {rest after : Bytes} {c : Char}
    (h : sequence? lead rest = some (c, after)) : after.length ≤ rest.length := by
  unfold sequence? at h
  grind

/-- Reads octets to the end; `before` holds the characters read so far, last one first. -/
def decodeFrom? (before : List Char) : Bytes → Option (List Char)
  | [] => some before.reverse
  | lead :: rest =>
    match _ : sequence? lead rest with
    | some (c, after) => decodeFrom? (c :: before) after
    | none => none
termination_by bytes => bytes.length
decreasing_by
  have := length_of_sequence? ‹_›
  simp only [List.length_cons]
  omega

/-- The text that octets stand for, if they are well-formed UTF-8. -/
def decode? (bytes : Bytes) : Option (List Char) :=
  decodeFrom? [] bytes

theorem decodeFrom?_cons (before : List Char) (lead : UInt8) (rest : Bytes) :
    decodeFrom? before (lead :: rest) =
      (sequence? lead rest).bind fun next => decodeFrom? (next.1 :: before) next.2 := by
  rw [decodeFrom?]
  split <;> simp_all

theorem decodeFrom?_eq_map (before : List Char) :
    ∀ bytes, decodeFrom? before bytes = (decode? bytes).map (before.reverse ++ ·)
  | [] => by simp [decode?, decodeFrom?]
  | lead :: rest => by
    rw [decode?, decodeFrom?_cons, decodeFrom?_cons]
    cases h : sequence? lead rest with
    | none => rfl
    | some next =>
      have := length_of_sequence? h
      simp [decodeFrom?_eq_map (next.1 :: before) next.2, decodeFrom?_eq_map [next.1] next.2,
        Function.comp_def]
termination_by bytes => bytes.length

@[simp] theorem decode?_nil : decode? [] = some [] := by
  simp [decode?, decodeFrom?]

theorem decode?_cons (lead : UInt8) (rest : Bytes) :
    decode? (lead :: rest) =
      (sequence? lead rest).bind fun next => (decode? next.2).map (next.1 :: ·) := by
  rw [decode?, decodeFrom?_cons]
  congr 1
  funext next
  rw [decodeFrom?_eq_map]
  rfl

end ClassImports.Utf8
