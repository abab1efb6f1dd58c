import Mathlib
import ClassImports.Proofs.ClassFile.RoundTrip
import ClassImports.Proofs.ClassFile.Truncation
import ClassImports.Proofs.ModifiedUtf8.Size

/-!
# Class files written again

What is written for a class file that was read. Only a text can be in the way, one that takes more
octets than before since what was malformed in it is now U+FFFD (`encodeConstants_eq_error_iff`).
Where the payloads of the texts are what is written for them, the octets that were read are written
again (`encodeConstants_of_spelling`).
-/

namespace ClassImports

/-- The octets that a text takes which is too long to be written. -/
def Constant.excess? : Constant → Option Nat
  | .utf8 text =>
    let length := (ModifiedUtf8.encode text).length
    if length ≤ 65535 then none else some length
  | _ => none

theorem Constant.excess?_eq_some_iff {constant : Constant} {length : Nat} :
    constant.excess? = some length ↔
      ∃ text, constant = .utf8 text ∧ 65535 < (ModifiedUtf8.encode text).length ∧
        length = (ModifiedUtf8.encode text).length := by
  cases constant with
  | utf8 text =>
    simp only [excess?, Constant.utf8.injEq, exists_eq_left']
    split
    · simp; omega
    · next h => simp [Nat.lt_of_not_le h, eq_comm]
  | _ => simp [excess?]

namespace ClassFile

open BigEndian (encode)

/-! ## What cannot be written -/

theorem encodeConstant_eq_error_iff {constant : Constant} {error : WriteError} :
    encodeConstant constant = .error error ↔
      ∃ length, constant.excess? = some length ∧ error = .textTooLong length := by
  rw [encodeConstant, Except.map_eq_error_iff]
  cases constant with
  | utf8 text =>
    simp only [encodeBody, encodeText, Constant.excess?]
    split
    · simp
    · simp [eq_comm]
  | _ => simp [encodeBody, Constant.excess?]

/-- The first text that is too long is in the way, and nothing else. -/
theorem encodeConstants_eq_error_iff {slots : List Constant} {error : WriteError} :
    encodeConstants slots = .error error ↔
      ∃ length, slots.findSome? Constant.excess? = some length ∧ error = .textTooLong length := by
  induction slots with
  | nil => simp [encodeConstants, Except.map, pure, Except.pure]
  | cons constant rest ih =>
    rw [encodeConstants_cons, Except.bind_eq_error_iff, encodeConstant_eq_error_iff]
    simp only [Except.map_eq_error_iff, ih, List.findSome?_cons]
    cases hconstant : encodeConstant constant with
    | error _ =>
      obtain ⟨length, hexcess, -⟩ := encodeConstant_eq_error_iff.1 hconstant
      simp [hexcess]
    | ok form =>
      have hfits : constant.excess? = none := by
        rw [Option.eq_none_iff_forall_ne_some]
        intro length hexcess
        have hfails := encodeConstant_eq_error_iff.2 ⟨length, hexcess, rfl⟩
        rw [hconstant] at hfails
        cases hfails
      simp [hfits]

/-- What is written for slots fails on texts that are too long, whichever is the first of them. -/
theorem exists_encodeConstants_eq_error_iff {slots : List Constant} :
    (∃ error, encodeConstants slots = .error error) ↔
      ∃ text, .utf8 text ∈ slots ∧ 65535 < (ModifiedUtf8.encode text).length := by
  constructor
  · rintro ⟨error, h⟩
    obtain ⟨length, hfirst, -⟩ := encodeConstants_eq_error_iff.1 h
    obtain ⟨constant, hmem, hexcess⟩ := List.exists_of_findSome?_eq_some hfirst
    obtain ⟨text, rfl, hlong, -⟩ := Constant.excess?_eq_some_iff.1 hexcess
    exact ⟨text, hmem, hlong⟩
  · rintro ⟨text, hmem, hlong⟩
    have hexcess := Constant.excess?_eq_some_iff.2 ⟨text, rfl, hlong, rfl⟩
    have hsome : (slots.findSome? Constant.excess?).isSome :=
      List.findSome?_isSome_iff.2 ⟨_, hmem, by rw [hexcess]; rfl⟩
    obtain ⟨length, hfirst⟩ := Option.isSome_iff_exists.1 hsome
    exact ⟨_, encodeConstants_eq_error_iff.2 ⟨length, hfirst, rfl⟩⟩

/-! ## What is written for spellings -/

/-- The octets of a text constant with the given payload. -/
def textForm (payload : Bytes) : Bytes :=
  1 :: (encode 2 payload.length ++ payload)

theorem drop_textForm (payload : Bytes) : (textForm payload).drop 3 = payload :=
  rfl

/-- A constant is spelled as it is written, if the payload of a text is what is written for it. -/
theorem encodeConstant_of_spelling {form : Bytes} {constant : Constant}
    (h : Spelling form constant)
    (hcanonical : ∀ payload, form = textForm payload →
      ModifiedUtf8.encode (ModifiedUtf8.decode payload) = payload) :
    encodeConstant constant = .ok form := by
  obtain ⟨code, fields, hcode, hfields, rfl⟩ := h
  have hbody : encodeBody constant = .ok fields := by
    cases hfields with
    | @utf8 payload hlength =>
      cases hcode
      simp only [encodeBody, encodeText, hcanonical payload rfl, if_pos hlength]
    | _ => rfl
  rw [encodeConstant, hcode, hbody]
  rfl

theorem encodeConstants_of_spelling {forms : List Bytes} {constants : List Constant}
    (h : List.Forall₂ Spelling forms constants)
    (hcanonical : ∀ payload, textForm payload ∈ forms →
      ModifiedUtf8.encode (ModifiedUtf8.decode payload) = payload) :
    encodeConstants constants = .ok forms.flatten := by
  induction h with
  | nil => rfl
  | @cons form constant forms constants hform hforms ih =>
    have hfirst := encodeConstant_of_spelling hform fun payload heq =>
      hcanonical payload (heq ▸ List.mem_cons_self)
    have hrest := ih fun payload hmem => hcanonical payload (List.mem_cons_of_mem _ hmem)
    rw [encodeConstants_cons, hfirst, hrest]
    rfl

/-- A text among the constants is what the payload of one of their spellings reads as. -/
theorem exists_textForm_mem {forms : List Bytes} {constants : List Constant}
    (h : List.Forall₂ Spelling forms constants) {text : String} (htext : .utf8 text ∈ constants) :
    ∃ payload, textForm payload ∈ forms ∧ text = ModifiedUtf8.decode payload := by
  induction h with
  | nil => cases htext
  | @cons form constant forms constants hform hforms ih =>
    rcases List.mem_cons.1 htext with rfl | htext
    · obtain ⟨code, fields, hcode, hfields, rfl⟩ := hform
      cases hfields with
      | @utf8 payload hlength =>
        cases hcode
        exact ⟨payload, List.mem_cons_self, rfl⟩
    · obtain ⟨payload, hmem, rfl⟩ := ih htext
      exact ⟨payload, List.mem_cons_of_mem _ hmem, rfl⟩

/-! ## Files -/

/-- The spellings of the constants of the class file that octets start with, in order: they follow
the count of slots, which they fill. -/
def ConstantForms (bytes : Bytes) (forms : List Bytes) : Prop :=
  ∃ count constants rest, 1 ≤ count ∧ count ≤ 65535 ∧ List.Forall₂ Spelling forms constants ∧
    Pool.Fills count 1 constants ∧ bytes.drop 8 = encode 2 count ++ (forms.flatten ++ rest)

theorem drop_version (minor major : Nat) (tail : Bytes) :
    (encode 4 magic ++ (encode 2 minor ++ (encode 2 major ++ tail))).drop 8 = tail :=
  rfl

theorem exists_constantForms {bytes : Bytes} {file : ClassFile} (h : ofBytes bytes = .ok file) :
    ∃ forms, ConstantForms bytes forms := by
  obtain ⟨_, rest, ⟨_, ⟨count, forms, constants, hpos, hmax, hforms, rfl, hfills, -⟩, rfl⟩, rfl⟩ :=
    ofBytes_eq_ok_iff.1 h
  refine ⟨forms, count, constants, encode 2 file.accessFlags.toNat ++
    (encode 2 file.thisClass.toNat ++ (encode 2 file.superClass.toNat ++ rest)), hpos, hmax,
    hforms, hfills, ?_⟩
  simp only [List.append_assoc, drop_version]

/-- Octets that start with the form of a pool and with spellings that fill a pool start with the
same in both readings. -/
theorem PoolForm.eq_of_spelled {form rest after : Bytes} {pool : Pool} {count : Nat}
    {forms : List Bytes} {constants : List Constant} (h : PoolForm form pool) (hpos : 1 ≤ count)
    (hmax : count ≤ 65535) (hforms : List.Forall₂ Spelling forms constants)
    (hfills : Pool.Fills count 1 constants)
    (heq : form ++ rest = encode 2 count ++ (forms.flatten ++ after)) :
    form = encode 2 count ++ forms.flatten ∧
      pool.toList = (Pool.ofConstants constants).toList.take count := by
  have hspelled : PoolForm (encode 2 count ++ forms.flatten)
      ⟨((constants.flatMap Pool.withShadow).take (count - 1)).toArray⟩ :=
    ⟨count, forms, constants, hpos, hmax, hforms, rfl, hfills,
      (Pool.toList_eq_take_iff hpos).2 rfl⟩
  rw [← List.append_assoc] at heq
  obtain ⟨rfl, rfl⟩ := Reader.accepts_pool.unique h hspelled heq
  exact ⟨rfl, (Pool.toList_eq_take_iff hpos).2 rfl⟩

/-- The spellings of the constants of a class file that was read are those of its usable constants,
and the head around them is what was read. -/
theorem ConstantForms.of_ofBytes {bytes : Bytes} {forms : List Bytes} {file : ClassFile}
    (hforms : ConstantForms bytes forms) (h : ofBytes bytes = .ok file) :
    List.Forall₂ Spelling forms (Pool.usable file.pool.slots.toList) ∧
      HeadForm (frame file forms.flatten) file ∧
      ∃ rest, bytes = frame file forms.flatten ++ rest := by
  obtain ⟨_, rest, hhead, rfl⟩ := ofBytes_eq_ok_iff.1 h
  obtain ⟨poolForm, hpool, rfl⟩ := id hhead
  obtain ⟨count, constants, after, hpos, hmax, hspelled, hfills, hdrop⟩ := hforms
  simp only [List.append_assoc, drop_version] at hdrop
  obtain ⟨rfl, hslots⟩ := hpool.eq_of_spelled hpos hmax hspelled hfills hdrop
  have husable : Pool.usable file.pool.slots.toList = constants := by
    rw [(Pool.toList_eq_take_iff hpos).1 hslots,
      Pool.usable_take_flatMap (unusable_notMem_of_spelling hspelled) hfills]
  have hframe : frame file forms.flatten = encode 4 magic ++
      (encode 2 file.version.minor.toNat ++ (encode 2 file.version.major.toNat ++
        (encode 2 count ++ forms.flatten ++ (encode 2 file.accessFlags.toNat ++
          (encode 2 file.thisClass.toNat ++ encode 2 file.superClass.toNat))))) := by
    rw [frame, Pool.count_eq_of_fills hfills hslots]
    simp only [word, List.append_assoc]
  rw [husable, hframe]
  exact ⟨hspelled, hhead, rest, rfl⟩

theorem count_le_of_ofBytes {bytes : Bytes} {file : ClassFile} (h : ofBytes bytes = .ok file) :
    file.pool.count ≤ 65535 := by
  obtain ⟨_, _, ⟨_, hpool, -⟩, -⟩ := ofBytes_eq_ok_iff.1 h
  exact hpool.count_eq.1

/-- What is written for a class file that was read: its frame around what is written for the usable
constants. -/
theorem toBytes_of_ofBytes_eq_map {bytes : Bytes} {file : ClassFile}
    (h : ofBytes bytes = .ok file) :
    toBytes file = (encodeConstants (Pool.usable file.pool.slots.toList)).map fun constants =>
      frame file constants ++ emptyTables := by
  rw [toBytes_eq_map (count_le_of_ofBytes h), encodeConstants_usable]

/-- **A class file that was read can be written again unless a text has grown.** It reads back if it
can be written, and otherwise a text of the pool, written again, takes more than 65535 octets. That
needs a payload of more than 21845 octets, since no payload grows to more than three times its size.
If each payload is what is written for its text, what is written is the shortest start that was
read, with empty tables after it. -/
theorem toBytes_of_ofBytes (bytes : Bytes) (file : ClassFile) (h : ofBytes bytes = .ok file) :
    ((∃ octets, toBytes file = .ok octets ∧ ofBytes octets = .ok file) ∨
      ∃ length, toBytes file = .error (.textTooLong length)) ∧
    ((∃ error, toBytes file = .error error) ↔
      ∃ text, .utf8 text ∈ file.pool.slots.toList ∧
        65535 < (ModifiedUtf8.encode text).length) ∧
    (∃ forms, ConstantForms bytes forms) ∧
    (∀ forms, ConstantForms bytes forms →
      (∀ payload, textForm payload ∈ forms → payload.length ≤ 21845) →
        ∃ octets, toBytes file = .ok octets) ∧
    (∀ payload,
      (ModifiedUtf8.encode (ModifiedUtf8.decode payload)).length ≤ 3 * payload.length) ∧
    (∀ forms, ConstantForms bytes forms →
      (∀ payload, textForm payload ∈ forms →
        ModifiedUtf8.encode (ModifiedUtf8.decode payload) = payload) →
      ∃ n, IsLeast (readLengths bytes) n ∧
        toBytes file = .ok (bytes.take n ++ List.replicate 8 0)) := by
  have hfails : (∃ error, toBytes file = .error error) ↔
      ∃ text, .utf8 text ∈ file.pool.slots.toList ∧
        65535 < (ModifiedUtf8.encode text).length := by
    simp only [toBytes_eq_map (count_le_of_ofBytes h), Except.map_eq_error_iff]
    exact exists_encodeConstants_eq_error_iff
  refine ⟨?_, hfails, exists_constantForms h, fun forms hforms hsmall => ?_,
    ModifiedUtf8.length_encode_decode_le, fun forms hforms hcanonical => ?_⟩
  · cases hwrite : toBytes file with
    | ok octets =>
      obtain ⟨form, hform, rfl⟩ := headForm_of_toBytes hwrite (wellLaidOut_of_ofBytes h)
      exact .inl ⟨_, rfl, ofBytes_eq_ok_iff.2 ⟨form, emptyTables, hform, rfl⟩⟩
    | error error =>
      rw [toBytes_of_ofBytes_eq_map h, Except.map_eq_error_iff] at hwrite
      obtain ⟨length, -, rfl⟩ := encodeConstants_eq_error_iff.1 hwrite
      exact .inr ⟨length, rfl⟩
  · cases hwrite : toBytes file with
    | ok octets => exact ⟨octets, rfl⟩
    | error error =>
      obtain ⟨text, htext, hlong⟩ := hfails.1 ⟨error, hwrite⟩
      obtain ⟨hspelled, -, -⟩ := hforms.of_ofBytes h
      have husable : .utf8 text ∈ Pool.usable file.pool.slots.toList := by
        simp [Pool.usable, htext]
      obtain ⟨payload, hpayload, rfl⟩ := exists_textForm_mem hspelled husable
      have hgrowth := ModifiedUtf8.length_encode_decode_le payload
      have hlength := hsmall payload hpayload
      omega
  · obtain ⟨hspelled, hhead, rest, rfl⟩ := hforms.of_ofBytes h
    refine ⟨_, isLeast_readLengths hhead rest, ?_⟩
    rw [toBytes_of_ofBytes_eq_map h, encodeConstants_of_spelling hspelled hcanonical,
      List.take_left]
    rfl

/-- A text and a wide constant in the last slot, and an octet after the head. -/
theorem toBytes_of_ofBytes_wide_last :
    ofBytes [0xCA, 0xFE, 0xBA, 0xBE, 0, 0, 0, 52, 0, 3, 1, 0, 1, 0x61,
        5, 0, 0, 0, 0, 0, 0, 0, 7, 0, 0x21, 0, 1, 0, 0, 0xFF] =
      .ok ⟨⟨52, 0⟩, ⟨#[.utf8 "a", .long 7]⟩, 0x21, 1, 0⟩ ∧
    ConstantForms [0xCA, 0xFE, 0xBA, 0xBE, 0, 0, 0, 52, 0, 3, 1, 0, 1, 0x61,
        5, 0, 0, 0, 0, 0, 0, 0, 7, 0, 0x21, 0, 1, 0, 0, 0xFF]
      [[1, 0, 1, 0x61], [5, 0, 0, 0, 0, 0, 0, 0, 7]] ∧
    (∀ payload, textForm payload ∈ [[1, 0, 1, 0x61], [5, 0, 0, 0, 0, 0, 0, 0, 7]] →
      payload.length ≤ 21845 ∧
        ModifiedUtf8.encode (ModifiedUtf8.decode payload) = payload) ∧
    (∃ octets, toBytes ⟨⟨52, 0⟩, ⟨#[.utf8 "a", .long 7]⟩, 0x21, 1, 0⟩ = .ok octets) ∧
    ∃ n, IsLeast (readLengths [0xCA, 0xFE, 0xBA, 0xBE, 0, 0, 0, 52, 0, 3, 1, 0, 1, 0x61,
        5, 0, 0, 0, 0, 0, 0, 0, 7, 0, 0x21, 0, 1, 0, 0, 0xFF]) n ∧
      toBytes ⟨⟨52, 0⟩, ⟨#[.utf8 "a", .long 7]⟩, 0x21, 1, 0⟩ =
        .ok ([0xCA, 0xFE, 0xBA, 0xBE, 0, 0, 0, 52, 0, 3, 1, 0, 1, 0x61,
          5, 0, 0, 0, 0, 0, 0, 0, 7, 0, 0x21, 0, 1, 0, 0, 0xFF].take n ++ List.replicate 8 0) := by
  have hread : ofBytes [0xCA, 0xFE, 0xBA, 0xBE, 0, 0, 0, 52, 0, 3, 1, 0, 1, 0x61,
      5, 0, 0, 0, 0, 0, 0, 0, 7, 0, 0x21, 0, 1, 0, 0, 0xFF] =
    .ok ⟨⟨52, 0⟩, ⟨#[.utf8 "a", .long 7]⟩, 0x21, 1, 0⟩ := by cbv
  have htext : Spelling [1, 0, 1, 0x61] (.utf8 (ModifiedUtf8.decode [0x61])) :=
    ⟨1, [0, 1, 0x61], rfl, .utf8 (show [0x61].length ≤ 65535 by decide), rfl⟩
  have hlong : Spelling [5, 0, 0, 0, 0, 0, 0, 0, 7] (.long 7) :=
    ⟨5, [0, 0, 0, 0, 0, 0, 0, 7], rfl, .long 7, rfl⟩
  have hforms : ConstantForms [0xCA, 0xFE, 0xBA, 0xBE, 0, 0, 0, 52, 0, 3, 1, 0, 1, 0x61,
      5, 0, 0, 0, 0, 0, 0, 0, 7, 0, 0x21, 0, 1, 0, 0, 0xFF]
      [[1, 0, 1, 0x61], [5, 0, 0, 0, 0, 0, 0, 0, 7]] :=
    ⟨3, _, [0, 0x21, 0, 1, 0, 0, 0xFF], by decide, by decide, .cons htext (.cons hlong .nil),
      ⟨by decide, by decide, show 3 ≤ 1 + 1 + 2 by decide⟩, rfl⟩
  have hpayload : ∀ payload,
      textForm payload ∈ [[1, 0, 1, 0x61], [5, 0, 0, 0, 0, 0, 0, 0, 7]] → payload = [0x61] := by
    intro payload h
    rcases List.mem_pair.1 h with h | h
    · rw [← drop_textForm payload, h]
      rfl
    · cases (List.cons.inj h).1
  have hsmall : ∀ payload, textForm payload ∈ [[1, 0, 1, 0x61], [5, 0, 0, 0, 0, 0, 0, 0, 7]] →
      payload.length ≤ 21845 := fun payload h => hpayload payload h ▸ by decide
  have hcanonical : ∀ payload,
      textForm payload ∈ [[1, 0, 1, 0x61], [5, 0, 0, 0, 0, 0, 0, 0, 7]] →
        ModifiedUtf8.encode (ModifiedUtf8.decode payload) = payload :=
    fun payload h => hpayload payload h ▸ by cbv
  obtain ⟨-, -, -, hok, -, hexact⟩ := toBytes_of_ofBytes _ _ hread
  exact ⟨hread, hforms, fun payload h => ⟨hsmall payload h, hcanonical payload h⟩,
    hok _ hforms hsmall, hexact _ hforms hcanonical⟩

end ClassFile

end ClassImports
