import Mathlib
import ClassImports.Proofs.ClassFile.Accepts
import ClassImports.Proofs.Pool.Layout

/-!
# The grammar of class files

`Spelling form constant` gives the octets of a constant: the octet of its kind, which `Tag.codes`
lists (`Tag.code?_eq_some_iff`), and its fields, a text by any octets that read as it.
`HeadForm form file` gives those of the head of a class file: its constants one after the other fill
the announced count of slots.

* `Reader.accepts_constant`, `Reader.accepts_pool`, `Reader.accepts_head`: the readers accept these
  forms and nothing else.
* `Reader.slots_eq_slotsUnbounded`: slot numbers never leave their 16 bits, since reading with
  unbounded ones is the same.
* `ofBytes_eq_ok_iff`: octets are read exactly if they start with the form of a head.
-/

namespace ClassImports

namespace Tag

/-- The octets of a class file that announce a constant, with what they announce. -/
def codes : List (UInt8 × Tag) :=
  [(1, .utf8), (3, .integer), (4, .float), (5, .long), (6, .double), (7, .classInfo),
    (8, .link .string), (9, .pair .fieldref), (10, .pair .methodref),
    (11, .pair .interfaceMethodref), (12, .pair .nameAndType), (15, .methodHandle),
    (16, .link .methodType), (17, .pair .dynamic), (18, .pair .invokeDynamic),
    (19, .link .moduleInfo), (20, .link .packageInfo)]

/-- The octet of each kind is the one in the table. -/
theorem code?_eq_some_iff {tag : Tag} {code : UInt8} :
    tag.code? = some code ↔ (code, tag) ∈ codes := by
  constructor
  · intro h
    cases tag with
    | unusable => cases h
    | link kind => cases kind <;> cases h <;> decide
    | pair kind => cases kind <;> cases h <;> decide
    | _ => cases h; decide
  · intro h
    have hrows : ∀ row ∈ codes, row.2.code? = some row.1 := by decide
    exact hrows _ h

/-- An octet announces the kind that it is the code of. -/
theorem ofCode?_eq_some_iff {tag : Tag} {code : UInt8} :
    ofCode? code = some tag ↔ tag.code? = some code := by
  constructor
  · intro h
    simpa using List.find?_some h
  · intro h
    have hrows : ∀ row ∈ codes, ofCode? row.1 = some row.2 := by decide
    exact hrows _ (code?_eq_some_iff.1 h)

end Tag

namespace ClassFile

open BigEndian (encode)

/-! ## Constants -/

/-- The octets of the fields of a constant. The payload of a text may be any octets that read as
the text. An unusable slot has none. -/
inductive Fields : Bytes → Constant → Prop where
  | utf8 {payload : Bytes} (h : payload.length ≤ 65535) :
      Fields (encode 2 payload.length ++ payload) (.utf8 (ModifiedUtf8.decode payload))
  | integer (value : Int32) : Fields (encode 4 value.toUInt32.toNat) (.integer value)
  | float (bits : UInt32) : Fields (encode 4 bits.toNat) (.float bits)
  | long (value : Int64) : Fields (encode 8 value.toUInt64.toNat) (.long value)
  | double (bits : UInt64) : Fields (encode 8 bits.toNat) (.double bits)
  | classInfo (name : UInt16) : Fields (encode 2 name.toNat) (.classInfo name)
  | link (kind : LinkKind) (target : UInt16) : Fields (encode 2 target.toNat) (.link kind target)
  | pair (kind : PairKind) (first second : UInt16) :
      Fields (encode 2 first.toNat ++ encode 2 second.toNat) (.pair kind first second)
  | methodHandle (kind : UInt8) (target : UInt16) :
      Fields (kind :: encode 2 target.toNat) (.methodHandle kind target)

/-- The octets of a constant: the octet of its kind (see `Tag.codes`), then those of its fields. -/
def Spelling (form : Bytes) (constant : Constant) : Prop :=
  ∃ code fields, constant.tag.code? = some code ∧ Fields fields constant ∧ form = code :: fields

theorem Fields.tag_ne_unusable {fields : Bytes} {constant : Constant} (h : Fields fields constant) :
    constant.tag ≠ .unusable := by
  cases h <;> exact fun htag => by cases htag

theorem Spelling.ne_unusable {form : Bytes} {constant : Constant} (h : Spelling form constant) :
    constant ≠ .unusable := by
  obtain ⟨code, fields, -, hfields, -⟩ := h
  rintro rfl
  exact hfields.tag_ne_unusable rfl

theorem unusable_notMem_of_spelling {forms : List Bytes} {constants : List Constant}
    (h : List.Forall₂ Spelling forms constants) : .unusable ∉ constants := by
  induction h with
  | nil => exact List.not_mem_nil
  | cons hform hforms ih => simp [hform.ne_unusable.symm, ih]

namespace Reader

/-- What is read for a kind are the fields of the constants of that kind. -/
theorem accepts_body {tag : Tag} (h : tag ≠ .unusable) :
    Accepts (body tag) fun form constant => constant.tag = tag ∧ Fields form constant := by
  cases tag with
  | unusable => exact absurd rfl h
  | utf8 =>
    refine (accepts_map accepts_text Constant.utf8).congr fun form constant => ?_
    constructor
    · rintro ⟨_, ⟨payload, hlength, rfl, rfl⟩, rfl⟩
      exact ⟨rfl, .utf8 hlength⟩
    · rintro ⟨htag, hfields⟩
      cases hfields with
      | utf8 hlength => exact ⟨_, ⟨_, hlength, rfl, rfl⟩, rfl⟩
      | _ => cases htag
  | integer =>
    refine (accepts_number32 fun bits => Constant.integer bits.toInt32).congr
      fun form constant => ?_
    constructor
    · rintro ⟨bits, rfl, rfl⟩
      exact ⟨rfl, .integer bits.toInt32⟩
    · rintro ⟨htag, hfields⟩
      cases hfields with
      | integer value => exact ⟨value.toUInt32, rfl, rfl⟩
      | _ => cases htag
  | float =>
    refine (accepts_number32 Constant.float).congr fun form constant => ?_
    constructor
    · rintro ⟨bits, rfl, rfl⟩
      exact ⟨rfl, .float bits⟩
    · rintro ⟨htag, hfields⟩
      cases hfields with
      | float bits => exact ⟨bits, rfl, rfl⟩
      | _ => cases htag
  | long =>
    refine (accepts_number64 fun bits => Constant.long bits.toInt64).congr fun form constant => ?_
    constructor
    · rintro ⟨bits, rfl, rfl⟩
      exact ⟨rfl, .long bits.toInt64⟩
    · rintro ⟨htag, hfields⟩
      cases hfields with
      | long value => exact ⟨value.toUInt64, rfl, rfl⟩
      | _ => cases htag
  | double =>
    refine (accepts_number64 Constant.double).congr fun form constant => ?_
    constructor
    · rintro ⟨bits, rfl, rfl⟩
      exact ⟨rfl, .double bits⟩
    · rintro ⟨htag, hfields⟩
      cases hfields with
      | double bits => exact ⟨bits, rfl, rfl⟩
      | _ => cases htag
  | classInfo =>
    refine (accepts_map accepts_word Constant.classInfo).congr fun form constant => ?_
    constructor
    · rintro ⟨name, rfl, rfl⟩
      exact ⟨rfl, .classInfo name⟩
    · rintro ⟨htag, hfields⟩
      cases hfields with
      | classInfo name => exact ⟨name, rfl, rfl⟩
      | _ => cases htag
  | link kind =>
    refine (accepts_map accepts_word (Constant.link kind)).congr fun form constant => ?_
    constructor
    · rintro ⟨target, rfl, rfl⟩
      exact ⟨rfl, .link kind target⟩
    · rintro ⟨htag, hfields⟩
      cases hfields with
      | link _ target =>
        cases htag
        exact ⟨target, rfl, rfl⟩
      | _ => cases htag
  | pair kind =>
    refine (accepts_bind accepts_word fun first =>
      accepts_map accepts_word (Constant.pair kind first)).congr fun form constant => ?_
    constructor
    · rintro ⟨first, _, _, rfl, ⟨second, rfl, rfl⟩, rfl⟩
      exact ⟨rfl, .pair kind first second⟩
    · rintro ⟨htag, hfields⟩
      cases hfields with
      | pair _ first second =>
        cases htag
        exact ⟨first, _, _, rfl, ⟨second, rfl, rfl⟩, rfl⟩
      | _ => cases htag
  | methodHandle =>
    refine (accepts_bind accepts_octet fun kind =>
      accepts_map accepts_word (Constant.methodHandle kind)).congr fun form constant => ?_
    constructor
    · rintro ⟨kind, _, _, rfl, ⟨target, rfl, rfl⟩, rfl⟩
      exact ⟨rfl, .methodHandle kind target⟩
    · rintro ⟨htag, hfields⟩
      cases hfields with
      | methodHandle kind target => exact ⟨kind, _, _, rfl, ⟨target, rfl, rfl⟩, rfl⟩
      | _ => cases htag

theorem constant_eq (index : Nat) :
    constant index = (octet >>= fun code =>
      (Tag.ofCode? code).elim (throw (.unknownTag code index)) body) := by
  unfold constant
  congr 1
  funext code
  cases Tag.ofCode? code <;> rfl

/-- What is read after an octet are the fields of the constants that it announces. -/
theorem accepts_announced (code : UInt8) (index : Nat) :
    Accepts ((Tag.ofCode? code).elim (throw (.unknownTag code index)) body)
      fun fields constant => constant.tag.code? = some code ∧ Fields fields constant := by
  cases htag : Tag.ofCode? code with
  | none =>
    refine (accepts_throw _).congr fun fields constant => ⟨False.elim, ?_⟩
    rintro ⟨hcode, -⟩
    rw [← Tag.ofCode?_eq_some_iff, htag] at hcode
    cases hcode
  | some tag =>
    have hcode := Tag.ofCode?_eq_some_iff.1 htag
    refine (accepts_body fun h => by rw [h] at hcode; cases hcode).congr
      fun fields constant => ?_
    rw [← Tag.ofCode?_eq_some_iff, htag, Option.some_inj, eq_comm]

/-- What is read as a constant is its spelling, wherever the constant stands. -/
theorem accepts_constant (index : Nat) : Accepts (constant index) Spelling := by
  rw [constant_eq]
  refine (accepts_bind accepts_octet fun code => accepts_announced code index).congr
    fun form constant => ?_
  constructor
  · rintro ⟨code, _, fields, rfl, ⟨hcode, hfields⟩, rfl⟩
    exact ⟨code, fields, hcode, hfields, rfl⟩
  · rintro ⟨code, fields, hcode, hfields, rfl⟩
    exact ⟨code, _, fields, rfl, ⟨hcode, hfields⟩, rfl⟩

/-! ## Slots -/

/-- The loop of `slots` with slot numbers that are not limited to 16 bits. -/
def slotsUnbounded (count index : Nat) (before : Array Constant) : Reader (Array Constant) :=
  if index < count then do
    let next ← constant index
    let before := before.push next
    let before := if next.isWide && index + 1 < count then before.push .unusable else before
    slotsUnbounded count (index + next.width) before
  else return before
termination_by count - index
decreasing_by
  have hwidth := next.width_pos
  omega

theorem slots_of_not_lt {count index : UInt16} (h : ¬index < count) (before : Array Constant) :
    slots count index before = pure before := by
  rw [slots, if_neg h]

theorem slotsUnbounded_of_not_lt {count index : Nat} (h : ¬index < count)
    (before : Array Constant) : slotsUnbounded count index before = pure before := by
  rw [slotsUnbounded, if_neg h]

/-- The number after that of a slot of the pool fits in 16 bits. -/
theorem toNat_add_one {count index : UInt16} (h : index < count) :
    (index + 1).toNat = index.toNat + 1 := by
  have hindex := UInt16.lt_iff_toNat_lt.1 h
  have hcount : count.toNat < 65536 := count.toNat_lt
  rw [UInt16.toNat_add]
  exact Nat.mod_eq_of_lt (show index.toNat + 1 < 65536 by omega)

theorem toNat_nextIndex (index : UInt16) (width : Nat) :
    (nextIndex index width).toNat = min (index.toNat + width) 65535 :=
  UInt16.toNat_ofNat_of_lt' (show min _ 65535 < 65536 by omega)

/-- Slot numbers never leave their 16 bits: with unbounded ones the same is read. -/
theorem slots_eq_slotsUnbounded (count index : UInt16) (before : Array Constant) :
    slots count index before = slotsUnbounded count.toNat index.toNat before := by
  induction hroom : count.toNat - index.toNat using Nat.strong_induction_on
    generalizing index before with
  | _ room ih =>
    have hcount : count.toNat < 65536 := count.toNat_lt
    by_cases hindex : index < count
    · have hlt := UInt16.lt_iff_toNat_lt.1 hindex
      rw [slots, slotsUnbounded, if_pos hindex, if_pos hlt]
      refine congrArg (constant index.toNat >>= ·) (funext fun next => ?_)
      simp only [UInt16.lt_iff_toNat_lt, toNat_add_one hindex]
      have hwidth := next.width_pos
      have hnext := toNat_nextIndex index next.width
      by_cases hfits : index.toNat + next.width ≤ 65535
      · rw [ih _ (by omega) _ _ rfl, hnext, Nat.min_eq_left hfits]
      · -- only a wide constant in the last slot of all leads past the numbers; reading ends there
        have hend : ¬nextIndex index next.width < count := by
          rw [UInt16.lt_iff_toNat_lt]
          omega
        rw [slots_of_not_lt hend, slotsUnbounded_of_not_lt (by omega)]
    · rw [slots_of_not_lt hindex,
        slotsUnbounded_of_not_lt fun h => hindex (UInt16.lt_iff_toNat_lt.2 h)]

/-- What is read as slots from `index` on are spellings of constants that fill the pool; what comes
out are the slots of these constants up to the end of the pool. -/
theorem accepts_slotsUnbounded (count index : Nat) (before : Array Constant) :
    Accepts (slotsUnbounded count index before) fun form slots =>
      ∃ forms constants, List.Forall₂ Spelling forms constants ∧ form = forms.flatten ∧
        Pool.Fills count index constants ∧
        slots.toList =
          before.toList ++ (constants.flatMap Pool.withShadow).take (count - index) := by
  induction hroom : count - index using Nat.strong_induction_on generalizing index before with
  | _ room ih =>
    by_cases hindex : index < count
    · have hrest : ∀ next : Constant, count - (index + next.width) < room := fun next => by
        have hwidth := next.width_pos
        omega
      rw [slotsUnbounded, if_pos hindex]
      refine (accepts_bind (accepts_constant index) fun next =>
        ih _ (hrest next) _ _ rfl).congr fun form slots => ?_
      rw [← hroom]
      constructor
      · rintro ⟨next, f, g, hnext, ⟨forms, constants, hforms, rfl, hfills, hslots⟩, rfl⟩
        refine ⟨f :: forms, next :: constants, .cons hnext hforms, rfl, ⟨hindex, hfills⟩, ?_⟩
        rw [hslots, Pool.take_flatMap_withShadow_cons hindex]
        split <;> simp
      · rintro ⟨forms, constants, hforms, rfl, hfills, hslots⟩
        cases hforms with
        | nil => exact absurd hindex (Nat.not_lt.2 hfills)
        | @cons f next forms constants hnext hforms =>
          refine ⟨next, f, _, hnext, ⟨forms, constants, hforms, rfl, hfills.2, ?_⟩, rfl⟩
          rw [hslots, Pool.take_flatMap_withShadow_cons hindex]
          split <;> simp
    · rw [slotsUnbounded_of_not_lt hindex]
      refine (accepts_pure before).congr fun form slots => ?_
      constructor
      · rintro ⟨rfl, rfl⟩
        exact ⟨[], [], .nil, rfl, Nat.le_of_not_lt hindex, by simp⟩
      · rintro ⟨forms, constants, hforms, rfl, hfills, hslots⟩
        cases hforms with
        | nil => exact ⟨rfl, Array.toList_inj.1 (by simpa using hslots)⟩
        | cons => exact absurd hfills.1 hindex

end Reader

/-! ## Pools and heads -/

/-- The octets of a pool: the count of its slots, and constants that fill them. -/
def PoolForm (form : Bytes) (pool : Pool) : Prop :=
  ∃ count forms constants, 1 ≤ count ∧ count ≤ 65535 ∧ List.Forall₂ Spelling forms constants ∧
    form = encode 2 count ++ forms.flatten ∧ Pool.Fills count 1 constants ∧
    pool.toList = (Pool.ofConstants constants).toList.take count

/-- The octets of the head of a class file. -/
def HeadForm (form : Bytes) (file : ClassFile) : Prop :=
  ∃ poolForm, PoolForm poolForm file.pool ∧
    form = encode 4 magic ++ (encode 2 file.version.minor.toNat ++
      (encode 2 file.version.major.toNat ++ (poolForm ++ (encode 2 file.accessFlags.toNat ++
        (encode 2 file.thisClass.toNat ++ encode 2 file.superClass.toNat)))))

namespace Reader

theorem accepts_pool : Accepts pool PoolForm := by
  have hslots : ∀ count : UInt16, Accepts (slots count 1 #[]) _ := fun count =>
    slots_eq_slotsUnbounded count 1 #[] ▸ accepts_slotsUnbounded count.toNat 1 #[]
  refine (accepts_bind accepts_word fun count => accepts_ite .noSlots
    (accepts_map (hslots count) Pool.mk)).congr fun form pool => ?_
  constructor
  · rintro ⟨count, _, _, rfl, ⟨hcount, slots, ⟨forms, constants, hforms, rfl, hfills, hslots⟩, rfl⟩,
      rfl⟩
    have hpos : 1 ≤ count.toNat :=
      Nat.one_le_iff_ne_zero.2 fun h => hcount (UInt16.toNat_inj.1 h)
    exact ⟨count.toNat, forms, constants, hpos, Nat.le_of_lt_succ count.toNat_lt, hforms, rfl,
      hfills, (Pool.toList_eq_take_iff hpos).2 (by simpa using hslots)⟩
  · rintro ⟨count, forms, constants, hpos, hmax, hforms, rfl, hfills, hpool⟩
    have hcount : (UInt16.ofNat count).toNat = count :=
      UInt16.toNat_ofNat_of_lt' (Nat.lt_succ_of_le hmax)
    have hne : UInt16.ofNat count ≠ 0 := by
      rintro h
      rw [h] at hcount
      exact absurd hpos (hcount ▸ by decide)
    rw [Pool.toList_eq_take_iff hpos] at hpool
    refine ⟨UInt16.ofNat count, _, _, rfl,
      ⟨hne, pool.slots, ⟨forms, constants, hforms, rfl, ?_, ?_⟩, rfl⟩, by rw [hcount]⟩
    · rwa [hcount]
    · rw [hcount]
      simpa using hpool

theorem accepts_head : Accepts head HeadForm := by
  refine (accepts_bind (accepts_number 4) fun found => accepts_ite (.badMagic found)
    (accepts_bind accepts_word fun minor => accepts_bind accepts_word fun major =>
      accepts_bind accepts_pool fun pool => accepts_bind accepts_word fun accessFlags =>
        accepts_bind accepts_word fun thisClass => accepts_map accepts_word fun superClass =>
          ClassFile.mk ⟨major, minor⟩ pool accessFlags thisClass superClass)).congr
    fun form file => ?_
  constructor
  · rintro ⟨found, _, _, ⟨-, rfl⟩, ⟨hmagic, minor, _, _, rfl, ⟨major, _, _, rfl, ⟨pool, poolForm, _,
      hpool, ⟨accessFlags, _, _, rfl, ⟨thisClass, _, _, rfl, ⟨superClass, rfl, rfl⟩, rfl⟩, rfl⟩,
      rfl⟩, rfl⟩, rfl⟩, rfl⟩
    rw [not_not] at hmagic
    exact ⟨poolForm, hpool, by rw [hmagic]⟩
  · rintro ⟨poolForm, hpool, rfl⟩
    exact ⟨magic, _, _, ⟨by decide, rfl⟩, ⟨not_not.2 rfl, _, _, _, rfl, ⟨_, _, _, rfl,
      ⟨_, _, _, hpool, ⟨_, _, _, rfl, ⟨_, _, _, rfl, ⟨_, rfl, rfl⟩, rfl⟩, rfl⟩, rfl⟩, rfl⟩, rfl⟩,
      rfl⟩

end Reader

/-- Octets are read as a class file exactly if they start with a form of its head. -/
theorem ofBytes_eq_ok_iff {bytes : Bytes} {file : ClassFile} :
    ofBytes bytes = .ok file ↔ ∃ form rest, HeadForm form file ∧ bytes = form ++ rest := by
  have hrun : ofBytes bytes = .ok file ↔ ∃ after, Reader.head ⟨0, bytes⟩ = .ok (file, after) := by
    unfold ofBytes
    rw [Except.map_eq_ok_iff, Prod.exists]
    simp
  rw [hrun]
  constructor
  · rintro ⟨after, h⟩
    obtain ⟨form, hform, hbytes, -⟩ := (Reader.accepts_head _ _ _).1 h
    exact ⟨form, after.rest, hform, hbytes⟩
  · rintro ⟨form, rest, hform, hbytes⟩
    exact ⟨⟨0 + form.length, rest⟩, (Reader.accepts_head _ _ _).2 ⟨form, hform, hbytes, rfl⟩⟩

/-- A pool is as long as its form announces. -/
theorem PoolForm.count_eq {form : Bytes} {pool : Pool} (h : PoolForm form pool) :
    pool.count ≤ 65535 ∧ ∃ rest, form = encode 2 pool.count ++ rest := by
  obtain ⟨count, forms, constants, -, hmax, -, rfl, hfills, hpool⟩ := h
  rw [Pool.count_eq_of_fills hfills hpool]
  exact ⟨hmax, forms.flatten, rfl⟩

/-- **Exactly the grammar is read.** Octets are read as a class file exactly if they are the magic
number, the version, a count of slots, spellings of constants, the flags and the two class slots,
with anything after that; the constants each start in a slot below the count and together reach it,
and the pool is what the count leaves of their slots. So a pool that was read has as many slots as
its count says, and slot numbers do not leave their 16 bits on the way. -/
theorem ofBytes_eq_ok_iff_spelled (bytes : Bytes) (file : ClassFile) :
    (ofBytes bytes = .ok file ↔
      ∃ (count : Nat) (forms : List Bytes) (constants : List Constant) (rest : Bytes),
        1 ≤ count ∧ count ≤ 65535 ∧ .unusable ∉ constants ∧
        List.Forall₂ Spelling forms constants ∧
        bytes = [0xCA, 0xFE, 0xBA, 0xBE] ++ encode 2 file.version.minor.toNat ++
          encode 2 file.version.major.toNat ++ encode 2 count ++ forms.flatten ++
          encode 2 file.accessFlags.toNat ++ encode 2 file.thisClass.toNat ++
          encode 2 file.superClass.toNat ++ rest ∧
        (∀ j < constants.length, 1 + ((constants.take j).map Constant.width).sum < count) ∧
        count ≤ 1 + (constants.map Constant.width).sum ∧
        file.pool.toList = (Pool.ofConstants constants).toList.take count) ∧
    (ofBytes bytes = .ok file →
      file.pool.count ≤ 65535 ∧ (bytes.drop 8).take 2 = encode 2 file.pool.count) ∧
    ∀ (size : UInt16) (before : Array Constant),
      Reader.slots size 1 before = Reader.slotsUnbounded size.toNat 1 before := by
  refine ⟨?_, ?_, fun size before => Reader.slots_eq_slotsUnbounded size 1 before⟩
  · rw [ofBytes_eq_ok_iff]
    constructor
    · rintro ⟨_, rest, ⟨_, ⟨count, forms, constants, hpos, hmax, hforms, rfl, hfills, hpool⟩, rfl⟩,
        rfl⟩
      obtain ⟨hstarts, hreach⟩ := Pool.fills_iff.1 hfills
      refine ⟨count, forms, constants, rest, hpos, hmax, unusable_notMem_of_spelling hforms, hforms,
        ?_, hstarts, hreach, hpool⟩
      simp only [List.append_assoc]
      rfl
    · rintro ⟨count, forms, constants, rest, hpos, hmax, -, hforms, rfl, hstarts, hreach, hpool⟩
      refine ⟨_, rest, ⟨_, ⟨count, forms, constants, hpos, hmax, hforms, rfl,
        Pool.fills_iff.2 ⟨hstarts, hreach⟩, hpool⟩, rfl⟩, ?_⟩
      simp only [List.append_assoc]
      rfl
  · intro h
    obtain ⟨_, rest, ⟨_, hpool, rfl⟩, rfl⟩ := ofBytes_eq_ok_iff.1 h
    obtain ⟨hmax, _, rfl⟩ := hpool.count_eq
    exact ⟨hmax, rfl⟩

/-- A class file whose pool has five slots and two wide constants, one of them in the last slot. -/
def wideLastFile : ClassFile where
  version := ⟨52, 0⟩
  pool := ⟨#[.utf8 "a", .long 7, .unusable, .double 0x3FF0000000000000]⟩
  accessFlags := 0x21
  thisClass := 1
  superClass := 0

/-- The octets of its head, and one after it. -/
def wideLastOctets : Bytes :=
  [0xCA, 0xFE, 0xBA, 0xBE, 0, 0, 0, 52, 0, 5, 1, 0, 1, 0x61, 5, 0, 0, 0, 0, 0, 0, 0, 7,
    6, 0x3F, 0xF0, 0, 0, 0, 0, 0, 0, 0, 0x21, 0, 1, 0, 0, 0xFF]

/-- The pool that is read has as many slots as announced, without one for the last shadow. -/
theorem ofBytes_eq_ok_iff_spelled_wide_last :
    ofBytes wideLastOctets = .ok wideLastFile ∧ wideLastFile.pool.count ≤ 65535 ∧
      (wideLastOctets.drop 8).take 2 = encode 2 wideLastFile.pool.count := by
  have h : ofBytes wideLastOctets = .ok wideLastFile := by decide +kernel
  exact ⟨h, (ofBytes_eq_ok_iff_spelled _ _).2.1 h⟩

end ClassFile

end ClassImports
