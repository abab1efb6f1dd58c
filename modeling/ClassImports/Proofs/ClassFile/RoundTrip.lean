import Mathlib
import ClassImports.ClassFile.Writer
import ClassImports.Proofs.ClassFile.Grammar
import ClassImports.Proofs.ModifiedUtf8.RoundTrip
import ClassImports.Proofs.Pool.Entries

/-!
# Class files read back

What is written for the slots of a pool are spellings of its usable constants
(`forall₂_spelling_of_encodeConstants`), since nothing is written for an unusable slot. So the
octets of a class file start with a form of its head exactly if the unusable slots are where reading
puts them: `ofBytes_toBytes_iff`, for any octets after those that were written.
-/

namespace ClassImports.ClassFile

open BigEndian (encode)

/-! ## Constants -/

theorem fields_of_encodeBody {constant : Constant} {fields : Bytes} (hne : constant ≠ .unusable)
    (h : encodeBody constant = .ok fields) : Fields fields constant := by
  cases constant with
  | unusable => exact absurd rfl hne
  | utf8 text =>
    simp only [encodeBody, encodeText] at h
    split at h
    · next hlength =>
      cases h
      have hfields := Fields.utf8 hlength
      rwa [ModifiedUtf8.decode_encode_eq] at hfields
    · cases h
  | integer value => cases h; exact .integer value
  | float bits => cases h; exact .float bits
  | long value => cases h; exact .long value
  | double bits => cases h; exact .double bits
  | classInfo name => cases h; exact .classInfo name
  | link kind target => cases h; exact .link kind target
  | pair kind first second => cases h; exact .pair kind first second
  | methodHandle kind target => cases h; exact .methodHandle kind target

/-- Every constant but the unusable one is announced by an octet. -/
theorem exists_code {constant : Constant} (hne : constant ≠ .unusable) :
    ∃ code, constant.tag.code? = some code := by
  cases constant with
  | unusable => exact absurd rfl hne
  | _ => exact ⟨_, rfl⟩

theorem spelling_of_encodeConstant {constant : Constant} {form : Bytes}
    (hne : constant ≠ .unusable) (h : encodeConstant constant = .ok form) :
    Spelling form constant := by
  obtain ⟨code, hcode⟩ := exists_code hne
  rw [encodeConstant, hcode] at h
  obtain ⟨fields, hbody, hform⟩ := Except.map_eq_ok_iff.1 h
  exact ⟨code, fields, hcode, fields_of_encodeBody hne hbody, hform.symm⟩

/-! ## Pools -/

/-- Constants are written one after the other. -/
theorem encodeConstants_cons (constant : Constant) (rest : List Constant) :
    encodeConstants (constant :: rest) =
      (encodeConstant constant >>= fun form => (encodeConstants rest).map (form ++ ·)) := by
  rw [encodeConstants, encodeConstants, List.mapM_cons]
  cases encodeConstant constant with
  | error _ => rfl
  | ok form => cases rest.mapM encodeConstant <;> rfl

/-- Nothing is written for a slot that is unusable. -/
theorem encodeConstants_usable (slots : List Constant) :
    encodeConstants (Pool.usable slots) = encodeConstants slots := by
  induction slots with
  | nil => rfl
  | cons constant rest ih =>
    by_cases hunusable : constant = .unusable
    · subst hunusable
      rw [Pool.usable_cons_unusable, encodeConstants_cons, ih]
      cases encodeConstants rest <;> rfl
    · rw [Pool.usable_cons hunusable, encodeConstants_cons, encodeConstants_cons, ih]

/-- What is written for usable constants are spellings of them. -/
theorem forall₂_spelling_of_usable {constants : List Constant} (husable : .unusable ∉ constants)
    {octets : Bytes} (h : encodeConstants constants = .ok octets) :
    ∃ forms, List.Forall₂ Spelling forms constants ∧ octets = forms.flatten := by
  induction constants generalizing octets with
  | nil =>
    cases h
    exact ⟨[], .nil, rfl⟩
  | cons constant rest ih =>
    rw [List.mem_cons, not_or] at husable
    rw [encodeConstants_cons] at h
    obtain ⟨form, hform, hrest⟩ := Except.bind_eq_ok_iff.1 h
    obtain ⟨others, hothers, rfl⟩ := Except.map_eq_ok_iff.1 hrest
    obtain ⟨forms, hforms, rfl⟩ := ih husable.2 hothers
    exact ⟨form :: forms, .cons (spelling_of_encodeConstant (Ne.symm husable.1) hform) hforms, rfl⟩

/-- What is written for slots are spellings of the usable constants in them. -/
theorem forall₂_spelling_of_encodeConstants {slots : List Constant} {octets : Bytes}
    (h : encodeConstants slots = .ok octets) :
    ∃ forms, List.Forall₂ Spelling forms (Pool.usable slots) ∧ octets = forms.flatten := by
  rw [← encodeConstants_usable] at h
  exact forall₂_spelling_of_usable (by simp [Pool.usable]) h

/-- A pool that 16 bits can number is written whole. -/
theorem map_snd_entries {pool : Pool} (h : pool.count ≤ 65535) :
    pool.entries.map (·.2) = pool.slots.toList := by
  rw [Pool.entries_of_count_le h, Pool.numbered, List.map_map]
  exact List.zipIdx_map_fst 1 _

/-! ## Class files -/

/-- The octets of a head, around those of its constants. -/
def frame (file : ClassFile) (constants : Bytes) : Bytes :=
  encode 4 magic ++ word file.version.minor ++ word file.version.major ++
    encode 2 file.pool.count ++ constants ++ word file.accessFlags ++ word file.thisClass ++
    word file.superClass

theorem toBytes_eq_map {file : ClassFile} (h : file.pool.count ≤ 65535) :
    toBytes file = (encodeConstants file.pool.slots.toList).map fun constants =>
      frame file constants ++ emptyTables := by
  rw [toBytes, if_pos h, map_snd_entries h]
  rfl

/-- The octets of a class file that can be written. -/
theorem toBytes_eq_ok {file : ClassFile} {octets : Bytes} (h : toBytes file = .ok octets) :
    file.pool.count ≤ 65535 ∧ ∃ constants, encodeConstants file.pool.slots.toList = .ok constants ∧
      octets = frame file constants ++ emptyTables := by
  by_cases hcount : file.pool.count ≤ 65535
  · rw [toBytes_eq_map hcount] at h
    obtain ⟨constants, hconstants, hoctets⟩ := Except.map_eq_ok_iff.1 h
    exact ⟨hcount, constants, hconstants, hoctets.symm⟩
  · rw [toBytes, if_neg hcount] at h
    cases h

/-- The octets of a class file with a well laid out pool start with a form of its head. -/
theorem headForm_of_toBytes {file : ClassFile} {octets : Bytes} (h : toBytes file = .ok octets)
    (hlayout : file.pool.WellLaidOut) :
    ∃ form, HeadForm form file ∧ octets = form ++ emptyTables := by
  obtain ⟨hcount, constants, hconstants, rfl⟩ := toBytes_eq_ok h
  obtain ⟨forms, hforms, rfl⟩ := forall₂_spelling_of_encodeConstants hconstants
  obtain ⟨hpool, hfills⟩ := Pool.take_usable_of_wellLaidOut hlayout
  refine ⟨_, ⟨_, ⟨_, forms, _, file.pool.one_le_count, hcount, hforms, rfl, hfills, hpool⟩, rfl⟩,
    ?_⟩
  simp only [frame, word, List.append_assoc]

/-- The pool of a class file that was read is well laid out. -/
theorem wellLaidOut_of_ofBytes {bytes : Bytes} {file : ClassFile} (h : ofBytes bytes = .ok file) :
    file.pool.WellLaidOut := by
  obtain ⟨_, rest, ⟨_, ⟨count, forms, constants, hpos, -, hforms, -, -, hpool⟩, -⟩, -⟩ :=
    ofBytes_eq_ok_iff.1 h
  exact Pool.wellLaidOut_of_take (unusable_notMem_of_spelling hforms) hpos hpool

/-- **A class file reads back exactly if its pool is well laid out**, whatever follows its octets.
In particular the pools of usable constants do, whenever they can be written. -/
theorem ofBytes_toBytes_iff (file : ClassFile) (octets rest : Bytes)
    (h : toBytes file = .ok octets) :
    (ofBytes (octets ++ rest) = .ok file ↔ file.pool.WellLaidOut) ∧
      ∀ constants, .unusable ∉ constants → file.pool = Pool.ofConstants constants →
        ofBytes (octets ++ rest) = .ok file := by
  have hread : file.pool.WellLaidOut → ofBytes (octets ++ rest) = .ok file := by
    intro hlayout
    obtain ⟨form, hform, rfl⟩ := headForm_of_toBytes h hlayout
    exact ofBytes_eq_ok_iff.2 ⟨form, emptyTables ++ rest, hform, List.append_assoc _ _ _⟩
  refine ⟨⟨wellLaidOut_of_ofBytes, hread⟩, fun constants husable hpool => hread ?_⟩
  rw [hpool]
  exact Pool.wellLaidOut_ofConstants husable

/-- A class file with a long and a double constant between two others. -/
def wideFile : ClassFile where
  version := ⟨52, 0⟩
  pool := .ofConstants [.utf8 "a", .long 7, .double 0x3FF0000000000000, .classInfo 1]
  accessFlags := 0x21
  thisClass := 6
  superClass := 0

/-- The octets that are written for it. -/
def wideOctets : Bytes :=
  [0xCA, 0xFE, 0xBA, 0xBE, 0, 0, 0, 52, 0, 7, 1, 0, 1, 0x61, 5, 0, 0, 0, 0, 0, 0, 0, 7,
    6, 0x3F, 0xF0, 0, 0, 0, 0, 0, 0, 7, 0, 1, 0, 0x21, 0, 6, 0, 0, 0, 0, 0, 0, 0, 0, 0, 0]

/-- The file reads back, also with an octet after the empty tables. -/
theorem ofBytes_toBytes_iff_wide :
    toBytes wideFile = .ok wideOctets ∧
      Constant.unusable ∉ [.utf8 "a", .long 7, .double 0x3FF0000000000000, .classInfo 1] ∧
      ofBytes (wideOctets ++ [0xFF]) = .ok wideFile := by
  have hwrite : toBytes wideFile = .ok wideOctets := by decide +kernel
  have husable :
      Constant.unusable ∉ [.utf8 "a", .long 7, .double 0x3FF0000000000000, .classInfo 1] := by
    decide
  exact ⟨hwrite, husable, (ofBytes_toBytes_iff _ _ [0xFF] hwrite).2 _ husable rfl⟩

end ClassImports.ClassFile
