import Aafp.Messaging.Framing

/-! The extension section in both directions. -/
namespace Aafp.Messaging

open Foundation List

/-- The extensions are appended to `buf` one after the other, up to one that is too large. -/
def encodeExtensionsInto (buf : List UInt8) : List Extension → Except ExtensionError (List UInt8)
  | [] => .ok buf
  | ext :: exts =>
    if ext.data.length > 2 ^ 32 - 1 then .error (.dataTooLarge ext.data.length (2 ^ 32 - 1))
    else
      encodeExtensionsInto (buf ++ bigEndian 2 ext.extType.toNat ++ [if ext.critical then 0x01 else 0x00, 0] ++
        bigEndian 4 ext.data.length ++ ext.data) exts

def encodeExtensions (exts : List Extension) : Except ExtensionError (List UInt8) := encodeExtensionsInto [] exts

/-- One record of a section as it stands in the bytes. -/
structure RawExtension where
  extType : UInt16
  criticality : UInt8
  reserved : UInt8
  data : List UInt8
  short : data.length < 2 ^ 32

namespace RawExtension

def wire (raw : RawExtension) : List UInt8 :=
  bigEndian 2 raw.extType.toNat ++ [raw.criticality, raw.reserved] ++ bigEndian 4 raw.data.length ++ raw.data

/-- What the decoder makes of a record: only the criticality 1 counts as critical. -/
def extension (raw : RawExtension) : Extension := ⟨raw.extType, raw.criticality == 0x01, raw.data⟩

def ofExtension (ext : Extension) (short : ext.data.length < 2 ^ 32) : RawExtension :=
  ⟨ext.extType, if ext.critical then 0x01 else 0x00, 0, ext.data, short⟩

theorem length_wire (raw : RawExtension) : raw.wire.length = extHeaderSize + raw.data.length := by
  simp [wire, extHeaderSize]
  omega

theorem extension_ofExtension (ext : Extension) (short : ext.data.length < 2 ^ 32) :
    (ofExtension ext short).extension = ext := by
  obtain ⟨extType, critical, data⟩ := ext
  cases critical <;> rfl

end RawExtension

theorem bigEndian_slice {rest : List UInt8} (inside : pos + width ≤ rest.length) :
    bigEndian width (ofBigEndian ((rest.drop pos).take width)) = (rest.drop pos).take width := by
  have read := bigEndian_ofBigEndian ((rest.drop pos).take width)
  rwa [length_slice rest inside] at read

theorem flags_slice {rest : List UInt8} (inside : pos + 2 ≤ rest.length) :
    (rest.drop pos).take 2 = [byteAt rest pos, byteAt rest (pos + 1)] := by
  have first : pos < rest.length := by omega
  have second : pos + 1 < rest.length := by omega
  rw [drop_eq_getElem_cons first, drop_eq_getElem_cons second, byteAt, byteAt, getD_eq_getElem?_getD,
    getD_eq_getElem?_getD, getElem?_eq_getElem first, getElem?_eq_getElem second]
  rfl

theorem header_eq (long : extHeaderSize ≤ rest.length) :
    rest = bigEndian 2 (UInt16.ofNat (ofBigEndian (rest.take 2))).toNat ++ [byteAt rest 2, byteAt rest 3] ++
      bigEndian 4 (ofBigEndian ((rest.drop 4).take 4)) ++ rest.drop extHeaderSize := by
  unfold extHeaderSize at *
  have type : bigEndian 2 (ofBigEndian (rest.take 2)) = rest.take 2 := by
    have read := @bigEndian_slice 0 2 rest (by omega)
    rwa [drop_zero] at read
  have word : ofBigEndian (rest.take 2) < 2 ^ 16 := by
    have bound := ofBigEndian_lt (rest.take 2)
    rwa [length_take_of_le (by omega)] at bound
  rw [UInt16.toNat_ofNat_of_lt' word, type, ← @flags_slice 2 rest (by omega), bigEndian_slice (by omega),
    append_assoc, append_assoc, ← drop_eq_take_append rest 4 4, ← drop_eq_take_append rest 2 2,
    take_append_drop]

theorem fields_wire (raw : RawExtension) (rest : List UInt8) :
    UInt16.ofNat (ofBigEndian ((raw.wire ++ rest).take 2)) = raw.extType ∧
      byteAt (raw.wire ++ rest) 2 = raw.criticality ∧
      ofBigEndian (((raw.wire ++ rest).drop 4).take 4) = raw.data.length ∧
      (raw.wire ++ rest).drop extHeaderSize = raw.data ++ rest := by
  have start : (raw.wire ++ rest).drop 0 = bigEndian 2 raw.extType.toNat ++ ([raw.criticality, raw.reserved] ++
      (bigEndian 4 raw.data.length ++ (raw.data ++ rest))) := by
    rw [drop_zero, RawExtension.wire]
    simp only [append_assoc]
  generalize raw.wire ++ rest = data at start ⊢
  have atFlags : data.drop 2 = _ := drop_add_length start
  have atLen : data.drop 4 = _ := drop_add_length atFlags
  have atData : data.drop extHeaderSize = _ := drop_add_length atLen
  have type := take_at_cursor start
  have size := take_at_cursor atLen
  rw [length_bigEndian] at type size
  rw [drop_zero] at type
  refine ⟨?_, ?_, ?_, atData⟩
  · rw [type, ofBigEndian_bigEndian_of_lt raw.extType.toNat_lt, UInt16.ofNat_toNat]
  · rw [byteAt, getD_eq_getElem?_getD, getElem?_at_cursor atFlags]
    rfl
  · rw [size, ofBigEndian_bigEndian_of_lt raw.short]

theorem decodeExtensions_wire (raw : RawExtension) (rest : List UInt8) :
    decodeExtensions (raw.wire ++ rest) = (decodeExtensions rest).map (raw.extension :: ·) := by
  obtain ⟨type, criticality, size, body⟩ := fields_wire raw rest
  have long : ¬ (raw.wire ++ rest).length < extHeaderSize := by
    rw [length_append, raw.length_wire]
    omega
  have some : (raw.wire ++ rest).isEmpty = false := by
    rw [isEmpty_eq_false_iff, ← length_pos_iff]
    unfold extHeaderSize at long
    omega
  rw [decodeExtensions, some, if_neg Bool.false_ne_true, if_neg long]
  simp only [type, criticality, size, body]
  rw [if_neg (by rw [length_append]; omega), drop_left, take_left]
  cases decodeExtensions rest with
  | error error => rfl
  | ok exts => rfl

variable (raws : List RawExtension)

theorem decodeExtensions_flatMap :
    decodeExtensions (raws.flatMap RawExtension.wire) = .ok (raws.map RawExtension.extension) := by
  induction raws with
  | nil => rw [decodeExtensions]; rfl
  | cons raw raws ih => rw [flatMap_cons, decodeExtensions_wire, ih]; rfl

theorem decodeExtensions_cons (more : rest ≠ [])
    (decoded : decodeExtensions rest = .ok exts) : ∃ (raw : RawExtension) (further : List UInt8)
      (later : List Extension), rest = raw.wire ++ further ∧ exts = raw.extension :: later ∧
        decodeExtensions further = .ok later := by
  rw [decodeExtensions, if_neg (by simpa using more)] at decoded
  split at decoded
  · cases decoded
  rename_i short
  have long := Nat.not_lt.mp short
  have word := ofBigEndian_lt ((rest.drop 4).take 4)
  rw [length_slice rest (by unfold extHeaderSize at long; omega)] at word
  have header := header_eq long
  simp only at decoded
  generalize ofBigEndian ((rest.drop 4).take 4) = dataLen at decoded word header
  generalize rest.drop extHeaderSize = body at decoded header
  split at decoded
  · cases decoded
  rename_i cut
  have taken : (body.take dataLen).length = dataLen := length_take_of_le (Nat.not_lt.mp cut)
  obtain ⟨later, next, same⟩ := bind_eq_ok.mp decoded
  cases same
  refine ⟨⟨UInt16.ofNat (ofBigEndian (rest.take 2)), byteAt rest 2, byteAt rest 3, body.take dataLen, ?_⟩,
    body.drop dataLen, later, ?_, rfl, next⟩
  · rw [taken]
    exact word
  · rw [RawExtension.wire]
    dsimp only
    rw [taken, append_assoc _ (body.take dataLen), take_append_drop]
    exact header

theorem exists_raws (decoded : decodeExtensions rest = .ok exts) :
    ∃ raws : List RawExtension, rest = raws.flatMap RawExtension.wire ∧ exts = raws.map RawExtension.extension := by
  induction size : rest.length using Nat.strong_induction_on generalizing rest exts with
  | _ size ih =>
    by_cases more : rest = []
    · rw [more, decodeExtensions] at decoded
      cases decoded
      exact ⟨[], more, rfl⟩
    · obtain ⟨raw, further, later, rfl, rfl, next⟩ := decodeExtensions_cons more decoded
      rw [length_append, raw.length_wire] at size
      obtain ⟨raws, rfl, rfl⟩ := ih further.length (by unfold extHeaderSize at size; omega) next rfl
      exact ⟨raw :: raws, rfl, rfl⟩

def rewritten (raw : RawExtension) : RawExtension := .ofExtension raw.extension raw.short

theorem encodeExtensionsInto_raws (buf : List UInt8) (raws : List RawExtension) :
    encodeExtensionsInto buf (raws.map RawExtension.extension) =
      .ok (buf ++ raws.flatMap fun raw => (rewritten raw).wire) := by
  induction raws generalizing buf with
  | nil => rw [map_nil, encodeExtensionsInto, flatMap_nil, append_nil]
  | cons raw raws ih =>
    have fits : ¬ raw.extension.data.length > 2 ^ 32 - 1 := Nat.not_lt.mpr (Nat.le_pred_of_lt raw.short)
    rw [map_cons, encodeExtensionsInto, if_neg fits, ih, flatMap_cons]
    simp only [rewritten, RawExtension.wire, RawExtension.ofExtension, append_assoc]

theorem decodeExtensions_rewritten :
    decodeExtensions (raws.flatMap fun raw => (rewritten raw).wire) = .ok (raws.map RawExtension.extension) := by
  have decoded := decodeExtensions_flatMap (raws.map rewritten)
  rw [flatMap_map, map_map] at decoded
  rw [decoded]
  congr 1
  exact map_congr_left fun raw _ => RawExtension.extension_ofExtension raw.extension raw.short

theorem exists_raws_of_short (short : ∀ ext ∈ exts, ext.data.length < 2 ^ 32) :
    ∃ raws : List RawExtension, raws.map RawExtension.extension = exts := by
  refine ⟨exts.pmap RawExtension.ofExtension short, ?_⟩
  rw [map_pmap]
  simp only [RawExtension.extension_ofExtension]
  exact pmap_eq_self.mpr fun ext _ => rfl

def cleared (raw : RawExtension) : RawExtension := { raw with reserved := 0 }

theorem rewritten_eq_cleared (kept : (rewritten raw).criticality = raw.criticality) :
    rewritten raw = cleared raw := by
  rw [cleared, ← kept]
  rfl

theorem criticality_rewritten_iff (raw : RawExtension) :
    (rewritten raw).criticality = raw.criticality ↔ raw.criticality = 0 ∨ raw.criticality = 1 := by
  have written : (rewritten raw).criticality = if raw.criticality = 1 then 1 else 0 := by
    simp [rewritten, RawExtension.ofExtension, RawExtension.extension]
  by_cases critical : raw.criticality = 1
  · simp [written, critical]
  · simp [written, critical, eq_comm]

theorem flatMap_rewritten_eq_iff :
    (raws.flatMap fun raw => (rewritten raw).wire) = (raws.flatMap fun raw => (cleared raw).wire) ↔
      ∀ raw ∈ raws, raw.criticality = 0 ∨ raw.criticality = 1 := by
  induction raws with
  | nil => simp
  | cons raw raws ih =>
    rw [flatMap_cons, flatMap_cons, forall_mem_cons, ← ih, ← criticality_rewritten_iff]
    constructor
    · intro same
      have kept : (rewritten raw).criticality = raw.criticality := by
        have there := congrArg (byteAt · 2) same
        simpa only [(fields_wire _ _).2.1, cleared] using there
      rw [rewritten_eq_cleared kept] at same
      exact ⟨kept, append_cancel_left same⟩
    · intro both
      rw [rewritten_eq_cleared both.1, both.2]

/-- What is encoded is decoded. Encoding an accepted section again only clears its reserved bytes
exactly if the criticality of every header is 0 or 1. -/
theorem extensions_lossless_iff (exts : List Extension) :
    ((∀ ext ∈ exts, ext.data.length < 2 ^ 32) →
      ∃ bytes, encodeExtensions exts = .ok bytes ∧ decodeExtensions bytes = .ok exts) ∧
    ∀ bytes : List UInt8, decodeExtensions bytes = .ok exts →
      (exts.map fun ext => 8 + ext.data.length).sum = bytes.length ∧
      ∃ raws : List RawExtension, bytes = raws.flatMap RawExtension.wire ∧ exts = raws.map RawExtension.extension ∧
        (encodeExtensions exts = .ok (raws.flatMap fun raw => (cleared raw).wire) ↔
          ∀ raw ∈ raws, raw.criticality = 0 ∨ raw.criticality = 1) := by
  constructor
  · intro short
    obtain ⟨raws, rfl⟩ := exists_raws_of_short short
    exact ⟨_, encodeExtensionsInto_raws [] raws, decodeExtensions_rewritten raws⟩
  · intro bytes decoded
    obtain ⟨raws, rfl, rfl⟩ := exists_raws decoded
    refine ⟨?_, raws, rfl, rfl, ?_⟩
    · rw [map_map, length_flatMap]
      congr 1
      exact map_congr_left fun raw _ => raw.length_wire.symm
    · rw [encodeExtensions, encodeExtensionsInto_raws, nil_append, Except.ok.injEq, flatMap_rewritten_eq_iff]

def emptyRecord (criticality reserved : UInt8) : RawExtension := ⟨1, criticality, reserved, [], by decide⟩

theorem decode_emptyRecord (criticality reserved : UInt8) :
    decodeExtensions [0, 1, criticality, reserved, 0, 0, 0, 0] = .ok [⟨1, criticality == 1, []⟩] := by
  have spelled : [emptyRecord criticality reserved].flatMap RawExtension.wire =
      [0, 1, criticality, reserved, 0, 0, 0, 0] := by
    simp [emptyRecord, RawExtension.wire, bigEndian]
  rw [← spelled, decodeExtensions_flatMap]
  rfl

/-- A critical extension, with a reserved byte that is not zero. -/
theorem extensions_lossless_critical :
    (∃ bytes, encodeExtensions [⟨1, true, [7]⟩] = .ok bytes ∧ decodeExtensions bytes = .ok [⟨1, true, [7]⟩]) ∧
      ∃ raws : List RawExtension, [0, 1, 1, 9, 0, 0, 0, 0] = raws.flatMap RawExtension.wire ∧
        (encodeExtensions [⟨1, true, []⟩] = .ok (raws.flatMap fun raw => (cleared raw).wire) ↔
          ∀ raw ∈ raws, raw.criticality = 0 ∨ raw.criticality = 1) := by
  refine ⟨(extensions_lossless_iff [⟨1, true, [7]⟩]).1 (by decide), ?_⟩
  obtain ⟨-, raws, same, -, reencoded⟩ := (extensions_lossless_iff _).2 _ (decode_emptyRecord 1 9)
  exact ⟨raws, same, reencoded⟩

/-- A criticality of 2 is read as not critical, and written as 0. -/
theorem criticality_downgraded : decodeExtensions [0, 1, 2, 0, 0, 0, 0, 0] = .ok [⟨1, false, []⟩] ∧
      encodeExtensions [⟨1, false, []⟩] = .ok [0, 1, 0, 0, 0, 0, 0, 0] :=
  ⟨decode_emptyRecord 2 0, rfl⟩

end Aafp.Messaging
