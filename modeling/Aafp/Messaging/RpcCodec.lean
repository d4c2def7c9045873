import Aafp.Cbor.Fields
import Aafp.Messaging.Rpc

/-! RPC messages on the wire: what is encoded is decoded to the same message. -/
namespace Aafp.Messaging

open Foundation Cbor

/-- The message is encoded, and its bytes, if there are no more than a slice can
hold, are decoded to it. -/
def Survives (encode : M → Except RpcError (List UInt8)) (decode : List UInt8 → Except RpcError M)
    (message : M) : Prop :=
  ∃ bytes, encode message = .ok bytes ∧ (bytes.length ≤ isizeMax → decode bytes = .ok message)

structure Fields (entries : List (Int64 × Value)) : Prop where
  distinct : (entries.map Prod.fst).Nodup
  wellFormed : ∀ entry ∈ entries, entry.2.WellFormed
  shallow : ∀ entry ∈ entries, entry.2.height ≤ 99

theorem survives_of_fields {toCbor : M → Value} {fromCbor : Value → Except RpcError M} {message : M}
    (written : toCbor message = .intMap entries) (fields : Fields entries)
    (parsed : fromCbor (Value.intMap entries).norm = .ok message) :
    Survives (encodeMessage toCbor) (decodeMessage fromCbor) message := by
  refine ⟨encodeValue (toCbor message), rfl, fun bounded => ?_⟩
  rw [written] at bounded ⊢
  have read := decode_encodeValue [] (.intMap fields.distinct fields.wellFormed) (height_intMap_le fields.shallow)
    (by simpa using bounded)
  rw [List.append_nil] at read
  rw [decodeMessage, read]
  exact parsed

structure Embeds (value : Value) : Prop where
  wellFormed : value.WellFormed
  inOrder : value.InCanonicalOrder
  keyed : value.NoEmptyStrMap
  shallow : value.height ≤ 98

theorem Embeds.norm_eq (embeds : Embeds value) : value.norm = value :=
  value.norm_eq_self embeds.inOrder embeds.keyed

@[simp] theorem embeds_unsigned (n : UInt64) : Embeds (.unsigned n) :=
  ⟨.unsigned, by simp [Value.InCanonicalOrder], by simp [Value.NoEmptyStrMap], by simp [Value.height]⟩

@[simp] theorem embeds_textString (text : String) : Embeds (.textString text) :=
  ⟨.textString, by simp [Value.InCanonicalOrder], by simp [Value.NoEmptyStrMap], by simp [Value.height]⟩

@[simp] theorem embeds_byteString (bytes : List UInt8) : Embeds (.byteString bytes) :=
  ⟨.byteString, by simp [Value.InCanonicalOrder], by simp [Value.NoEmptyStrMap], by simp [Value.height]⟩

@[simp] theorem embeds_bool (flag : Bool) : Embeds (.bool flag) :=
  ⟨.bool, by simp [Value.InCanonicalOrder], by simp [Value.NoEmptyStrMap], by simp [Value.height]⟩

theorem Fields.of_embeds (distinct : (entries.map Prod.fst).Nodup)
    (each : ∀ entry ∈ entries, Embeds entry.2) : Fields entries where
  distinct := distinct
  wellFormed entry mem := (each entry mem).wellFormed
  shallow entry mem := Nat.le_succ_of_le (each entry mem).shallow

theorem RpcRequest.survives (request : RpcRequest) (present : request.params ≠ .null)
    (embeds : Embeds request.params) : Survives RpcRequest.encode RpcRequest.decode request := by
  refine survives_of_fields rfl (.of_embeds (by simp) ?_) ?_
  · simp [embeds]
  · simp [fromCbor, readUint, readTstr, embeds.norm_eq]

section

variable (id : UInt64) (error : RpcErrorObject)

namespace RpcErrorObject

def fields (error : RpcErrorObject) : List (Int64 × Value) :=
  [(1, .unsigned error.code.toUInt64), (2, .textString error.message)] ++
    error.data.toList.map fun data => (3, .byteString data)

theorem fields_distinct : (error.fields.map Prod.fst).Nodup := by
  rw [fields]
  cases error.data <;> simp

theorem fields_embed : ∀ entry ∈ error.fields, Embeds entry.2 := by
  simp [fields, or_imp, forall_and]

theorem fromCbor_norm : fromCbor error.toCbor.norm = .ok error := by
  obtain ⟨code, message, data⟩ := error
  cases data <;> simp [fromCbor, toCbor, readUint, readTstr, readData]

end RpcErrorObject

theorem RpcResponse.success_survives (result : Value) (present : result ≠ .null)
    (embeds : Embeds result) : Survives RpcResponse.encode RpcResponse.decode (.success id result) := by
  refine survives_of_fields rfl (.of_embeds (by simp [success]) ?_) ?_
  · simp [success, embeds]
  · simp [fromCbor, success, readUint, embeds.norm_eq]

theorem RpcResponse.failure_survives : Survives RpcResponse.encode RpcResponse.decode (.failure id error) := by
  have errorFormed : error.toCbor.WellFormed :=
    .intMap error.fields_distinct fun entry mem => (error.fields_embed entry mem).wellFormed
  have errorShallow : error.toCbor.height ≤ 99 :=
    height_intMap_le fun entry mem => (error.fields_embed entry mem).shallow
  obtain ⟨entries, isMap⟩ : ∃ entries, error.toCbor.norm = .intMap entries :=
    ⟨_, by rw [RpcErrorObject.toCbor, Value.norm]⟩
  have errorRead : RpcErrorObject.fromCbor (.intMap entries) = .ok error := by
    rw [← isMap, error.fromCbor_norm]
  refine survives_of_fields rfl ⟨by simp [failure], ?_, ?_⟩ ?_
  · simp [failure, errorFormed, Value.WellFormed.unsigned]
  · simp [failure, errorShallow, Value.height]
  · simp [fromCbor, failure, readUint, isMap, errorRead]

end

theorem CloseMessage.survives (close : CloseMessage) : Survives CloseMessage.encode CloseMessage.decode close := by
  refine survives_of_fields rfl (.of_embeds (by simp) (by simp)) ?_
  simp [fromCbor, readUint, readTstr]

theorem ErrorMessage.survives (error : ErrorMessage) : Survives ErrorMessage.encode ErrorMessage.decode error := by
  obtain ⟨code, message, data, fatal⟩ := error
  refine survives_of_fields rfl (.of_embeds ?_ ?_) ?_
  · cases data <;> simp
  · simp [or_imp, forall_and]
  · cases data <;> simp [fromCbor, readUint, readTstr, readData]

/-- Requests, responses with an error or a result that is not null, and close and error messages
survive the wire. -/
theorem rpc_messages_survive : (∀ request : RpcRequest, request.params ≠ .null → Embeds request.params →
      Survives RpcRequest.encode RpcRequest.decode request) ∧ (∀ id result, result ≠ .null → Embeds result →
      Survives RpcResponse.encode RpcResponse.decode (.success id result)) ∧
    (∀ id error, Survives RpcResponse.encode RpcResponse.decode (.failure id error)) ∧
    (∀ close, Survives CloseMessage.encode CloseMessage.decode close) ∧
    ∀ error, Survives ErrorMessage.encode ErrorMessage.decode error :=
  ⟨RpcRequest.survives, RpcResponse.success_survives, RpcResponse.failure_survives,
    CloseMessage.survives, ErrorMessage.survives⟩

/-- A null result is encoded and then refused; an empty text-keyed map comes back as an
integer-keyed one. -/
theorem success_null_refused : (RpcResponse.success 1 .null).encode = .ok [0xA2, 0x01, 0x01, 0x02, 0xF6] ∧
      RpcResponse.decode [0xA2, 0x01, 0x01, 0x02, 0xF6] = .error (.invalidField "result" nullNotOmitted) ∧
      (RpcResponse.success 1 (.strMap [])).encode = .ok [0xA2, 0x01, 0x01, 0x02, 0xA0] ∧
      RpcResponse.decode [0xA2, 0x01, 0x01, 0x02, 0xA0] = .ok (.success 1 (.intMap [])) := by
  refine ⟨?_, ?_, ?_, ?_⟩ <;> decide +kernel

/-- Of the keys 1 to 4, each that the value has is in the encoding, with the same value. -/
def Carries (cbor val : Value) : Prop :=
  ∀ key ∈ ([1, 2, 3, 4] : List Int64), ∀ found, intMapGet val key = some found → intMapGet cbor key = some found

def CodeFits (val : Value) : Prop := ∃ code : UInt32, intMapGet val 1 = some (.unsigned code.toUInt64)

theorem readUint_eq_ok : readUint val field = .ok n ↔ val = some (.unsigned n) := by
  simp [readUint, expectField_eq_ok]

theorem readTstr_eq_ok : readTstr val field = .ok text ↔ val = some (.textString text) := by
  simp [readTstr, expectField_eq_ok]

theorem readData_eq_ok : readData val field = .ok data ↔ val = data.map .byteString := by
  unfold readData
  split <;> cases data <;> simp_all

/-- The code that is written back is the one that was read exactly if that one has no more
than 32 bits. -/
theorem unsigned_cast_iff (coded : intMapGet val 1 = some (.unsigned code)) :
    Value.unsigned code.toUInt32.toUInt64 = .unsigned code ↔ CodeFits val := by
  constructor
  · intro same
    exact ⟨code.toUInt32, by rw [coded, same]⟩
  · rintro ⟨narrow, same⟩
    rw [coded] at same
    cases same
    simp

theorem RpcErrorObject.carries_iff (read : RpcErrorObject.fromCbor val = .ok error) :
    Carries error.toCbor val ↔ CodeFits val ∧ intMapGet val 4 = none := by
  simp only [fromCbor, bind_eq_ok, readUint_eq_ok, readTstr_eq_ok, readData_eq_ok] at read
  obtain ⟨code, coded, message, texted, data, attached, ⟨⟩⟩ := read
  rw [← unsigned_cast_iff coded]
  cases data <;> simp_all [Carries, toCbor, Option.eq_none_iff_forall_not_mem]

theorem CloseMessage.carries_iff (read : CloseMessage.fromCbor val = .ok close) :
    Carries close.toCbor val ↔ CodeFits val ∧ intMapGet val 3 = none ∧ intMapGet val 4 = none := by
  simp only [fromCbor, bind_eq_ok, readUint_eq_ok, readTstr_eq_ok] at read
  obtain ⟨code, coded, message, texted, ⟨⟩⟩ := read
  rw [← unsigned_cast_iff coded]
  simp_all [Carries, toCbor, Option.eq_none_iff_forall_not_mem]

theorem ErrorMessage.carries_iff (read : ErrorMessage.fromCbor val = .ok error) :
    Carries error.toCbor val ↔ CodeFits val := by
  simp only [fromCbor, bind_eq_ok, readUint_eq_ok, readTstr_eq_ok, readData_eq_ok] at read
  obtain ⟨code, coded, message, texted, data, attached, flagged⟩ := read
  rw [← unsigned_cast_iff coded]
  split at flagged <;> cases flagged <;> cases data <;> simp_all [Carries, toCbor]

/-- The fields are carried exactly if the code fits its 32 bits and there is no field that the
message does not have. -/
theorem decoding_carries_iff (val : Value) :
    (∀ error, RpcErrorObject.fromCbor val = .ok error →
      (Carries error.toCbor val ↔ CodeFits val ∧ intMapGet val 4 = none)) ∧
    (∀ close, CloseMessage.fromCbor val = .ok close →
      (Carries close.toCbor val ↔ CodeFits val ∧ intMapGet val 3 = none ∧ intMapGet val 4 = none)) ∧
    ∀ error, ErrorMessage.fromCbor val = .ok error → (Carries error.toCbor val ↔ CodeFits val) :=
  ⟨fun _ => RpcErrorObject.carries_iff, fun _ => CloseMessage.carries_iff, fun _ => ErrorMessage.carries_iff⟩

/-- The map of a close message, or of an error without data, with the code. -/
def codeMap (code : UInt64) : Value := .intMap [(1, .unsigned code), (2, .textString "closed")]

theorem small_code_carried : CloseMessage.fromCbor (codeMap 5) = .ok ⟨5, "closed"⟩ ∧
    Carries (CloseMessage.toCbor ⟨5, "closed"⟩) (codeMap 5) :=
  ⟨rfl, ((decoding_carries_iff (codeMap 5)).2.1 _ rfl).mpr ⟨⟨5, rfl⟩, rfl, rfl⟩⟩

/-- The code 2³² + 5 is read as 5 by all three decoders, and is written back as 5. -/
theorem wide_code_altered : intMapGet (codeMap 4294967301) 1 = some (.unsigned 4294967301) ∧
    (∃ error, RpcErrorObject.fromCbor (codeMap 4294967301) = .ok error ∧ error.code = 5 ∧
      ¬ Carries error.toCbor (codeMap 4294967301)) ∧
    (∃ close, CloseMessage.fromCbor (codeMap 4294967301) = .ok close ∧ close.code = 5 ∧
      ¬ Carries close.toCbor (codeMap 4294967301)) ∧
    ∃ error, ErrorMessage.fromCbor (codeMap 4294967301) = .ok error ∧ error.code = 5 ∧
      ¬ Carries error.toCbor (codeMap 4294967301) := by
  have altered (cbor : Value) (five : intMapGet cbor 1 = some (.unsigned 5)) :
      ¬ Carries cbor (codeMap 4294967301) := by
    intro carried
    have same := carried 1 (by decide) (.unsigned 4294967301) rfl
    rw [five] at same
    simp at same
  exact ⟨rfl, ⟨_, rfl, rfl, altered _ rfl⟩, ⟨_, rfl, rfl, altered _ rfl⟩, _, rfl, rfl, altered _ rfl⟩

end Aafp.Messaging
