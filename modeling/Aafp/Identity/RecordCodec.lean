import Aafp.Crypto.MessageCodec
import Aafp.Identity.AgentRecord

/-! Agent records on the wire. -/
namespace Aafp.Identity

open Foundation Cbor Crypto List

section

variable (metadata : List (String × MetadataValue)) (value : MetadataValue)

namespace MetadataValue

theorem fromCbor_toCbor : fromCbor value.toCbor = .ok value := by
  cases value with
  | int n =>
    by_cases positive : n ≥ 0
    · simp [toCbor, fromCbor, positive]
    · simp [toCbor, fromCbor, positive]
  | _ => rfl

theorem wellFormed_toCbor : value.toCbor.WellFormed := by
  cases value with
  | bool flag => exact .bool
  | int n =>
    by_cases positive : n ≥ 0
    · simp only [toCbor, positive, ↓reduceIte]
      exact .unsigned
    · simp only [toCbor, positive, ↓reduceIte]
      exact .negative (Int64.not_le.mp positive)
  | text string => exact .textString
  | bytes data => exact .byteString

theorem norm_toCbor : value.toCbor.norm = value.toCbor := by
  cases value with
  | int n =>
    by_cases positive : n ≥ 0
    · simp only [toCbor, positive, ↓reduceIte, norm_unsigned]
    · simp [toCbor, positive, Value.norm]
  | _ => simp [toCbor]

end MetadataValue

namespace CapabilityDescriptor

variable (cap : CapabilityDescriptor)

def norm : CapabilityDescriptor :=
  { cap with metadata := sortStrKeys cap.metadata }

theorem toCbor_eq : cap.toCbor = .intMap [(1, .textString cap.name),
    (2, .strMap (cap.metadata.map fun entry => (entry.1, entry.2.toCbor)))] := by
  unfold toCbor
  by_cases empty : cap.metadata = []
  · simp [empty]
  · simp [empty]

theorem sort_metadata :
    sortStrKeys ((metadata.map fun entry => (entry.1, entry.2.toCbor)).map fun entry => (entry.1, entry.2.norm)) =
    (sortStrKeys metadata).map fun entry => (entry.1, entry.2.toCbor) := by
  rw [map_map, ← sortStrKeys_map]
  congr 1
  exact map_congr_left fun entry _ => by simp [MetadataValue.norm_toCbor]

theorem norm_metadata : (Value.strMap (metadata.map fun entry => (entry.1, entry.2.toCbor))).norm =
      if metadata.isEmpty then .intMap []
      else .strMap ((sortStrKeys metadata).map fun entry => (entry.1, entry.2.toCbor)) := by
  rw [Value.norm, isEmpty_map, sort_metadata]

theorem fromCbor_norm : fromCbor cap.toCbor.norm = .ok cap.norm := by
  rw [toCbor_eq]
  by_cases empty : cap.metadata = []
  · simp [fromCbor, empty, expectTstr, norm, sortStrKeys, sortBy]
  · have read : ((sortStrKeys cap.metadata).map fun entry => (entry.1, entry.2.toCbor)).mapM
        (fun entry => MetadataValue.fromCbor entry.2 >>= fun value => .ok (entry.1, value)) =
          .ok (sortStrKeys cap.metadata) := by
      have each (entry : String × MetadataValue) :
          (MetadataValue.fromCbor entry.2.toCbor >>= fun value => .ok (entry.1, value)) = .ok entry := by
        rw [MetadataValue.fromCbor_toCbor, ok_bind]
      rw [mapM_map]
      exact (mapM_ok each _).trans (by rw [map_id'])
    simp [fromCbor, norm_metadata, empty, expectTstr, norm, read]

theorem encodeValue_norm_toCbor : encodeValue cap.norm.toCbor = encodeValue cap.toCbor := by
  rw [toCbor_eq, toCbor_eq]
  apply encodeValue_intMap_congr
  simp only [map_cons, map_nil, norm, ← sort_metadata, encodeValue_strMap_sort]

theorem wellFormed_toCbor {cap : CapabilityDescriptor}
    (distinct : (cap.metadata.map Prod.fst).Nodup) : cap.toCbor.WellFormed := by
  have metadata : (Value.strMap (cap.metadata.map fun entry => (entry.1, entry.2.toCbor))).WellFormed :=
    .strMap (by simpa [Function.comp_def] using distinct)
      (forall_mem_map.mpr fun entry _ => entry.2.wellFormed_toCbor)
  rw [toCbor_eq, Value.wellFormed_intMap]
  exact ⟨by simp, by simpa [Value.WellFormed.textString] using metadata⟩

end CapabilityDescriptor

end

namespace AgentRecord

def norm (record : AgentRecord) : AgentRecord :=
  { record with
    capabilities := record.capabilities.map CapabilityDescriptor.norm
    extensions := sortStrKeys (record.extensions.map fun entry => (entry.1, entry.2.norm)) }

theorem fromCbor_norm (record : AgentRecord) : fromCbor record.toCbor.norm = .ok record.norm := by
  have capabilities : record.capabilities.mapM
      (CapabilityDescriptor.fromCbor ∘ Value.norm ∘ CapabilityDescriptor.toCbor) =
        .ok (record.capabilities.map CapabilityDescriptor.norm) :=
    mapM_ok CapabilityDescriptor.fromCbor_norm _
  have endpoints : record.endpoints.mapM (endpointFromCbor ∘ Value.norm ∘ Value.textString) =
      .ok record.endpoints := by
    have each (endpoint : String) :
        (endpointFromCbor ∘ Value.norm ∘ Value.textString) endpoint = .ok endpoint := by
      simp [endpointFromCbor]
    rw [mapM_ok each, map_id']
  by_cases empty : record.extensions = []
  · simp [fromCbor, toCbor, extensionEntry, expectTstr, expectBstr, expectArray, expectU64, capabilities,
      endpoints, norm, empty, sortStrKeys, sortBy]
  · simp [fromCbor, toCbor, extensionEntry, expectTstr, expectBstr, expectArray, expectU64, capabilities,
      endpoints, norm, empty, norm_strMap]

/-- No key of a map is given twice, the extensions are well formed, and the nesting is within the
decoder's limit. -/
structure WellFormed (record : AgentRecord) : Prop where
  metadata : ∀ cap ∈ record.capabilities, (cap.metadata.map Prod.fst).Nodup
  namespaces : (record.extensions.map Prod.fst).Nodup
  values : ∀ entry ∈ record.extensions, entry.2.WellFormed
  nesting : record.toCbor.height ≤ maxDecodeDepth

variable {record : AgentRecord}

theorem WellFormed.capabilities (wellFormed : record.WellFormed) :
    (Value.array (record.capabilities.map CapabilityDescriptor.toCbor)).WellFormed := by
  refine .array fun item mem => ?_
  obtain ⟨cap, listed, rfl⟩ := mem_map.mp mem
  exact CapabilityDescriptor.wellFormed_toCbor (wellFormed.metadata cap listed)

theorem wellFormed_endpoints (record : AgentRecord) :
    (Value.array (record.endpoints.map Value.textString)).WellFormed := by
  refine .array fun item mem => ?_
  obtain ⟨endpoint, -, rfl⟩ := mem_map.mp mem
  exact .textString

theorem WellFormed.extensionEntry (wellFormed : record.WellFormed) :
    ∀ entry ∈ record.extensionEntry, entry.2.WellFormed := by
  intro entry mem
  unfold AgentRecord.extensionEntry at mem
  split at mem
  · cases mem
  · rw [mem_singleton.mp mem]
    exact .strMap wellFormed.namespaces wellFormed.values

theorem distinct_append_extensionEntry {fields : List (Int64 × Value)} (distinct : (fields.map Prod.fst).Nodup)
    (free : 11 ∉ fields.map Prod.fst) : ((fields ++ record.extensionEntry).map Prod.fst).Nodup := by
  rw [AgentRecord.extensionEntry]
  split
  · simpa using distinct
  · simpa [nodup_append] using ⟨distinct, fun key value mem same => free (mem_map.mpr ⟨_, mem, same⟩)⟩

theorem WellFormed.toCbor (wellFormed : record.WellFormed) : record.toCbor.WellFormed := by
  refine .intMap ?_ (forall_mem_append.mpr ⟨?_, wellFormed.extensionEntry⟩)
  · exact distinct_append_extensionEntry (by simp) (by simp)
  simp only [forall_mem_cons]
  exact ⟨.textString, .byteString, .byteString, wellFormed.capabilities, record.wellFormed_endpoints,
    .unsigned, .unsigned, .byteString, .unsigned, .unsigned, by simp⟩

theorem WellFormed.toCborWithoutSig (wellFormed : record.WellFormed) : record.toCborWithoutSig.WellFormed := by
  refine .intMap ?_ (forall_mem_append.mpr ⟨?_, wellFormed.extensionEntry⟩)
  · exact distinct_append_extensionEntry (by simp) (by simp)
  simp only [forall_mem_cons]
  exact ⟨.textString, .byteString, .byteString, wellFormed.capabilities, record.wellFormed_endpoints,
    .unsigned, .unsigned, .unsigned, .unsigned, by simp⟩

theorem height_toCborWithoutSig_le (record : AgentRecord) :
    record.toCborWithoutSig.height ≤ record.toCbor.height := by
  refine height_intMap_mono fun entry mem => ?_
  simp only [mem_append, mem_cons] at mem ⊢
  tauto

theorem encodeValue_norm_toCborWithoutSig (record : AgentRecord) :
    encodeValue record.norm.toCborWithoutSig = encodeValue record.toCborWithoutSig := by
  have capabilities : encodeValue
      (.array (record.capabilities.map (CapabilityDescriptor.toCbor ∘ CapabilityDescriptor.norm))) =
        encodeValue (.array (record.capabilities.map CapabilityDescriptor.toCbor)) := by
    apply encodeValue_array_congr
    simp [Function.comp_def, CapabilityDescriptor.encodeValue_norm_toCbor]
  have extensions := encodeValue_strMap_sort record.extensions
  apply encodeValue_intMap_congr
  by_cases empty : record.extensions = []
  · simp [capabilities, norm, extensionEntry, empty]
  · simp [capabilities, norm, extensionEntry, empty, extensions]

theorem verify_norm (prims : Primitives) (record : AgentRecord) (now : UInt64) :
    record.norm.verify prims now = record.verify prims now := by
  have same : record.norm.sigInput = record.sigInput := by
    rw [sigInput, sigInput, encodeValue_norm_toCborWithoutSig]
  simp only [verify, same]
  rfl

end AgentRecord

/-- Descriptors that differ in the order of their metadata only. -/
structure CapabilityDescriptor.Agree (left right : CapabilityDescriptor) : Prop where
  name : left.name = right.name
  metadata : left.metadata.Perm right.metadata

/-- Agreement on every signed field, up to the order of map entries and the kind of empty maps. -/
structure AgentRecord.Agree (left right : AgentRecord) : Prop where
  recordType : left.recordType = right.recordType
  agentId : left.agentId = right.agentId
  publicKey : left.publicKey = right.publicKey
  capabilities : List.Forall₂ CapabilityDescriptor.Agree left.capabilities right.capabilities
  endpoints : left.endpoints = right.endpoints
  createdAt : left.createdAt = right.createdAt
  expiresAt : left.expiresAt = right.expiresAt
  keyAlgorithm : left.keyAlgorithm = right.keyAlgorithm
  recordVersion : left.recordVersion = right.recordVersion
  extensions : (Value.strMap left.extensions).Reordered (Value.strMap right.extensions)

theorem CapabilityDescriptor.agree_of_norm {left right : CapabilityDescriptor}
    (same : left.toCbor.norm = right.toCbor.norm) : left.Agree right := by
  have parsed := left.fromCbor_norm
  rw [same, right.fromCbor_norm] at parsed
  have norms : right.norm = left.norm := Except.ok.inj parsed
  refine ⟨(congrArg name norms).symm, ?_⟩
  have sorted : sortStrKeys right.metadata = sortStrKeys left.metadata := congrArg metadata norms
  have perm := sortStrKeys_perm left.metadata
  rw [← sorted] at perm
  exact perm.symm.trans (sortStrKeys_perm right.metadata)

theorem CapabilityDescriptor.agree_norm (cap : CapabilityDescriptor) : cap.norm.Agree cap :=
  ⟨rfl, sortStrKeys_perm cap.metadata⟩

namespace AgentRecord

theorem agree_norm (record : AgentRecord) : record.norm.Agree record := by
  refine ⟨rfl, rfl, rfl, ?_, rfl, rfl, rfl, rfl, rfl, ?_⟩
  · exact forall₂_map_left_iff.mpr (forall₂_same.mpr fun cap _ => cap.agree_norm)
  · have reordered := (Value.strMap record.extensions).reordered_norm.symm
    by_cases empty : record.extensions = []
    · have same : record.norm.extensions = [] := by simp [norm, empty]
      rw [same, empty]
      exact .refl _
    · rwa [norm_strMap empty] at reordered

theorem agree_of_encode_eq {left right : AgentRecord} (wellFormed : left.WellFormed)
    (otherFormed : right.WellFormed) (bounded : (encodeValue left.toCborWithoutSig).length ≤ isizeMax)
    (same : encode left.toCborWithoutSig = encode right.toCborWithoutSig) : left.Agree right := by
  have embeds (record : AgentRecord) (formed : record.WellFormed) :
      record.toCborWithoutSig.WellFormed ∧ record.toCborWithoutSig.height ≤ maxDecodeDepth :=
    ⟨formed.toCborWithoutSig, record.height_toCborWithoutSig_le.trans formed.nesting⟩
  have field := fields_eq (embeds left wellFormed) (embeds right otherFormed) bounded same
  have capabilities : left.capabilities.map (Value.norm ∘ CapabilityDescriptor.toCbor) =
      right.capabilities.map (Value.norm ∘ CapabilityDescriptor.toCbor) := by
    simpa using field 4
  have endpoints : left.endpoints.map Value.textString = right.endpoints.map Value.textString := by
    simpa [Function.comp_def] using field 5
  have extensions : (left.extensions = [] ∧ right.extensions = []) ∨
      (Value.strMap left.extensions).norm = (Value.strMap right.extensions).norm := by
    have found := field 11
    by_cases empty : left.extensions = [] <;> by_cases otherEmpty : right.extensions = [] <;>
      simp_all [intMapGet, extensionEntry]
  exact {
    recordType := by simpa using field 1
    agentId := Subtype.ext (by simpa using field 2)
    publicKey := by simpa using field 3
    capabilities := (forall₂_of_map_eq capabilities).imp fun _ _ => CapabilityDescriptor.agree_of_norm
    endpoints := map_injective_iff.mpr (fun _ _ => Value.textString.inj) endpoints
    createdAt := by simpa using field 6
    expiresAt := by simpa using field 7
    keyAlgorithm := by simpa using field 9
    recordVersion := by simpa using field 10
    extensions := by
      rcases extensions with ⟨empty, otherEmpty⟩ | norms
      · rw [empty, otherEmpty]
        exact .refl _
      · exact Value.reordered_of_norm_eq norms }

end AgentRecord

/-- What is parsed from the bytes of a record is the record, and verifies if it does. The signed
bytes cover every field but the signature. -/
theorem record_survives_wire (prims : Primitives) (record : AgentRecord)
    (wellFormed : record.WellFormed) (bounded : (encodeValue record.toCbor).length ≤ isizeMax)
    (signedBounded : (encodeValue record.toCborWithoutSig).length ≤ isizeMax) :
    (∃ bytes value decoded, encode record.toCbor = .ok bytes ∧
      decode bytes = .ok (value, bytes.length) ∧ AgentRecord.fromCbor value = .ok decoded ∧
      decoded.Agree record ∧ decoded.signature = record.signature ∧
      ∀ now, record.verify prims now = .ok () → decoded.verify prims now = .ok ()) ∧
    ∀ other : AgentRecord, other.WellFormed →
      encode record.toCborWithoutSig = encode other.toCborWithoutSig → record.Agree other := by
  constructor
  · have read := decode_encodeValue [] wellFormed.toCbor wellFormed.nesting (by simpa using bounded)
    rw [append_nil] at read
    refine ⟨_, _, record.norm, rfl, read, record.fromCbor_norm, record.agree_norm, rfl, ?_⟩
    intro now verifies
    rw [record.verify_norm]
    exact verifies
  · intro other otherFormed same
    exact AgentRecord.agree_of_encode_eq wellFormed otherFormed signedBounded same

def sampleRecord (value : Value) : AgentRecord :=
  { recordType := recordTypeV1, agentId := .filled 0, publicKey := []
    capabilities := [⟨"inference", [("model", .text "m"), ("k", .int (-3))]⟩]
    endpoints := ["/ip4/127.0.0.1"], createdAt := 1, expiresAt := 2, signature := []
    keyAlgorithm := keyAlgMlDsa65, recordVersion := 1, extensions := [("x", value)] }

theorem sampleRecord_wellFormed (flat : value.WellFormed) (low : value.height ≤ 2) :
    (sampleRecord value).WellFormed where
  metadata := by simp [sampleRecord]
  namespaces := by simp [sampleRecord]
  values := by simpa [sampleRecord] using flat
  nesting := by
    simp [sampleRecord, AgentRecord.toCbor, AgentRecord.extensionEntry, CapabilityDescriptor.toCbor_eq,
      MetadataValue.toCbor, Value.height, maxDecodeDepth]
    omega

theorem record_survives_wire_sample :
    let record := sampleRecord (.array [.unsigned 7])
    record.WellFormed ∧ ∃ bytes value decoded, encode record.toCbor = .ok bytes ∧
      decode bytes = .ok (value, bytes.length) ∧ AgentRecord.fromCbor value = .ok decoded ∧
      decoded.Agree record := by
  intro record
  have wellFormed : record.WellFormed :=
    sampleRecord_wellFormed (.array (by simp [Value.WellFormed.unsigned])) (by simp [Value.height])
  obtain ⟨⟨bytes, value, decoded, encoded, read, parsed, agrees, -⟩, -⟩ :=
    record_survives_wire .standIn record wellFormed (by decide +kernel) (by decide +kernel)
  exact ⟨wellFormed, bytes, value, decoded, encoded, read, parsed, agrees⟩

/-- Two records that differ in the kind of an empty map are signed alike. -/
theorem records_sign_empty_maps_alike :
    let left := sampleRecord (.strMap [])
    let right := sampleRecord (.intMap [])
    left.WellFormed ∧ right.WellFormed ∧
      encode left.toCborWithoutSig = encode right.toCborWithoutSig ∧
      ¬∃ extensions, left.extensions.Perm extensions ∧
        List.Forall₂ (fun entry other => entry.1 = other.1 ∧ Rearranged entry.2 other.2)
          extensions right.extensions := by
  refine ⟨?_, ?_, by decide +kernel, ?_⟩
  · exact sampleRecord_wellFormed (.strMap .nil (by simp)) (by simp [Value.height])
  · exact sampleRecord_wellFormed (.intMap .nil (by simp)) (by simp [Value.height])
  · intro alike
    obtain ⟨extensions, perm, matched⟩ := alike
    rw [perm_singleton.mp perm.symm] at matched
    cases matched with
    | cons same _ => simpa using same.2.intMap_iff.mpr ⟨[], rfl⟩

end Aafp.Identity
