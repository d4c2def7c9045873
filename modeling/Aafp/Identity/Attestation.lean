import Aafp.Foundation.OwnerLists
import Aafp.Identity.AgentId

/-! Attestations, in which an agent says how another one has performed, and the store that files
them under the agent they are about. -/
namespace Aafp.Identity

open Foundation Cbor Crypto

def attestationDomainSeparator : List UInt8 := asBytes "aafp-v1-attestation"

def attestationTypeV1 : String := "aafp-attestation-v1"

structure AttestationData where
  observedAvgLatencyMs : Option UInt16
  observedSuccessRateBps : Option UInt16
  sampleCount : UInt32
  trustScore : UInt8
  notes : Option String
deriving DecidableEq

/-- What was not observed is left out. -/
def AttestationData.toCbor (data : AttestationData) : Value :=
  .intMap ((data.observedAvgLatencyMs.toList.map fun lat => (1, .unsigned lat.toUInt64)) ++
    (data.observedSuccessRateBps.toList.map fun bps => (2, .unsigned bps.toUInt64)) ++
    [(3, .unsigned data.sampleCount.toUInt64), (4, .unsigned data.trustScore.toUInt64)] ++
    data.notes.toList.map fun notes => (5, .textString notes))

structure Attestation where
  recordType : String
  subjectAgentId : AgentId
  attesterAgentId : AgentId
  attesterPublicKey : List UInt8
  attestedAt : UInt64
  expiresAt : UInt64
  data : AttestationData
  signature : List UInt8

namespace Attestation

def toCborWithoutSig (att : Attestation) : Value :=
  .intMap [ (1, .textString att.recordType), (2, .byteString att.subjectAgentId.1),
    (3, .byteString att.attesterAgentId.1), (4, .byteString att.attesterPublicKey), (5, .unsigned att.attestedAt),
    (6, .unsigned att.expiresAt), (7, att.data.toCbor)]

def signingInput (att : Attestation) : List UInt8 :=
  attestationDomainSeparator ++ encodeValue att.toCborWithoutSig

/-- `coins` is the randomness of the signature. -/
def sign (prims : Primitives) (secretKey coins : List UInt8) (att : Attestation) : Attestation :=
  { att with signature := prims.signWith secretKey att.signingInput coins }

def verify (prims : Primitives) (att : Attestation) (now : UInt64) : Except IdentityError Unit := do
  ensure (att.attesterAgentId = deriveAgentId prims att.attesterPublicKey) .invalidAgentId
  ensure (att.recordType = attestationTypeV1) (.invalidRecordType att.recordType)
  ensure (prims.isPublicKey att.attesterPublicKey) .invalidPublicKey
  ensure (att.signature.length = mlDsa65SignatureLen) .invalidSignatureLength
  ensure (prims.verify att.attesterPublicKey att.signingInput att.signature) .signatureVerificationFailed
  ensure (now < att.expiresAt) (.expired att.expiresAt now)

end Attestation

inductive AttestationStoreError where
  | verificationFailed
  | selfAttestation

abbrev AttestationKey := Bytes32

/-- `attestations` is the source's `store`. -/
structure AttestationStore where
  attestations : AList fun _ : AttestationKey => Attestation
  bySubject : AList fun _ : AgentId => List AttestationKey

namespace AttestationStore

def new : AttestationStore := ⟨∅, ∅⟩

def attestationKey (prims : Primitives) (subject attester : AgentId) : AttestationKey :=
  prims.sha256 (asBytes "aafp-attestation" ++ subject.1 ++ attester.1)

variable (held : AttestationStore)

def file (subject : AgentId) (key : AttestationKey) (att : Attestation) : AttestationStore :=
  ⟨held.attestations.insert key att, pushKey held.bySubject subject key⟩

/-- Neither the subject nor the attester is compared with those that the attestation names. -/
def store (prims : Primitives) (subject attester : AgentId) (att : Attestation)
    (now : UInt64) : Except AttestationStoreError AttestationStore := do
  (att.verify prims now).mapError fun _ => .verificationFailed
  ensure (subject ≠ attester) .selfAttestation
  .ok (held.file subject (attestationKey prims subject attester) att)

def getForAgent (subject : AgentId) : List Attestation :=
  listedValues held.bySubject held.attestations subject

def get (prims : Primitives) (subject attester : AgentId) : Option Attestation :=
  held.attestations.lookup (attestationKey prims subject attester)

def evict (held : AttestationStore) (key : AttestationKey) : AttestationStore :=
  match held.attestations.lookup key with
  | some att => ⟨held.attestations.erase key, dropKey held.bySubject att.subjectAgentId key⟩
  | none => held

def evictExpired (pass : IterationOrder AttestationKey Attestation) (now : UInt64) : Nat × AttestationStore :=
  let expiredKeys := ((pass.iterate held.attestations).filter fun entry => entry.2.expiresAt ≤ now).map Sigma.fst
  (expiredKeys.length, expiredKeys.foldl evict held)

end AttestationStore

end Aafp.Identity
