import Aafp.Foundation.HashMap
import Aafp.Identity.AgentId

/-! Revocation lists and the store in which an agent merges them. -/
namespace Aafp.Identity

open Foundation Cbor Crypto

def revocationDomainSeparator : List UInt8 := asBytes "AAFP-REVOCATION-V1"

def defaultCrlTtlSecs : UInt64 := 3600

inductive RevocationError where
  | cbor (error : CborError)
  | signatureVerificationFailed
  | expired
  | missingField (field : String)
  | invalidField (field message : String)
deriving DecidableEq

structure RevocationEntry where
  agentId : AgentId
  revokedAt : UInt64
  reason : Option String
  revokingKeyId : AgentId
  signature : List UInt8
deriving DecidableEq

namespace RevocationEntry

def reasonToCbor (entry : RevocationEntry) : Value :=
  (entry.reason.map Value.textString).getD .null

def toCborWithoutSig (entry : RevocationEntry) : Value :=
  .intMap [ (1, .byteString entry.agentId.1), (2, .unsigned entry.revokedAt), (3, entry.reasonToCbor),
    (4, .byteString entry.revokingKeyId.1)]

def toCbor (entry : RevocationEntry) : Value :=
  .intMap [ (1, .byteString entry.agentId.1), (2, .unsigned entry.revokedAt), (3, entry.reasonToCbor),
    (4, .byteString entry.revokingKeyId.1), (5, .byteString entry.signature)]

def signatureInput (entry : RevocationEntry) : List UInt8 :=
  revocationDomainSeparator ++ encodeValue entry.toCborWithoutSig

/-- The test for an agent id of 32 bytes. A value of another kind counts as missing. -/
def expectAgentId (val : Option Value) (field : String) : Except RevocationError AgentId :=
  match val with
  | some (.byteString bytes) =>
    if whole : bytes.length = 32 then .ok ⟨bytes, whole⟩
    else .error (.invalidField field "must be 32 bytes")
  | _ => .error (.missingField field)

/-- A reason that is not a text is dropped. -/
def fromCbor (val : Value) : Except RevocationError RevocationEntry := do
  let get := intMapGet val
  let agentId ← expectAgentId (get 1) "agent_id"
  let revokedAt ← match get 2 with
    | some (.unsigned n) => .ok n
    | _ => .error (.missingField "revoked_at")
  let reason := match get 3 with
    | some (.textString text) => some text
    | _ => none
  let revokingKeyId ← expectAgentId (get 4) "revoking_key_id"
  let signature ← match get 5 with
    | some (.byteString bytes) => .ok bytes
    | _ => .error (.missingField "signature")
  .ok { agentId, revokedAt, reason, revokingKeyId, signature }

def verify (prims : Primitives) (entry : RevocationEntry) (publicKey : List UInt8) : Bool :=
  prims.verify publicKey entry.signatureInput entry.signature

end RevocationEntry

structure RevocationList where
  entries : List RevocationEntry
  generatedAt : UInt64
  expiresAt : UInt64

namespace RevocationList

/-- The sum wraps around, as in a build without overflow checks. -/
def new (now ttlSeconds : UInt64) : RevocationList :=
  { entries := [], generatedAt := now, expiresAt := now + ttlSeconds }

variable (crl : RevocationList)

def isExpired (now : UInt64) : Bool := now ≥ crl.expiresAt

def revokedIds : List AgentId := crl.entries.map RevocationEntry.agentId

def toCbor (crl : RevocationList) : Value :=
  .intMap [ (1, .array (crl.entries.map RevocationEntry.toCbor)), (2, .unsigned crl.generatedAt),
    (3, .unsigned crl.expiresAt)]

def encode : List UInt8 := encodeValue crl.toCbor

def fromCbor (val : Value) : Except RevocationError RevocationList := do
  let get := intMapGet val
  let entries ← match get 1 with
    | some (.array items) => items.mapM RevocationEntry.fromCbor
    | _ => .error (.missingField "entries")
  let generatedAt ← match get 2 with
    | some (.unsigned n) => .ok n
    | _ => .error (.missingField "generated_at")
  let expiresAt ← match get 3 with
    | some (.unsigned n) => .ok n
    | _ => .error (.missingField "expires_at")
  .ok { entries, generatedAt, expiresAt }

def decode (data : List UInt8) : Except RevocationError RevocationList := do
  let (val, _) ← (Cbor.decode data).mapError .cbor
  fromCbor val

end RevocationList

structure RevocationStore where
  revoked : HashSet AgentId
  crls : List RevocationList
  merged : ∀ agentId, agentId ∈ revoked ↔ ∃ crl ∈ crls, agentId ∈ crl.revokedIds

namespace RevocationStore

def new : RevocationStore where
  revoked := ∅
  crls := []
  merged agentId := by simp

variable (store : RevocationStore)

/-- Nothing of the list is checked here. -/
def addCrl (crl : RevocationList) : RevocationStore where
  revoked := store.revoked.insertAll crl.revokedIds
  crls := store.crls ++ [crl]
  merged agentId := by simp [store.merged agentId, or_and_right, exists_or]

def isRevoked (agentId : AgentId) : Bool := agentId ∈ store.revoked

def evictExpired (now : UInt64) : RevocationStore :=
  let crls := store.crls.filter fun crl => !crl.isExpired now
  { revoked := HashSet.insertAll ∅ (crls.flatMap RevocationList.revokedIds)
    crls
    merged := by simp }

def revokedCount : Nat := store.revoked.keys.length

def revokedIds (pass : IterationOrder AgentId Unit) : List AgentId :=
  pass.members store.revoked

@[simp] theorem isRevoked_new : new.isRevoked agentId = false := by
  simp [isRevoked, new]

@[simp] theorem isRevoked_addCrl {store : RevocationStore} : (store.addCrl crl).isRevoked agentId = true ↔
      store.isRevoked agentId = true ∨ agentId ∈ crl.revokedIds := by
  simp [isRevoked, addCrl]

theorem isRevoked_of_evictExpired {store : RevocationStore}
    (kept : (store.evictExpired now).isRevoked agentId = true) : store.isRevoked agentId = true := by
  simp only [isRevoked, decide_eq_true_eq] at kept ⊢
  obtain ⟨crl, mem, listed⟩ := ((store.evictExpired now).merged agentId).mp kept
  exact (store.merged agentId).mpr ⟨crl, List.mem_of_mem_filter mem, listed⟩

end RevocationStore

end Aafp.Identity
