import Aafp.Identity.AgentId

/-! Agent records. -/
namespace Aafp.Identity

open Foundation Crypto Cbor

structure LegacyRecord where
  agentId : AgentId
  publicKey : List UInt8
  capabilities : List String
  endpoints : List String
  version : UInt64
  timestamp : UInt64
  signature : List UInt8
deriving DecidableEq

structure LegacyCodec where
  toBytes : LegacyRecord → Except String (List UInt8)
  fromBytes : List UInt8 → Except String LegacyRecord
  unsignedCbor : LegacyRecord → List UInt8
  fromBytes_toBytes : ∀ record bytes, toBytes record = .ok bytes → fromBytes bytes = .ok record

namespace LegacyRecord

def verify (prims : Primitives) (codec : LegacyCodec) (record : LegacyRecord) : Bool :=
  if deriveAgentId prims record.publicKey ≠ record.agentId then false
  else if !prims.isPublicKey record.publicKey then false
  else if record.signature.length ≠ mlDsa65SignatureLen then false
  else prims.verify record.publicKey (codec.unsignedCbor record) record.signature

end LegacyRecord

def recordDomainSeparator : List UInt8 := asBytes "aafp-v1-record"

def recordTypeV1 : String := "aafp-record-v1"

def keyAlgMlDsa65 : UInt64 := 1

inductive MetadataValue where
  | bool (flag : Bool)
  | int (n : Int64)
  | text (string : String)
  | bytes (data : List UInt8)
deriving DecidableEq

namespace MetadataValue

def toCbor : MetadataValue → Value
  | .bool flag => .bool flag
  | .int n => if n ≥ 0 then .unsigned n.toUInt64 else .negative n
  | .text string => .textString string
  | .bytes data => .byteString data

/-- An unsigned number wraps around: `*n as i64`. -/
def fromCbor : Value → Except IdentityError MetadataValue
  | .bool flag => .ok (.bool flag)
  | .unsigned n => .ok (.int n.toInt64)
  | .negative n => .ok (.int n)
  | .textString string => .ok (.text string)
  | .byteString data => .ok (.bytes data)
  | other => .error (.unexpectedValue "metadata_value" "unsupported value type:" other)

end MetadataValue

structure CapabilityDescriptor where
  name : String
  metadata : List (String × MetadataValue)
deriving DecidableEq

namespace CapabilityDescriptor

def new (name : String) : CapabilityDescriptor := { name, metadata := [] }

def toCbor (cap : CapabilityDescriptor) : Value :=
  let metadata := if cap.metadata.isEmpty then .strMap []
    else .strMap (cap.metadata.map fun entry => (entry.1, entry.2.toCbor))
  .intMap [(1, .textString cap.name), (2, metadata)]

/-- An empty metadata map is decoded as a map with integer keys, and metadata may
be left out. -/
def fromCbor (val : Value) : Except IdentityError CapabilityDescriptor := do
  let get := intMapGet val
  let name ← expectTstr (get 1) "name"
  let metadata ← match get 2 with
    | some (.strMap entries) => entries.mapM fun entry => do
        let value ← MetadataValue.fromCbor entry.2
        .ok (entry.1, value)
    | some (.intMap _) => .ok []
    | none => .ok []
    | some other => .error (.unexpectedValue "metadata" "expected map, got" other)
  .ok { name, metadata }

end CapabilityDescriptor

structure AgentRecord where
  recordType : String
  agentId : AgentId
  publicKey : List UInt8
  capabilities : List CapabilityDescriptor
  endpoints : List String
  createdAt : UInt64
  expiresAt : UInt64
  signature : List UInt8
  keyAlgorithm : UInt64
  recordVersion : UInt64
  extensions : List (String × Value)
deriving DecidableEq

namespace AgentRecord

/-- A record that is not signed yet. -/
def new (prims : Primitives) (publicKey : List UInt8) (capabilities : List CapabilityDescriptor)
    (endpoints : List String) (createdAt expiresAt keyAlgorithm : UInt64) : AgentRecord :=
  { recordType := recordTypeV1, agentId := deriveAgentId prims publicKey, publicKey, capabilities
    endpoints, createdAt, expiresAt, signature := [], keyAlgorithm, recordVersion := 1
    extensions := [] }

variable (record : AgentRecord)

def extensionEntry : List (Int64 × Value) :=
  if record.extensions.isEmpty then [] else [(11, .strMap record.extensions)]

def toCborWithoutSig : Value :=
  .intMap ([ (1, .textString record.recordType), (2, .byteString record.agentId.1),
    (3, .byteString record.publicKey), (4, .array (record.capabilities.map CapabilityDescriptor.toCbor)),
    (5, .array (record.endpoints.map Value.textString)), (6, .unsigned record.createdAt),
    (7, .unsigned record.expiresAt), (9, .unsigned record.keyAlgorithm),
    (10, .unsigned record.recordVersion)] ++ record.extensionEntry)

def toCbor (record : AgentRecord) : Value :=
  .intMap ([ (1, .textString record.recordType), (2, .byteString record.agentId.1),
    (3, .byteString record.publicKey), (4, .array (record.capabilities.map CapabilityDescriptor.toCbor)),
    (5, .array (record.endpoints.map Value.textString)), (6, .unsigned record.createdAt),
    (7, .unsigned record.expiresAt), (8, .byteString record.signature), (9, .unsigned record.keyAlgorithm),
    (10, .unsigned record.recordVersion)] ++ record.extensionEntry)

def endpointFromCbor : Value → Except IdentityError String
  | .textString text => .ok text
  | other => .error (.unexpectedValue "endpoints" "expected tstr in array, got" other)

def fromCbor (val : Value) : Except IdentityError AgentRecord := do
  let get := intMapGet val
  let recordType ← expectTstr (get 1) "record_type"
  let agentIdBytes ← expectBstr (get 2) "agent_id"
  let agentId ← agentIdFromBytes agentIdBytes
  let publicKey ← expectBstr (get 3) "public_key"
  let capabilities ← (← expectArray (get 4) "capabilities").mapM CapabilityDescriptor.fromCbor
  let endpoints ← (← expectArray (get 5) "endpoints").mapM endpointFromCbor
  let createdAt ← expectU64 (get 6) "created_at"
  let expiresAt ← expectU64 (get 7) "expires_at"
  let signature ← expectBstr (get 8) "signature"
  let keyAlgorithm ← expectU64 (get 9) "key_algorithm"
  let recordVersion ← match get 10 with
    | some (.unsigned n) => .ok n
    | none => .ok 0
    | some other => .error (.unexpectedValue "record_version" "expected uint, got" other)
  let extensions ← match get 11 with
    | some (.strMap entries) => .ok entries
    | some (.intMap _) => .ok []
    | none => .ok []
    | some other => .error (.unexpectedValue "extensions" "expected map, got" other)
  .ok { recordType, agentId, publicKey, capabilities, endpoints, createdAt, expiresAt, signature
        keyAlgorithm, recordVersion, extensions }

def sigInput : List UInt8 :=
  recordDomainSeparator ++ encodeValue record.toCborWithoutSig

/-- `coins` is the randomness of the signature. -/
def sign (prims : Primitives) (secretKey coins : List UInt8) (record : AgentRecord) : AgentRecord :=
  { record with signature := prims.signWith secretKey record.sigInput coins }

def isExpired (now : UInt64) : Bool := record.expiresAt ≤ now

def verify (prims : Primitives) (record : AgentRecord) (now : UInt64) : Except IdentityError Unit := do
  ensure (record.agentId = deriveAgentId prims record.publicKey) .invalidAgentId
  ensure (record.recordType = recordTypeV1) (.invalidRecordType record.recordType)
  ensure (record.keyAlgorithm = keyAlgMlDsa65) (.unsupportedAlgorithm record.keyAlgorithm)
  ensure (prims.isPublicKey record.publicKey) .invalidPublicKey
  ensure (record.signature.length = mlDsa65SignatureLen) .invalidSignatureLength
  ensure (prims.verify record.publicKey record.sigInput record.signature) .signatureVerificationFailed
  ensure (now < record.expiresAt) (.expired record.expiresAt now)

end AgentRecord

end Aafp.Identity
