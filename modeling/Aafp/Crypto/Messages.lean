import Aafp.Cbor.Decode

/-! The three handshake messages and their CBOR codecs. -/
namespace Aafp.Crypto

open Foundation Cbor

/-- `[u8; 32]`: nonces, session ids, agent ids and hashes. -/
abbrev Bytes32 := { bytes : List UInt8 // bytes.length = 32 }

/-- The array `[byte; 32]`. -/
def Bytes32.filled (byte : UInt8) : Bytes32 := ⟨List.replicate 32 byte, List.length_replicate⟩

structure ClientHello where
  protocolVersion : UInt64
  agentId : List UInt8
  publicKey : List UInt8
  nonce : Bytes32
  capabilities : List Value
  extensions : List Value
  signature : List UInt8
  expiresAt : UInt64
  receiverMac : Option (List UInt8)
  keyAlgorithm : UInt64

structure ServerHello where
  protocolVersion : UInt64
  agentId : List UInt8
  publicKey : List UInt8
  nonce : Bytes32
  capabilities : List Value
  extensions : List Value
  sessionId : Bytes32
  signature : List UInt8
  expiresAt : UInt64
  keyAlgorithm : UInt64

structure ClientFinished where
  sessionId : Bytes32
  signature : List UInt8

/-- Why a field was rejected. A value of the wrong type is shown with `{:?}` in
the source's message and kept here as it is. -/
inductive FieldProblem where
  | expectedGot (kind : String) (value : Value)
  | text (message : String)
deriving DecidableEq

inductive HandshakeError where
  | invalidField (field : String) (problem : FieldProblem)
  | missingField (field : String)
  | cbor (error : CborError)
  | signatureVerificationFailed
  | sessionIdMismatch
  | versionMismatch (expected got : UInt64)
  | invalidAgentId
  | identityExpired (expiresAt now : UInt64)
  | unsupportedAlgorithm (algorithm : UInt64)
deriving DecidableEq

def expectU64 (val : Option Value) (field : String) : Except HandshakeError UInt64 :=
  expectField Value.uint? (.missingField field) (fun other => .invalidField field (.expectedGot "uint" other)) val

def expectBstr (val : Option Value) (field : String) : Except HandshakeError (List UInt8) :=
  expectField Value.bstr? (.missingField field) (fun other => .invalidField field (.expectedGot "bstr" other)) val

def expectBstr32 (val : Option Value) (field : String) : Except HandshakeError Bytes32 := do
  let bytes ← expectBstr val field
  let len := bytes.length
  if whole : bytes.length = 32 then .ok ⟨bytes, whole⟩
  else .error (.invalidField field (.text s!"expected 32 bytes, got {len}"))

def expectArray (val : Option Value) (field : String) : Except HandshakeError (List Value) :=
  expectField Value.array? (.missingField field) (fun other => .invalidField field (.expectedGot "array" other)) val

namespace ClientHello

/-- The signed part: without the signature (key 7) and the receiver MAC (key 9). -/
def toCborWithoutSigAndMac (ch : ClientHello) : Value :=
  .intMap [ (1, .unsigned ch.protocolVersion), (2, .byteString ch.agentId), (3, .byteString ch.publicKey),
    (4, .byteString ch.nonce.1), (5, .array ch.capabilities), (6, .array ch.extensions),
    (8, .unsigned ch.expiresAt), (10, .unsigned ch.keyAlgorithm)]

def toCbor (ch : ClientHello) : Value :=
  .intMap ([ (1, .unsigned ch.protocolVersion), (2, .byteString ch.agentId), (3, .byteString ch.publicKey),
    (4, .byteString ch.nonce.1), (5, .array ch.capabilities), (6, .array ch.extensions),
    (7, .byteString ch.signature), (8, .unsigned ch.expiresAt), (10, .unsigned ch.keyAlgorithm)] ++
    match ch.receiverMac with
    | some mac => [(9, .byteString mac)]
    | none => [])

def fromCbor (val : Value) : Except HandshakeError ClientHello := do
  let get := intMapGet val
  let protocolVersion ← expectU64 (get 1) "protocol_version"
  let agentId ← expectBstr (get 2) "agent_id"
  let publicKey ← expectBstr (get 3) "public_key"
  let nonce ← expectBstr32 (get 4) "nonce"
  let capabilities ← expectArray (get 5) "capabilities"
  let extensions ← expectArray (get 6) "extensions"
  let signature ← expectBstr (get 7) "signature"
  let expiresAt ← expectU64 (get 8) "expires_at"
  let receiverMac ← match get 9 with
    | none => .ok none
    | some (.byteString bytes) => .ok (some bytes)
    | some .null => .error (.invalidField "receiver_mac" (.text
        "null encoding is not valid; field must be omitted when absent (A-2)"))
    | some other => .error (.invalidField "receiver_mac" (.expectedGot "bstr" other))
  let keyAlgorithm ← expectU64 (get 10) "key_algorithm"
  .ok { protocolVersion, agentId, publicKey, nonce, capabilities, extensions, signature
        expiresAt, receiverMac, keyAlgorithm }

end ClientHello

namespace ServerHello

def toCborWithoutSig (sh : ServerHello) : Value :=
  .intMap [ (1, .unsigned sh.protocolVersion), (2, .byteString sh.agentId), (3, .byteString sh.publicKey),
    (4, .byteString sh.nonce.1), (5, .array sh.capabilities), (6, .array sh.extensions),
    (7, .byteString sh.sessionId.1), (9, .unsigned sh.expiresAt), (10, .unsigned sh.keyAlgorithm)]

def toCbor (sh : ServerHello) : Value :=
  .intMap [ (1, .unsigned sh.protocolVersion), (2, .byteString sh.agentId), (3, .byteString sh.publicKey),
    (4, .byteString sh.nonce.1), (5, .array sh.capabilities), (6, .array sh.extensions),
    (7, .byteString sh.sessionId.1), (8, .byteString sh.signature), (9, .unsigned sh.expiresAt),
    (10, .unsigned sh.keyAlgorithm)]

def fromCbor (val : Value) : Except HandshakeError ServerHello := do
  let get := intMapGet val
  let protocolVersion ← expectU64 (get 1) "protocol_version"
  let agentId ← expectBstr (get 2) "agent_id"
  let publicKey ← expectBstr (get 3) "public_key"
  let nonce ← expectBstr32 (get 4) "nonce"
  let capabilities ← expectArray (get 5) "capabilities"
  let extensions ← expectArray (get 6) "extensions"
  let sessionId ← expectBstr32 (get 7) "session_id"
  let signature ← expectBstr (get 8) "signature"
  let expiresAt ← expectU64 (get 9) "expires_at"
  let keyAlgorithm ← expectU64 (get 10) "key_algorithm"
  .ok { protocolVersion, agentId, publicKey, nonce, capabilities, extensions, sessionId
        signature, expiresAt, keyAlgorithm }

end ServerHello

namespace ClientFinished

def toCborWithoutSig (cf : ClientFinished) : Value := .intMap [(1, .byteString cf.sessionId.1)]

def toCbor (cf : ClientFinished) : Value :=
  .intMap [(1, .byteString cf.sessionId.1), (2, .byteString cf.signature)]

def fromCbor (val : Value) : Except HandshakeError ClientFinished := do
  let get := intMapGet val
  let sessionId ← expectBstr32 (get 1) "session_id"
  let signature ← expectBstr (get 2) "signature"
  .ok { sessionId, signature }

end ClientFinished

end Aafp.Crypto
