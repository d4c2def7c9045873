import Aafp.Foundation.Program
import Aafp.Crypto.Primitives

/-! The v1 handshake without its transport. -/
namespace Aafp.Crypto

open Foundation Cbor

def domainSeparator : List UInt8 := asBytes "aafp-v1-handshake"

def sessionIdInfo : List UInt8 := asBytes "aafp-session-id-v1"

def agentIdSize : Nat := 32

def sessionIdSize : Nat := 32

def keyAlgMlDsa65 : UInt64 := 1

def protocolVersion : UInt64 := 1

/-- What a handshake asks of its surroundings: clock, random numbers, one stream, the replay cache
and ML-DSA-65. -/
inductive HandshakeCall where
  | systemTime
  | generateNonce
  | openBi
  | acceptBi
  | readExact (len : Nat)
  | writeAll (data : List UInt8)
  | replayCheck (agentId : List UInt8) (nonce : Bytes32)
  | replayInsert (agentId : List UInt8) (nonce : Bytes32)
  | sign (secretKey message : List UInt8)
  | verify (publicKey message signature : List UInt8)

/-- Transport calls may fail with a text; the system time is in nanoseconds
since the Unix epoch. -/
abbrev HandshakeCall.Answer : HandshakeCall → Type
  | systemTime => Int
  | generateNonce => Bytes32
  | openBi | acceptBi | writeAll _ => Except String Unit
  | readExact len => Except String { bytes : List UInt8 // bytes.length = len }
  | replayCheck _ _ => Bool
  | replayInsert _ _ => Unit
  | sign _ _ => { signature : List UInt8 // signature.length = mlDsa65SignatureLen }
  | verify _ _ _ => Bool

abbrev Handshaking : Interface := ⟨HandshakeCall, HandshakeCall.Answer⟩

/-- `MlDsa65::verify` on decoded arguments. -/
def mlDsa65Verify (publicKey message signature : List UInt8) : Program Handshaking ε Bool :=
  .query (I := Handshaking) (.verify publicKey message signature) .ok

theorem mlDsa65Verify_bind_yields :
    (mlDsa65Verify publicKey message signature >>= next).Yields events (.ok result) ↔
      ∃ accepted rest, events = ⟨.verify publicKey message signature, accepted⟩ :: rest ∧
        (next accepted).Yields rest (.ok result) := by
  simp [mlDsa65Verify, Program.yields_query_bind]

structure TranscriptHash where
  current : Bytes32

namespace TranscriptHash

def fromTlsBinding (prims : Primitives) (tlsBinding : Bytes32) : TranscriptHash :=
  ⟨prims.sha256 tlsBinding.1⟩

/-- Fold an encoded message; the new `current` is the hash after it. -/
def fold (prims : Primitives) (th : TranscriptHash) (cborBytes : List UInt8) : TranscriptHash :=
  ⟨prims.sha256 (th.current.1 ++ cborBytes)⟩

end TranscriptHash

def signatureInput (hash : Bytes32) : List UInt8 := domainSeparator ++ hash.1

/-- The session id binds both nonces, the transcript after the ClientHello and
the server's identity. -/
def deriveSessionId (prims : Primitives) (hAfterClientHello clientNonce serverNonce : Bytes32)
    (serverAgentId : List UInt8) : Bytes32 :=
  let salt := clientNonce.1 ++ serverNonce.1
  let ikm := hAfterClientHello.1 ++ serverAgentId
  ⟨prims.hkdfSha256 salt ikm sessionIdInfo sessionIdSize,
    prims.hkdfSha256_length salt ikm sessionIdInfo sessionIdSize (by decide)⟩

def verifyAgentIdBinding (prims : Primitives) (agentId publicKey : List UInt8) : Except HandshakeError Bytes32 :=
  let len := agentId.length
  if agentId.length ≠ agentIdSize then
    .error (.invalidField "agent_id" (.text s!"expected {agentIdSize} bytes, got {len}"))
  else if (prims.sha256 publicKey).1 ≠ agentId then .error .invalidAgentId
  else .ok (prims.sha256 publicKey)

/-- The checks that both hellos go through, in the order of the source. -/
def verifyHello (prims : Primitives) (version keyAlgorithm : UInt64)
    (agentId publicKey signature : List UInt8) (expiresAt : UInt64) (transcriptHash : Bytes32)
    (now : UInt64) : Program Handshaking HandshakeError Bytes32 := do
  .require (version = protocolVersion) (.versionMismatch protocolVersion version)
  .require (keyAlgorithm = keyAlgMlDsa65) (.unsupportedAlgorithm keyAlgorithm)
  let verifiedAgentId ← .done (verifyAgentIdBinding prims agentId publicKey)
  .require (prims.isPublicKey publicKey)
    (.invalidField "public_key" (.text "invalid ML-DSA-65 public key"))
  .require (signature.length = mlDsa65SignatureLen)
    (.invalidField "signature" (.text s!"expected {mlDsa65SignatureLen} bytes"))
  let accepted ← mlDsa65Verify publicKey (signatureInput transcriptHash) signature
  .require (accepted = true) .signatureVerificationFailed
  .require (now < expiresAt) (.identityExpired expiresAt now)
  return verifiedAgentId

/-- Verify a ClientHello message (RFC-0002 §5.3). -/
def verifyClientHello (prims : Primitives) (ch : ClientHello) (transcriptHash : Bytes32)
    (now : UInt64) : Program Handshaking HandshakeError Bytes32 :=
  verifyHello prims ch.protocolVersion ch.keyAlgorithm ch.agentId ch.publicKey ch.signature
    ch.expiresAt transcriptHash now

def verifyServerHello (prims : Primitives) (sh : ServerHello) (transcriptHash : Bytes32)
    (now : UInt64) : Program Handshaking HandshakeError (Bytes32 × Bytes32) := do
  let verifiedAgentId ← verifyHello prims sh.protocolVersion sh.keyAlgorithm sh.agentId sh.publicKey
    sh.signature sh.expiresAt transcriptHash now
  return (verifiedAgentId, sh.sessionId)

def verifyClientFinished (prims : Primitives) (cf : ClientFinished) (transcriptHash : Bytes32)
    (clientPublicKey : List UInt8) (expectedSessionId : Bytes32) : Program Handshaking HandshakeError Unit := do
  .require (cf.sessionId = expectedSessionId) .sessionIdMismatch
  .require (prims.isPublicKey clientPublicKey)
    (.invalidField "client_public_key" (.text "invalid ML-DSA-65 public key"))
  .require (cf.signature.length = mlDsa65SignatureLen)
    (.invalidField "signature" (.text s!"expected {mlDsa65SignatureLen} bytes"))
  let accepted ← mlDsa65Verify clientPublicKey (signatureInput transcriptHash) cf.signature
  .require (accepted = true) .signatureVerificationFailed

theorem verifyAgentIdBinding_eq_ok : verifyAgentIdBinding prims agentId publicKey = .ok verified ↔
    agentId = (prims.sha256 publicKey).1 ∧ verified = prims.sha256 publicKey := by
  unfold verifyAgentIdBinding
  have whole := (prims.sha256 publicKey).2
  by_cases same : (prims.sha256 publicKey).1 = agentId
  · subst same
    simp [agentIdSize, whole, eq_comm]
  · simp only [ne_eq, same, not_false_eq_true, ↓reduceIte, Ne.symm same, false_and, iff_false]
    split <;> simp

structure HelloValid (prims : Primitives) (version keyAlgorithm : UInt64)
    (agentId publicKey signature : List UInt8) (expiresAt now : UInt64) : Prop where
  version : version = protocolVersion
  keyAlgorithm : keyAlgorithm = keyAlgMlDsa65
  agentId : agentId = (prims.sha256 publicKey).1
  publicKey : prims.isPublicKey publicKey
  signature : signature.length = mlDsa65SignatureLen
  live : now < expiresAt

def ClientHello.Valid (prims : Primitives) (ch : ClientHello) (now : UInt64) : Prop :=
  HelloValid prims ch.protocolVersion ch.keyAlgorithm ch.agentId ch.publicKey ch.signature ch.expiresAt
    now

def ServerHello.Valid (prims : Primitives) (sh : ServerHello) (now : UInt64) : Prop :=
  HelloValid prims sh.protocolVersion sh.keyAlgorithm sh.agentId sh.publicKey sh.signature sh.expiresAt
    now

def verifyEvent (publicKey : List UInt8) (transcriptHash : Bytes32) (signature : List UInt8) : Event Handshaking :=
  ⟨.verify publicKey (signatureInput transcriptHash) signature, true⟩

theorem verifyHello_yields :
    (verifyHello prims version keyAlgorithm agentId publicKey signature expiresAt transcriptHash
        now).Yields events (.ok verified) ↔
      HelloValid prims version keyAlgorithm agentId publicKey signature expiresAt now ∧
        verified = prims.sha256 publicKey ∧ events = [verifyEvent publicKey transcriptHash signature] := by
  unfold verifyHello
  simp only [Program.yields_require_bind, Program.yields_done_bind, mlDsa65Verify_bind_yields,
    Program.yields_pure, verifyAgentIdBinding_eq_ok]
  constructor
  · rintro ⟨version, algorithm, _, ⟨binding, rfl⟩, key, size, _, _, rfl, rfl, live, rfl, rfl⟩
    exact ⟨⟨version, algorithm, binding, key, size, live⟩, rfl, rfl⟩
  · rintro ⟨⟨version, algorithm, binding, key, size, live⟩, rfl, rfl⟩
    exact ⟨version, algorithm, _, ⟨binding, rfl⟩, key, size, true, [], rfl, rfl, live, rfl, rfl⟩

theorem verifyServerHello_yields : (verifyServerHello prims sh transcriptHash now).Yields events (.ok verified) ↔
      sh.Valid prims now ∧ verified = (prims.sha256 sh.publicKey, sh.sessionId) ∧
        events = [verifyEvent sh.publicKey transcriptHash sh.signature] := by
  unfold verifyServerHello
  simp only [Program.yields_bind, verifyHello_yields, Program.yields_pure]
  constructor
  · rintro ⟨_, _, _, rfl, ⟨valid, rfl, rfl⟩, rfl, rfl⟩
    exact ⟨valid, rfl, rfl⟩
  · rintro ⟨valid, rfl, rfl⟩
    exact ⟨_, _, [], rfl, ⟨valid, rfl, rfl⟩, rfl, rfl⟩

theorem verifyClientFinished_yields :
    (verifyClientFinished prims cf transcriptHash clientPublicKey expectedSessionId).Yields events (.ok result) ↔
      (cf.sessionId = expectedSessionId ∧ prims.isPublicKey clientPublicKey ∧
        cf.signature.length = mlDsa65SignatureLen) ∧
        events = [verifyEvent clientPublicKey transcriptHash cf.signature] := by
  unfold verifyClientFinished
  simp only [Program.yields_require_bind, mlDsa65Verify_bind_yields, Program.yields_require]
  constructor
  · rintro ⟨same, key, size, _, _, rfl, rfl, rfl⟩
    exact ⟨⟨same, key, size⟩, rfl⟩
  · rintro ⟨⟨same, key, size⟩, rfl⟩
    exact ⟨same, key, size, true, [], rfl, rfl, rfl⟩

end Aafp.Crypto
