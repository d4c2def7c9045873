import Aafp.Core.Session
import Aafp.Crypto.Handshake
import Aafp.Crypto.MessageCodec
import Aafp.Messaging.Framing

/-! The handshake over one QUIC stream, as the client and as the server drive it. -/
namespace Aafp.Sdk

open Foundation Cbor Crypto Aafp.Core Messaging

structure PeerInfo where
  agentId : Bytes32
  publicKey : List UInt8
  sessionId : Bytes32

/-- The text of `SdkError::Handshake`; an inner error that the source prints
into the text is kept as it is. -/
inductive HandshakeText where
  | text (message : String)
  | message (stage : String) (error : HandshakeError)
  | cborEncoding (error : CborError)
  | sessionState (error : SessionStateError)
deriving DecidableEq

inductive SdkError where
  | handshake (text : HandshakeText)
  | core (stream : String)
deriving DecidableEq

/-- How a driver ends without a session: with an error, or by `expect`. -/
inductive Failure where
  | returned (error : SdkError)
  | panicked (message : String)

abbrev Driver := Program Handshaking Failure

def Failure.handshake (message : String) : Failure := .returned (.handshake (.text message))

def Failure.ofMessage (stage : String) (error : HandshakeError) : Failure :=
  .returned (.handshake (.message stage error))

/-- Transport errors reach the caller through `SdkError::Core`. -/
def transported (outcome : Except String α) : Except Failure α :=
  outcome.mapError fun message => .returned (.core message)

def openBi : Driver Unit := .query (I := Handshaking) .openBi transported

def acceptBi : Driver Unit := .query (I := Handshaking) .acceptBi transported

def readExact (len : Nat) : Driver (List UInt8) :=
  .query (I := Handshaking) (.readExact len) fun outcome => transported (outcome.map Subtype.val)

def writeAll (data : List UInt8) : Driver Unit :=
  .query (I := Handshaking) (.writeAll data) transported

def generateNonce : Driver Bytes32 := .query (I := Handshaking) .generateNonce .ok

def systemTime : Driver SystemTime := .query (I := Handshaking) .systemTime .ok

def nowUnix : Driver UInt64 := do
  let time ← systemTime
  return unixSeconds time

def handshakeHeader (cborPayload : List UInt8) : List UInt8 :=
  [protocolVersion.toUInt8, 0x02, 0x00, 0x00] ++ bigEndian 8 0 ++ bigEndian 8 cborPayload.length ++
    bigEndian 8 0

def readHandshakeFrame : Driver (List UInt8) := do
  let header ← readExact frameHeaderSize
  let version := byteAt header 0
  let frameType := byteAt header 1
  let payloadLen := (readU64 header 12).toNat
  let extLen := (readU64 header 20).toNat
  let shown := hexLower 2 frameType.toNat
  .require (version = protocolVersion.toUInt8)
    (.handshake s!"frame version mismatch: expected {protocolVersion}, got {version}")
  .require (frameType = 0x02) (.handshake s!"expected HANDSHAKE frame (0x02), got 0x{shown}")
  -- the source reads the extensions next, which are empty here
  .require (extLen = 0) (.handshake "handshake frames MUST NOT carry extensions")
  .require (payloadLen ≤ 1024 * 1024)
    (.handshake s!"handshake payload too large: {payloadLen} bytes")
  readExact payloadLen

def writeHandshakeFrame (cborPayload : List UInt8) : Driver Unit := do
  writeAll (handshakeHeader cborPayload)
  writeAll cborPayload

def encodeCbor (value : Value) : Driver (List UInt8) :=
  .done ((encode value).mapError fun error => .returned (.handshake (.cborEncoding error)))

def decodeWith (codec : MessageCodec M) (stage : String) (data : List UInt8) : Driver M :=
  .done ((codec.decodeMessage data).mapError (.ofMessage stage))

variable (prims : Primitives) (keypair : AgentKeypair)

def signWithKeypair (msg : List UInt8) : Driver (List UInt8) := do
  .require (prims.isSecretKey keypair.secretKey)
    (.panicked "agent secret key must be valid ML-DSA-65")
  .query (I := Handshaking) (.sign keypair.secretKey msg) fun signature => .ok signature.1

/-- Refuse a nonce that the replay cache, if there is one, has seen. -/
def checkReplay (replayCache : Bool) (agentId : List UInt8) (nonce : Bytes32) (message : String) : Driver Unit :=
  if replayCache then do
    let replayed : Bool ← .query (I := Handshaking) (.replayCheck agentId nonce) .ok
    .require (replayed = false) (.handshake message)
  else pure ()

def insertNonce (replayCache : Bool) (agentId : List UInt8) (nonce : Bytes32) : Driver Unit :=
  if replayCache then .query (I := Handshaking) (.replayInsert agentId nonce) .ok else pure ()

def advance (session : Session) (method : SystemTime → SessionM Unit) : Driver Session := do
  let now ← systemTime
  match method now session with
  | .ok _ session => pure session
  | .error error _ => .fail (.returned (.handshake (.sessionState error)))

def newSession (remoteAddr : String) : Driver Session := do
  let now ← systemTime
  advance (.new now) (Session.onTransportEstablished ⟨remoteAddr, false⟩ ⟨protocolVersion.toUInt8, []⟩)

def newClientHello (nonce : Bytes32) (expiresAt : UInt64) : ClientHello :=
  { protocolVersion, agentId := (prims.sha256 keypair.publicKey).1, publicKey := keypair.publicKey
    nonce, capabilities := [], extensions := [], signature := [], expiresAt, receiverMac := none
    keyAlgorithm := keyAlgMlDsa65 }

/-- Build and send the ClientHello. The result is the transcript after it. -/
def sendClientHello (tlsBinding : Bytes32) : Driver TranscriptHash := do
  let clientNonce ← generateNonce
  let now ← nowUnix
  let ch := newClientHello prims keypair clientNonce (now + 3600)
  let chCborBytes ← encodeCbor ch.toCborWithoutSigAndMac
  let th := (TranscriptHash.fromTlsBinding prims tlsBinding).fold prims chCborBytes
  let signature ← signWithKeypair prims keypair (signatureInput th.current)
  writeHandshakeFrame (clientHelloCodec.encodeMessage { ch with signature })
  return th

/-- Receive and verify the ServerHello: the message, the transcript after it,
and what the verification returns. -/
def receiveServerHello (replayCache : Bool) (th : TranscriptHash) :
    Driver (ServerHello × TranscriptHash × Bytes32 × Bytes32) := do
  let shBytes ← readHandshakeFrame
  let sh ← decodeWith serverHelloCodec "ServerHello decode error" shBytes
  checkReplay replayCache sh.agentId sh.nonce "ServerHello nonce reuse detected (replay attack)"
  let shCborBytes ← encodeCbor sh.toCborWithoutSig
  let th := th.fold prims shCborBytes
  let now ← nowUnix
  let (serverAgentId, sessionId) ← (verifyServerHello prims sh th.current now).mapError
    (.ofMessage "ServerHello verification failed")
  insertNonce replayCache sh.agentId sh.nonce
  return (sh, th, serverAgentId, sessionId)

def sendClientFinished (th : TranscriptHash) (sessionId : Bytes32) : Driver Unit := do
  let signature ← signWithKeypair prims keypair (signatureInput th.current)
  writeHandshakeFrame (clientFinishedCodec.encodeMessage { sessionId, signature })

def driveClientHandshake (remoteAddr : String) (keypair : AgentKeypair)
    (tlsBinding : Bytes32) (replayCache : Bool) : Driver (Session × PeerInfo) := do
  let session ← newSession remoteAddr
  openBi
  let th ← sendClientHello prims keypair tlsBinding
  let (sh, th, serverAgentId, sessionId) ← receiveServerHello prims replayCache th
  sendClientFinished prims keypair th sessionId
  let session ← advance session (Session.onIdentityVerified serverAgentId sessionId)
  return (session, { agentId := serverAgentId, publicKey := sh.publicKey, sessionId })

/-- Receive and verify the ClientHello: the message, the transcript after it and
the verified agent id. -/
def receiveClientHello (tlsBinding : Bytes32) (replayCache : Bool) :
    Driver (ClientHello × TranscriptHash × Bytes32) := do
  let chBytes ← readHandshakeFrame
  let ch ← decodeWith clientHelloCodec "ClientHello decode error" chBytes
  checkReplay replayCache ch.agentId ch.nonce "ClientHello nonce reuse detected (replay attack)"
  let chCborBytes ← encodeCbor ch.toCborWithoutSigAndMac
  let th := (TranscriptHash.fromTlsBinding prims tlsBinding).fold prims chCborBytes
  let now ← nowUnix
  let clientAgentId ← (verifyClientHello prims ch th.current now).mapError
    (.ofMessage "ClientHello verification failed")
  insertNonce replayCache ch.agentId ch.nonce
  return (ch, th, clientAgentId)

def newServerHello (nonce sessionId : Bytes32) (expiresAt : UInt64) : ServerHello :=
  { protocolVersion, agentId := (prims.sha256 keypair.publicKey).1, publicKey := keypair.publicKey
    nonce, capabilities := [], extensions := [], sessionId, signature := [], expiresAt
    keyAlgorithm := keyAlgMlDsa65 }

/-- Build and send the ServerHello: the transcript after it and the session id. -/
def sendServerHello (th : TranscriptHash) (ch : ClientHello) : Driver (TranscriptHash × Bytes32) := do
  let serverNonce ← generateNonce
  let serverAgentId := (prims.sha256 keypair.publicKey).1
  let sessionId := deriveSessionId prims th.current ch.nonce serverNonce serverAgentId
  let now ← nowUnix
  let sh := newServerHello prims keypair serverNonce sessionId (now + 3600)
  let shCborBytes ← encodeCbor sh.toCborWithoutSig
  let th := th.fold prims shCborBytes
  let signature ← signWithKeypair prims keypair (signatureInput th.current)
  writeHandshakeFrame (serverHelloCodec.encodeMessage { sh with signature })
  return (th, sessionId)

/-- The ClientFinished is verified over the transcript after the ServerHello. -/
def receiveClientFinished (th : TranscriptHash) (clientPublicKey : List UInt8)
    (sessionId : Bytes32) : Driver Unit := do
  let cfBytes ← readHandshakeFrame
  let cf ← decodeWith clientFinishedCodec "ClientFinished decode error" cfBytes
  (verifyClientFinished prims cf th.current clientPublicKey sessionId).mapError
    (.ofMessage "ClientFinished verification failed")

def driveServerHandshake (remoteAddr : String) (keypair : AgentKeypair)
    (tlsBinding : Bytes32) (replayCache : Bool) : Driver (Session × PeerInfo) := do
  let session ← newSession remoteAddr
  acceptBi
  let (ch, th, clientAgentId) ← receiveClientHello prims tlsBinding replayCache
  let (th, sessionId) ← sendServerHello prims keypair th ch
  receiveClientFinished prims th ch.publicKey sessionId
  let session ← advance session (Session.onIdentityVerified clientAgentId sessionId)
  return (session, { agentId := clientAgentId, publicKey := ch.publicKey, sessionId })

end Aafp.Sdk
