import Aafp.Sdk.Exchange

/-! Handshakes that complete. -/
namespace Aafp.Sdk

open Foundation Cbor Crypto Aafp.Core Messaging List

def GenuineEvent (prims : Primitives) : Event Handshaking → Prop
  | ⟨.sign secretKey message, signature⟩ => ∃ coins, signature.1 = prims.signWith secretKey message coins
  | ⟨.verify publicKey message signature, accepted⟩ => accepted = prims.verify publicKey message signature
  | _ => True

def Genuine (prims : Primitives) (events : List (Event Handshaking)) : Prop :=
  ∀ event ∈ events, GenuineEvent prims event

theorem genuine_append : Genuine prims (events ++ others) ↔ Genuine prims events ∧ Genuine prims others :=
  forall_mem_append

theorem genuine_freshLookup : Genuine prims (freshLookup replayCache agentId nonce) := by
  cases replayCache <;> simp [Genuine, freshLookup, GenuineEvent]

theorem genuine_insertion : Genuine prims (insertion replayCache agentId nonce) := by
  cases replayCache <;> simp [Genuine, insertion, GenuineEvent]

theorem genuine_handshakeFrame : Genuine prims (handshakeFrame payload) := by
  simp [Genuine, handshakeFrame, GenuineEvent, writeEvent]

theorem slices_append : Slices (events ++ others) ↔ Slices events ∧ Slices others :=
  forall_mem_append

theorem slices_freshLookup : Slices (freshLookup replayCache agentId nonce) := by
  cases replayCache <;> simp [Slices, freshLookup, sentBy]

theorem slices_insertion : Slices (insertion replayCache agentId nonce) := by
  cases replayCache <;> simp [Slices, insertion, sentBy]

theorem slices_handshakeFrame (small : payload.length ≤ 1024 * 1024) : Slices (handshakeFrame payload) := by
  have header := length_handshakeHeader payload
  simp only [Slices, handshakeFrame, writeEvent, forall_mem_cons, sentBy, header,
    not_mem_nil, false_implies, implies_true, and_true]
  exact ⟨by decide, small.trans (by decide)⟩

def signature (prims : Primitives) (keypair : AgentKeypair) (hash : Bytes32) (coins : List UInt8) : Signature :=
  ⟨prims.signWith keypair.secretKey (signatureInput hash) coins, prims.signWith_length _ _ _⟩

theorem length_clientHello_le (capabilities : ch.capabilities = [])
    (extensions : ch.extensions = []) (mac : ch.receiverMac = none) : (clientHelloCodec.encodeMessage ch).length ≤
      300 + ch.agentId.length + ch.publicKey.length + ch.signature.length := by
  refine (length_encodeValue_intMap_le _).trans ?_
  simp only [capabilities, extensions, mac, append_nil, map_cons, map_nil, sum_cons, sum_nil, Value.room_unsigned,
    Value.room_nil, Value.room_byteString, ch.nonce.2]
  omega

theorem length_serverHello_le (capabilities : sh.capabilities = []) (extensions : sh.extensions = []) :
    (serverHelloCodec.encodeMessage sh).length ≤
      300 + sh.agentId.length + sh.publicKey.length + sh.signature.length := by
  refine (length_encodeValue_intMap_le _).trans ?_
  simp only [capabilities, extensions, map_cons, map_nil, sum_cons, sum_nil, Value.room_unsigned, Value.room_nil,
    Value.room_byteString, sh.nonce.2, sh.sessionId.2]
  omega

theorem length_clientFinished_le (cf : ClientFinished) :
    (clientFinishedCodec.encodeMessage cf).length ≤ 100 + cf.signature.length := by
  refine (length_encodeValue_intMap_le _).trans ?_
  simp only [map_cons, map_nil, sum_cons, sum_nil, Value.room_byteString, cf.sessionId.2]
  omega

/-- What an endpoint reads from its clock, each time it looks. -/
structure ClockReadings where
  created : SystemTime
  established : SystemTime
  hello : SystemTime
  verification : SystemTime
  identified : SystemTime

/-- Two endpoints, and all that a handshake of theirs draws: nonces, clock readings and the coins of
each signature. -/
structure Situation where
  client : AgentKeypair
  server : AgentKeypair
  tlsBinding : Bytes32
  clientTimes : ClockReadings
  serverTimes : ClockReadings
  clientNonce : Bytes32
  serverNonce : Bytes32
  helloCoins : List UInt8
  serverCoins : List UInt8
  finishedCoins : List UInt8

namespace Situation

variable (prims : Primitives) (situation : Situation)

/-- The key pairs work, and each endpoint verifies the other's hello before it expires. -/
structure Sound : Prop where
  client : Works prims situation.client
  server : Works prims situation.server
  clientLive : unixSeconds situation.serverTimes.verification < unixSeconds situation.clientTimes.hello + 3600
  serverLive : unixSeconds situation.clientTimes.verification < unixSeconds situation.serverTimes.hello + 3600

def newHello : ClientHello :=
  newClientHello prims situation.client situation.clientNonce (unixSeconds situation.clientTimes.hello + 3600)

def thCh : TranscriptHash := afterClientHello prims situation.tlsBinding (situation.newHello prims)

def helloSignature : Signature :=
  signature prims situation.client (situation.thCh prims).current situation.helloCoins

def derivedId : Bytes32 :=
  serverSessionId prims situation.server (situation.thCh prims) (situation.newHello prims)
    situation.serverNonce

section Chosen

-- a server may sign a hello with any session id
variable (sessionId : Bytes32)

def newServerHello : ServerHello :=
  Sdk.newServerHello prims situation.server situation.serverNonce sessionId
    (unixSeconds situation.serverTimes.hello + 3600)

def thSh : TranscriptHash :=
  afterServerHello prims (situation.thCh prims) (situation.newServerHello prims sessionId)

def serverSignature : Signature :=
  signature prims situation.server (situation.thSh prims sessionId).current situation.serverCoins

def serverHello : ServerHello :=
  { situation.newServerHello prims sessionId with
    signature := (situation.serverSignature prims sessionId).1 }

def clientRun : ClientRun :=
  let payload := serverHelloCodec.encodeMessage (situation.serverHello prims sessionId)
  let times := situation.clientTimes
  { created := times.created, established := times.established
    nonce := situation.clientNonce, helloTime := times.hello
    helloSignature := situation.helloSignature prims
    header := handshakeHeader payload, payload, sh := situation.serverHello prims sessionId
    verifyTime := times.verification
    finishedSignature :=
      signature prims situation.client (situation.thSh prims sessionId).current situation.finishedCoins
    identified := times.identified }

end Chosen

def serverRun : ServerRun :=
  let run := situation.clientRun prims (situation.derivedId prims)
  let ch := run.ch prims situation.client
  let helloPayload := clientHelloCodec.encodeMessage ch
  let finishedPayload := clientFinishedCodec.encodeMessage run.cf
  let times := situation.serverTimes
  { created := times.created, established := times.established
    helloHeader := handshakeHeader helloPayload, helloPayload, ch, verifyTime := times.verification
    nonce := situation.serverNonce, helloTime := times.hello
    helloSignature := situation.serverSignature prims (situation.derivedId prims)
    finishedHeader := handshakeHeader finishedPayload, finishedPayload, cf := run.cf
    identified := times.identified }

variable {prims situation}

private theorem publicKey_length (works : Works prims keypair) : keypair.publicKey.length = 1952 := by
  have key := works.publicKey
  simp only [Primitives.isPublicKey, Bool.and_eq_true, beq_iff_eq] at key
  exact key.1

theorem length_serverHello (sound : situation.Sound prims) (sessionId : Bytes32) :
    (serverHelloCodec.encodeMessage (situation.serverHello prims sessionId)).length ≤ 1024 * 1024 := by
  refine (length_serverHello_le rfl rfl).trans ?_
  generalize same : situation.serverHello prims sessionId = sh
  have agentId : sh.agentId.length = 32 := by
    subst same
    exact (prims.sha256 situation.server.publicKey).2
  have publicKey : sh.publicKey.length = 1952 := by
    subst same
    exact publicKey_length sound.server
  have signature : sh.signature.length = 3309 := by
    subst same
    exact (situation.serverSignature prims sessionId).2
  omega

theorem length_clientHello (sound : situation.Sound prims) (sessionId : Bytes32) :
    (clientHelloCodec.encodeMessage ((situation.clientRun prims sessionId).ch prims
      situation.client)).length ≤ 1024 * 1024 := by
  refine (length_clientHello_le rfl rfl rfl).trans ?_
  generalize same : (situation.clientRun prims sessionId).ch prims situation.client = ch
  have agentId : ch.agentId.length = 32 := by
    subst same
    exact (prims.sha256 situation.client.publicKey).2
  have publicKey : ch.publicKey.length = 1952 := by
    subst same
    exact publicKey_length sound.client
  have signature : ch.signature.length = 3309 := by
    subst same
    exact (situation.helloSignature prims).2
  omega

theorem length_clientFinished (run : ClientRun) :
    (clientFinishedCodec.encodeMessage run.cf).length ≤ 1024 * 1024 := by
  refine (length_clientFinished_le run.cf).trans ?_
  have signature : run.cf.signature.length = 3309 := run.finishedSignature.2
  omega

section

variable (sound : situation.Sound prims)
include sound

theorem clientRun_valid (sessionId : Bytes32) :
    (situation.clientRun prims sessionId).Valid prims situation.client where
  secretKey := sound.client.secretKey
  framed := handshakeHeader_headerOf (length_serverHello sound sessionId)
  decoded := decodeMessage_serverHello rfl rfl
    ((length_serverHello sound sessionId).trans (by decide))
  verified :=
    { version := rfl, keyAlgorithm := rfl, agentId := rfl, publicKey := sound.server.publicKey
      signature := (situation.serverSignature prims sessionId).2, live := sound.serverLive }

theorem serverRun_valid : (situation.serverRun prims).Valid prims situation.server situation.tlsBinding where
  secretKey := sound.server.secretKey
  helloFramed := handshakeHeader_headerOf (length_clientHello sound _)
  helloDecoded := decodeMessage_clientHello rfl rfl ((length_clientHello sound _).trans (by decide))
  helloVerified :=
    { version := rfl, keyAlgorithm := rfl, agentId := rfl, publicKey := sound.client.publicKey
      signature := (situation.helloSignature prims).2, live := sound.clientLive }
  finishedFramed := handshakeHeader_headerOf (length_clientFinished _)
  finishedDecoded := decodeMessage_clientFinished ((length_clientFinished _).trans (by decide))
  finishedVerified :=
    ⟨rfl, sound.client.publicKey, (situation.clientRun prims _).finishedSignature.2⟩

theorem clientRun_genuine (sessionId : Bytes32) (replayCache : Bool) :
    Genuine prims ((situation.clientRun prims sessionId).events prims situation.client
      situation.tlsBinding replayCache) := by
  have verified : prims.verify situation.server.publicKey
      (signatureInput (situation.thSh prims sessionId).current)
      (situation.serverSignature prims sessionId).1 = true := sound.server.verifies _ _
  simp only [ClientRun.events, genuine_append, genuine_freshLookup, genuine_insertion,
    genuine_handshakeFrame, and_true]
  simp only [Genuine, forall_mem_cons, GenuineEvent, readEvent, verifyEvent, not_mem_nil,
    false_implies, implies_true, true_and, and_true]
  exact ⟨⟨⟨situation.helloCoins, rfl⟩, verified.symm⟩, situation.finishedCoins, rfl⟩

theorem serverRun_genuine (replayCache : Bool) :
    Genuine prims ((situation.serverRun prims).events prims situation.server situation.tlsBinding replayCache) := by
  have helloVerified : prims.verify situation.client.publicKey
      (signatureInput (situation.thCh prims).current) (situation.helloSignature prims).1 = true :=
    sound.client.verifies _ _
  have finishedVerified : prims.verify situation.client.publicKey
      (signatureInput (situation.thSh prims (situation.derivedId prims)).current)
      (situation.clientRun prims (situation.derivedId prims)).finishedSignature.1 = true :=
    sound.client.verifies _ _
  simp only [ServerRun.events, genuine_append, genuine_freshLookup, genuine_insertion,
    genuine_handshakeFrame, and_true]
  simp only [Genuine, forall_mem_cons, GenuineEvent, readEvent, verifyEvent, not_mem_nil,
    false_implies, implies_true, true_and, and_true]
  exact ⟨⟨helloVerified.symm, situation.serverCoins, rfl⟩, finishedVerified.symm⟩

/-- Honest endpoints whose hellos are verified in time complete the handshake, for every choice of
nonces, coins and clock readings. -/
theorem completes (clientAddr serverAddr : String) (clientCache serverCache : Bool) :
    CompletedHandshake prims situation.tlsBinding ⟨clientAddr, situation.client, clientCache⟩
      ⟨serverAddr, situation.server, serverCache⟩
      ((situation.clientRun prims (situation.derivedId prims)).events prims situation.client
        situation.tlsBinding clientCache)
      ((situation.serverRun prims).events prims situation.server situation.tlsBinding serverCache)
      ((situation.clientRun prims (situation.derivedId prims)).session prims clientAddr,
        (situation.clientRun prims (situation.derivedId prims)).peer prims)
      ((situation.serverRun prims).session prims serverAddr situation.server situation.tlsBinding,
        (situation.serverRun prims).peer prims situation.server situation.tlsBinding) where
  client := driveClientHandshake_yields.mpr ⟨_, clientRun_valid sound _, rfl, rfl⟩
  server := driveServerHandshake_yields.mpr ⟨_, serverRun_valid sound, rfl, rfl⟩
  toServer := by
    rw [ServerRun.received_events, ClientRun.sent_events]
    refine ⟨[], ?_⟩
    simp only [wire, append_assoc, append_nil]
    rfl
  toClient := by
    rw [ClientRun.received_events, ServerRun.sent_events]
    exact ⟨[], append_nil _⟩
  slices := by
    have ch := slices_handshakeFrame (length_clientHello sound (situation.derivedId prims))
    have sh : Slices (handshakeFrame (serverHelloCodec.encodeMessage
        ((situation.serverRun prims).sh prims situation.server situation.tlsBinding))) :=
      slices_handshakeFrame (length_serverHello sound (situation.derivedId prims))
    have cf := slices_handshakeFrame (length_clientFinished (situation.clientRun prims (situation.derivedId prims)))
    simp only [ClientRun.events, ServerRun.events, slices_append, slices_freshLookup, slices_insertion,
      ch, sh, cf, and_true]
    simp [Slices, sentBy, readEvent, verifyEvent]

end

/-- A handshake of two stand-in key pairs at the epoch. -/
def sample : Situation :=
  { client := standInKeys 7, server := standInKeys 8, tlsBinding := .filled 0
    clientTimes := ⟨0, 0, 0, 0, 0⟩, serverTimes := ⟨0, 0, 0, 0, 0⟩, clientNonce := .filled 2
    serverNonce := .filled 3, helloCoins := [], serverCoins := [], finishedCoins := [] }

theorem sample_sound : sample.Sound .standIn where
  client := standInKeys_work 7
  server := standInKeys_work 8
  clientLive := by decide
  serverLive := by decide

/-- Both endpoints complete the handshake with the nonces and coins they drew. Each knows the other
by its key, and both have the same session. -/
def Agrees (situation : Situation) (prims : Primitives) (clientAddr serverAddr : String)
    (clientCache serverCache : Bool) : Prop :=
  let clientEvents := (situation.clientRun prims (situation.derivedId prims)).events prims situation.client
    situation.tlsBinding clientCache
  let serverEvents := (situation.serverRun prims).events prims situation.server situation.tlsBinding serverCache
  let clientId := prims.sha256 situation.client.publicKey
  let serverId := prims.sha256 situation.server.publicKey
  Genuine prims clientEvents ∧ Genuine prims serverEvents ∧ ∃ clientSession serverSession sessionId,
    CompletedHandshake prims situation.tlsBinding ⟨clientAddr, situation.client, clientCache⟩
      ⟨serverAddr, situation.server, serverCache⟩ clientEvents serverEvents
      (clientSession, ⟨serverId, situation.server.publicKey, sessionId⟩)
      (serverSession, ⟨clientId, situation.client.publicKey, sessionId⟩) ∧
    clientSession.sessionId = some sessionId ∧ serverSession.sessionId = some sessionId ∧
    clientSession.peerAgentId = some serverId ∧ serverSession.peerAgentId = some clientId ∧
    clientSession.state = .identityVerified ∧ serverSession.state = .identityVerified

/-- Over a transport that delivers what is sent, honest endpoints agree. -/
theorem honest_endpoints_agree {prims : Primitives} {situation : Situation} (sound : situation.Sound prims)
    (clientAddr serverAddr : String) (clientCache serverCache : Bool) :
    situation.Agrees prims clientAddr serverAddr clientCache serverCache :=
  ⟨clientRun_genuine sound _ clientCache, serverRun_genuine sound serverCache, _, _, _,
    completes sound clientAddr serverAddr clientCache serverCache, rfl, rfl, rfl, rfl, rfl, rfl⟩

theorem sample_agrees : sample.Agrees .standIn "quic://198.51.100.1:4433" "quic://198.51.100.2:4433" true true :=
  honest_endpoints_agree sample_sound _ _ true true

end Situation

end Aafp.Sdk
