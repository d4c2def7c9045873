import Aafp.Sdk.HandshakeDriver

/-! What the events of a successful driver run look like, stage by stage. -/
namespace Aafp.Sdk

open Foundation Cbor Crypto Aafp.Core Messaging List Program

def readEvent (bytes : List UInt8) : Event Handshaking := ⟨.readExact bytes.length, .ok ⟨bytes, rfl⟩⟩

def writeEvent (data : List UInt8) : Event Handshaking := ⟨.writeAll data, .ok ()⟩

def receivedBy : Event Handshaking → List UInt8
  | ⟨.readExact _, .ok bytes⟩ => bytes.1
  | _ => []

def sentBy : Event Handshaking → List UInt8
  | ⟨.writeAll data, .ok _⟩ => data
  | _ => []

def verifiedBy : Event Handshaking → List (List UInt8)
  | ⟨.verify _ message _, true⟩ => [message]
  | _ => []

def received (events : List (Event Handshaking)) : List UInt8 := events.flatMap receivedBy

def sent (events : List (Event Handshaking)) : List UInt8 := events.flatMap sentBy

def verifiedInputs (events : List (Event Handshaking)) : List (List UInt8) := events.flatMap verifiedBy

@[simp] theorem received_append : received (events ++ others) = received events ++ received others :=
  flatMap_append

@[simp] theorem sent_append : sent (events ++ others) = sent events ++ sent others :=
  flatMap_append

@[simp] theorem verifiedInputs_append :
    verifiedInputs (events ++ others) = verifiedInputs events ++ verifiedInputs others :=
  flatMap_append

theorem transported_eq_ok : transported outcome = .ok value ↔ outcome = .ok value := mapError_eq_ok

theorem openBi_bind_yields {next : Unit → Driver β} : (openBi >>= next).Yields events (.ok result) ↔
    ∃ rest, events = ⟨.openBi, .ok ()⟩ :: rest ∧ (next ()).Yields rest (.ok result) := by
  simp only [openBi, yields_query_bind, transported_eq_ok]
  exact ⟨by rintro ⟨_, _, rest, rfl, run⟩; exact ⟨rest, run⟩, fun ⟨rest, run⟩ => ⟨_, _, rest, rfl, run⟩⟩

theorem acceptBi_bind_yields {next : Unit → Driver β} : (acceptBi >>= next).Yields events (.ok result) ↔
      ∃ rest, events = ⟨.acceptBi, .ok ()⟩ :: rest ∧ (next ()).Yields rest (.ok result) := by
  simp only [acceptBi, yields_query_bind, transported_eq_ok]
  exact ⟨by rintro ⟨_, _, rest, rfl, run⟩; exact ⟨rest, run⟩, fun ⟨rest, run⟩ => ⟨_, _, rest, rfl, run⟩⟩

theorem generateNonce_bind_yields {next : Bytes32 → Driver β} : (generateNonce >>= next).Yields events (.ok result) ↔
      ∃ nonce rest, events = ⟨.generateNonce, nonce⟩ :: rest ∧ (next nonce).Yields rest (.ok result) := by
  simp [generateNonce, yields_query_bind]

theorem systemTime_bind_yields {next : SystemTime → Driver β} : (systemTime >>= next).Yields events (.ok result) ↔
      ∃ time rest, events = ⟨.systemTime, time⟩ :: rest ∧ (next time).Yields rest (.ok result) := by
  simp [systemTime, yields_query_bind]

theorem nowUnix_bind_yields {next : UInt64 → Driver β} : (nowUnix >>= next).Yields events (.ok result) ↔
      ∃ time rest, events = ⟨.systemTime, time⟩ :: rest ∧ (next (unixSeconds time)).Yields rest (.ok result) :=
  systemTime_bind_yields

theorem writeAll_yields : (writeAll data).Yields events (.ok result) ↔ events = [writeEvent data] := by
  simp [writeAll, yields_query, transported_eq_ok, writeEvent]

theorem readExact_yields : (readExact len).Yields events (.ok bytes) ↔
    bytes.length = len ∧ events = [readEvent bytes] := by
  rw [readExact, yields_query]
  constructor
  · rintro ⟨outcome, read, rfl⟩
    cases outcome with
    | error message => cases read
    | ok whole =>
      obtain ⟨bytes, rfl⟩ := whole
      cases read
      exact ⟨rfl, rfl⟩
  · rintro ⟨rfl, rfl⟩
    exact ⟨.ok ⟨bytes, rfl⟩, rfl, rfl⟩

theorem signWithKeypair_bind_yields {next : List UInt8 → Driver β} :
    (signWithKeypair prims keypair msg >>= next).Yields events (.ok result) ↔
      prims.isSecretKey keypair.secretKey ∧
        ∃ signature rest, events = ⟨.sign keypair.secretKey msg, signature⟩ :: rest ∧
          (next signature.1).Yields rest (.ok result) := by
  have assoc : signWithKeypair prims keypair msg >>= next =
      (.require (prims.isSecretKey keypair.secretKey)
        (.panicked "agent secret key must be valid ML-DSA-65") : Driver Unit) >>= fun _ =>
        .query (I := Handshaking) (.sign keypair.secretKey msg) (fun signature => .ok signature.1) >>=
          next := by
    unfold signWithKeypair Program.require
    split <;> rfl
  rw [assoc, yields_require_bind, yields_query_bind]
  simp

@[simp] theorem encodeCbor_bind (value : Value) (next : List UInt8 → Driver β) :
    encodeCbor value >>= next = next (encodeValue value) := rfl

theorem decodeWith_bind_yields {codec : MessageCodec M} {next : M → Driver β} :
    (decodeWith codec stage data >>= next).Yields events (.ok result) ↔
      ∃ message, codec.decodeMessage data = .ok message ∧ (next message).Yields events (.ok result) := by
  simp [decodeWith, mapError_eq_ok]

structure HeaderOf (header payload : List UInt8) : Prop where
  size : header.length = frameHeaderSize
  version : byteAt header 0 = protocolVersion.toUInt8
  frameType : byteAt header 1 = 0x02
  extLen : (readU64 header 20).toNat = 0
  bounded : (readU64 header 12).toNat ≤ 1024 * 1024
  payloadLen : payload.length = (readU64 header 12).toNat

theorem readHandshakeFrame_yields : readHandshakeFrame.Yields events (.ok payload) ↔
    ∃ header, HeaderOf header payload ∧ events = [readEvent header, readEvent payload] := by
  unfold readHandshakeFrame
  rw [yields_bind]
  simp only [yields_require_bind, readExact_yields]
  constructor
  · rintro ⟨header, _, _, rfl, ⟨size, rfl⟩, version, frameType, extLen, bounded, payloadLen, rfl⟩
    exact ⟨header, ⟨size, version, frameType, extLen, bounded, payloadLen⟩, rfl⟩
  · rintro ⟨header, ⟨size, version, frameType, extLen, bounded, payloadLen⟩, rfl⟩
    exact ⟨header, _, _, rfl, ⟨size, rfl⟩, version, frameType, extLen, bounded, payloadLen, rfl⟩

def handshakeFrame (payload : List UInt8) : List (Event Handshaking) :=
  [writeEvent (handshakeHeader payload), writeEvent payload]

theorem writeHandshakeFrame_yields :
    (writeHandshakeFrame payload).Yields events (.ok result) ↔ events = handshakeFrame payload := by
  unfold writeHandshakeFrame
  simp only [yields_bind, writeAll_yields]
  exact ⟨by rintro ⟨_, _, _, rfl, rfl, rfl⟩; rfl, by rintro rfl; exact ⟨(), _, _, rfl, rfl, rfl⟩⟩

/-- The lookup of a nonce that the cache, if there is one, has not seen. -/
def freshLookup (replayCache : Bool) (agentId : List UInt8) (nonce : Bytes32) : List (Event Handshaking) :=
  if replayCache then [⟨.replayCheck agentId nonce, false⟩] else []

theorem checkReplay_bind_yields {next : Unit → Driver β} :
    (checkReplay replayCache agentId nonce message >>= next).Yields events (.ok result) ↔
      ∃ rest, events = freshLookup replayCache agentId nonce ++ rest ∧ (next ()).Yields rest (.ok result) := by
  rw [yields_bind, Unique.exists_iff]
  cases replayCache with
  | false => simp [checkReplay, freshLookup]
  | true => simp [checkReplay, freshLookup, yields_query_bind]

/-- The insertion of a nonce into the cache, if there is one. -/
def insertion (replayCache : Bool) (agentId : List UInt8) (nonce : Bytes32) : List (Event Handshaking) :=
  if replayCache then [⟨.replayInsert agentId nonce, ()⟩] else []

theorem insertNonce_yields : (insertNonce replayCache agentId nonce).Yields events (.ok result) ↔
    events = insertion replayCache agentId nonce := by
  cases replayCache with
  | false => simp [insertNonce, insertion]
  | true =>
    simp only [insertNonce, insertion, yields_query, ↓reduceIte, true_and]
    exact Unique.exists_iff

theorem advance_yields : (advance session method).Yields events (.ok advanced) ↔
      ∃ time, events = [⟨.systemTime, time⟩] ∧ method time session = .ok () advanced := by
  unfold advance
  simp only [systemTime_bind_yields]
  constructor
  · rintro ⟨time, rest, rfl, run⟩
    split at run
    · obtain ⟨rfl, rfl⟩ := yields_pure.mp run
      exact ⟨time, rfl, ‹_›⟩
    · exact nomatch (yields_done.mp run).2
  · rintro ⟨time, rfl, moved⟩
    exact ⟨time, [], rfl, by simp [moved]⟩

def afterClientHello (prims : Primitives) (tlsBinding : Bytes32) (ch : ClientHello) : TranscriptHash :=
  (TranscriptHash.fromTlsBinding prims tlsBinding).fold prims (encodeValue ch.toCborWithoutSigAndMac)

def afterServerHello (prims : Primitives) (th : TranscriptHash) (sh : ServerHello) : TranscriptHash :=
  th.fold prims (encodeValue sh.toCborWithoutSig)

theorem newSession_yields : (newSession remoteAddr).Yields events (.ok session) ↔
    ∃ created established, events = [⟨.systemTime, created⟩, ⟨.systemTime, established⟩] ∧
      session = { Session.new created with
        state := .transportEstablished, lastActivity := established
        transportHandle := some ⟨remoteAddr, false⟩
        negotiatedFeatures := some ⟨protocolVersion.toUInt8, []⟩ } := by
  unfold newSession
  simp only [systemTime_bind_yields, advance_yields]
  constructor
  · rintro ⟨created, _, rfl, established, rfl, moved⟩
    cases moved
    exact ⟨created, established, rfl, rfl⟩
  · rintro ⟨created, established, rfl, rfl⟩
    exact ⟨created, _, rfl, established, rfl, rfl⟩

theorem sendClientHello_yields : (sendClientHello prims keypair tlsBinding).Yields events (.ok th) ↔
    prims.isSecretKey keypair.secretKey ∧ ∃ nonce time signature,
      let ch := newClientHello prims keypair nonce (unixSeconds time + 3600)
      th = afterClientHello prims tlsBinding ch ∧
        events = [⟨.generateNonce, nonce⟩, ⟨.systemTime, time⟩,
          ⟨.sign keypair.secretKey (signatureInput th.current), signature⟩] ++
            handshakeFrame (clientHelloCodec.encodeMessage { ch with signature := signature.1 }) := by
  unfold sendClientHello
  simp only [generateNonce_bind_yields, nowUnix_bind_yields, encodeCbor_bind, signWithKeypair_bind_yields]
  simp only [yields_bind, writeHandshakeFrame_yields, yields_pure]
  constructor
  · rintro ⟨nonce, _, rfl, time, _, rfl, secret, signature, _, rfl, _, _, _, rfl, rfl, rfl, rfl⟩
    exact ⟨secret, nonce, time, signature, rfl, by simp⟩
  · rintro ⟨secret, nonce, time, signature, rfl, rfl⟩
    exact ⟨nonce, _, rfl, time, _, rfl, secret, signature, _, rfl, (), _, [], by simp, rfl, rfl, rfl⟩

theorem receiveServerHello_yields : (receiveServerHello prims replayCache th).Yields events (.ok outcome) ↔
      ∃ header payload sh time, HeaderOf header payload ∧
        serverHelloCodec.decodeMessage payload = .ok sh ∧ sh.Valid prims (unixSeconds time) ∧
        outcome = (sh, afterServerHello prims th sh, prims.sha256 sh.publicKey, sh.sessionId) ∧
        events = readEvent header :: readEvent payload ::
          (freshLookup replayCache sh.agentId sh.nonce ++ ⟨.systemTime, time⟩ ::
            verifyEvent sh.publicKey (afterServerHello prims th sh).current sh.signature ::
              insertion replayCache sh.agentId sh.nonce) := by
  unfold receiveServerHello
  rw [yields_bind]
  simp only [readHandshakeFrame_yields, decodeWith_bind_yields, checkReplay_bind_yields, encodeCbor_bind,
    nowUnix_bind_yields]
  simp only [yields_bind, yields_mapError, verifyServerHello_yields, insertNonce_yields,
    yields_pure]
  constructor
  · rintro ⟨payload, _, _, rfl, ⟨header, framed, rfl⟩, sh, decoded, _, rfl, time, _, rfl, _, _, _, rfl,
      ⟨valid, rfl, rfl⟩, _, _, _, rfl, rfl, rfl, rfl⟩
    exact ⟨header, payload, sh, time, framed, decoded, valid, rfl, by simp [afterServerHello]⟩
  · rintro ⟨header, payload, sh, time, framed, decoded, valid, rfl, rfl⟩
    exact ⟨payload, [_, _], _, rfl, ⟨header, framed, rfl⟩, sh, decoded, _, rfl, time, _, rfl, _, [_], _, rfl,
      ⟨valid, rfl, rfl⟩, (), _, [], (append_nil _).symm, rfl, rfl, rfl⟩

theorem sendClientFinished_yields : (sendClientFinished prims keypair th sessionId).Yields events (.ok result) ↔
      prims.isSecretKey keypair.secretKey ∧ ∃ signature,
        events = ⟨.sign keypair.secretKey (signatureInput th.current), signature⟩ ::
          handshakeFrame (clientFinishedCodec.encodeMessage ⟨sessionId, signature.1⟩) := by
  unfold sendClientFinished
  simp only [signWithKeypair_bind_yields, writeHandshakeFrame_yields]
  refine and_congr_right fun _ => exists_congr fun signature => ?_
  exact ⟨by rintro ⟨_, rfl, rfl⟩; rfl, by rintro rfl; exact ⟨_, rfl, rfl⟩⟩

def identifiedSession (remoteAddr : String) (peerAgentId sessionId : Bytes32)
    (createdAt lastActivity : SystemTime) : Session :=
  { state := .identityVerified, sessionId := some sessionId, peerAgentId := some peerAgentId
    negotiatedFeatures := some ⟨protocolVersion.toUInt8, []⟩, createdAt, lastActivity
    transportHandle := some ⟨remoteAddr, false⟩, authorizationContext := none }

abbrev Signature := { signature : List UInt8 // signature.length = mlDsa65SignatureLen }

/-- What varies between the successful runs of one client: the answers it was
given, and the ServerHello it decoded from them. -/
structure ClientRun where
  created : SystemTime
  established : SystemTime
  nonce : Bytes32
  helloTime : SystemTime
  helloSignature : Signature
  header : List UInt8
  payload : List UInt8
  sh : ServerHello
  verifyTime : SystemTime
  finishedSignature : Signature
  identified : SystemTime

namespace ClientRun

variable (prims : Primitives) (remoteAddr : String) (keypair : AgentKeypair) (tlsBinding : Bytes32)
  (replayCache : Bool) (run : ClientRun)

def ch : ClientHello :=
  { newClientHello prims keypair run.nonce (unixSeconds run.helloTime + 3600) with
    signature := run.helloSignature.1 }

def cf : ClientFinished := { sessionId := run.sh.sessionId, signature := run.finishedSignature.1 }

def thCh : TranscriptHash := afterClientHello prims tlsBinding (run.ch prims keypair)

def thSh : TranscriptHash := afterServerHello prims (run.thCh prims keypair tlsBinding) run.sh

structure Valid : Prop where
  secretKey : prims.isSecretKey keypair.secretKey
  framed : HeaderOf run.header run.payload
  decoded : serverHelloCodec.decodeMessage run.payload = .ok run.sh
  verified : run.sh.Valid prims (unixSeconds run.verifyTime)

def events : List (Event Handshaking) :=
  [⟨.systemTime, run.created⟩, ⟨.systemTime, run.established⟩, ⟨.openBi, .ok ()⟩,
      ⟨.generateNonce, run.nonce⟩, ⟨.systemTime, run.helloTime⟩,
      ⟨.sign keypair.secretKey (signatureInput (run.thCh prims keypair tlsBinding).current), run.helloSignature⟩] ++
    handshakeFrame (clientHelloCodec.encodeMessage (run.ch prims keypair)) ++
    [readEvent run.header, readEvent run.payload] ++
    freshLookup replayCache run.sh.agentId run.sh.nonce ++
    [⟨.systemTime, run.verifyTime⟩, verifyEvent run.sh.publicKey
      (run.thSh prims keypair tlsBinding).current run.sh.signature] ++
    insertion replayCache run.sh.agentId run.sh.nonce ++
    [⟨.sign keypair.secretKey (signatureInput (run.thSh prims keypair tlsBinding).current),
      run.finishedSignature⟩] ++
    handshakeFrame (clientFinishedCodec.encodeMessage run.cf) ++ [⟨.systemTime, run.identified⟩]

def session : Session :=
  identifiedSession remoteAddr (prims.sha256 run.sh.publicKey) run.sh.sessionId run.created run.identified

def peer : PeerInfo :=
  { agentId := prims.sha256 run.sh.publicKey, publicKey := run.sh.publicKey
    sessionId := run.sh.sessionId }

end ClientRun

theorem driveClientHandshake_yields :
    (driveClientHandshake prims remoteAddr keypair tlsBinding replayCache).Yields events (.ok outcome) ↔
      ∃ run : ClientRun, run.Valid prims keypair ∧ events = run.events prims keypair tlsBinding replayCache ∧
        outcome = (run.session prims remoteAddr, run.peer prims) := by
  unfold driveClientHandshake
  rw [yields_bind]
  simp only [newSession_yields, openBi_bind_yields]
  simp only [yields_bind, sendClientHello_yields, receiveServerHello_yields,
    sendClientFinished_yields, advance_yields, yields_pure]
  constructor
  · rintro ⟨_, _, _, rfl, ⟨created, established, rfl, atStart⟩, _, rfl, opened⟩
    obtain ⟨_, _, _, rfl, ⟨secretKey, nonce, helloTime, helloSignature, rfl, rfl⟩, greeted⟩ := opened
    obtain ⟨_, _, _, rfl, ⟨header, payload, sh, verifyTime, framed, decoded, verified, rfl, rfl⟩,
      answered⟩ := greeted
    obtain ⟨_, _, _, rfl, ⟨_, finishedSignature, rfl⟩, finished⟩ := answered
    obtain ⟨_, _, _, rfl, ⟨identified, rfl, moved⟩, rfl, rfl⟩ := finished
    -- the session is opened up last: its fields would be copied into every later stage
    subst atStart
    cases moved
    refine ⟨⟨created, established, nonce, helloTime, helloSignature, header, payload, sh, verifyTime,
      finishedSignature, identified⟩, ⟨secretKey, framed, decoded, verified⟩, ?_, rfl⟩
    simp only [ClientRun.events, append_assoc, cons_append, nil_append, append_nil]
    rfl
  · rintro ⟨run, ⟨secretKey, framed, decoded, verified⟩, rfl, rfl⟩
    refine ⟨_, [_, _], _, ?_, ⟨run.created, run.established, rfl, rfl⟩, _, rfl, _, _, _, rfl,
      ⟨secretKey, run.nonce, run.helloTime, run.helloSignature, rfl, rfl⟩, _, _, _, rfl,
      ⟨run.header, run.payload, run.sh, run.verifyTime, framed, decoded, verified, rfl, rfl⟩, (), _, _, rfl,
      ⟨secretKey, run.finishedSignature, rfl⟩, _, _, [], rfl, ⟨run.identified, rfl, rfl⟩, rfl, rfl⟩
    simp only [ClientRun.events, append_assoc, cons_append, nil_append, append_nil]
    rfl

theorem receiveClientHello_yields : (receiveClientHello prims tlsBinding replayCache).Yields events (.ok outcome) ↔
      ∃ header payload ch time, HeaderOf header payload ∧
        clientHelloCodec.decodeMessage payload = .ok ch ∧ ch.Valid prims (unixSeconds time) ∧
        outcome = (ch, afterClientHello prims tlsBinding ch, prims.sha256 ch.publicKey) ∧
        events = readEvent header :: readEvent payload ::
          (freshLookup replayCache ch.agentId ch.nonce ++ ⟨.systemTime, time⟩ ::
            verifyEvent ch.publicKey (afterClientHello prims tlsBinding ch).current ch.signature ::
              insertion replayCache ch.agentId ch.nonce) := by
  unfold receiveClientHello
  rw [yields_bind]
  simp only [readHandshakeFrame_yields, decodeWith_bind_yields, checkReplay_bind_yields, encodeCbor_bind,
    nowUnix_bind_yields]
  simp only [yields_bind, yields_mapError, verifyClientHello, verifyHello_yields, insertNonce_yields,
    yields_pure]
  constructor
  · rintro ⟨payload, _, _, rfl, ⟨header, framed, rfl⟩, ch, decoded, _, rfl, time, _, rfl, _, _, _, rfl,
      ⟨valid, rfl, rfl⟩, _, _, _, rfl, rfl, rfl, rfl⟩
    exact ⟨header, payload, ch, time, framed, decoded, valid, rfl, by simp [afterClientHello]⟩
  · rintro ⟨header, payload, ch, time, framed, decoded, valid, rfl, rfl⟩
    exact ⟨payload, [_, _], _, rfl, ⟨header, framed, rfl⟩, ch, decoded, _, rfl, time, _, rfl, _, [_], _, rfl,
      ⟨valid, rfl, rfl⟩, (), _, [], (append_nil _).symm, rfl, rfl, rfl⟩

def serverSessionId (prims : Primitives) (keypair : AgentKeypair) (th : TranscriptHash)
    (ch : ClientHello) (nonce : Bytes32) : Bytes32 :=
  deriveSessionId prims th.current ch.nonce nonce (prims.sha256 keypair.publicKey).1

theorem sendServerHello_yields : (sendServerHello prims keypair th ch).Yields events (.ok outcome) ↔
    prims.isSecretKey keypair.secretKey ∧ ∃ nonce time signature,
      let sh := newServerHello prims keypair nonce (serverSessionId prims keypair th ch nonce)
        (unixSeconds time + 3600)
      outcome = (afterServerHello prims th sh, serverSessionId prims keypair th ch nonce) ∧
        events = [⟨.generateNonce, nonce⟩, ⟨.systemTime, time⟩,
          ⟨.sign keypair.secretKey (signatureInput (afterServerHello prims th sh).current), signature⟩] ++
            handshakeFrame (serverHelloCodec.encodeMessage { sh with signature := signature.1 }) := by
  unfold sendServerHello
  simp only [generateNonce_bind_yields, nowUnix_bind_yields, encodeCbor_bind, signWithKeypair_bind_yields]
  simp only [yields_bind, writeHandshakeFrame_yields, yields_pure]
  constructor
  · rintro ⟨nonce, _, rfl, time, _, rfl, secret, signature, _, rfl, _, _, _, rfl, rfl, rfl, rfl⟩
    exact ⟨secret, nonce, time, signature, rfl, by simp [afterServerHello, serverSessionId]⟩
  · rintro ⟨secret, nonce, time, signature, rfl, rfl⟩
    exact ⟨nonce, _, rfl, time, _, rfl, secret, signature, _, rfl, (), _, [], (append_nil _).symm, rfl,
      rfl, rfl⟩

theorem receiveClientFinished_yields :
    (receiveClientFinished prims th clientPublicKey sessionId).Yields events (.ok result) ↔
      ∃ header payload cf, HeaderOf header payload ∧ clientFinishedCodec.decodeMessage payload = .ok cf ∧
        (cf.sessionId = sessionId ∧ prims.isPublicKey clientPublicKey ∧ cf.signature.length = mlDsa65SignatureLen) ∧
        events = [readEvent header, readEvent payload, verifyEvent clientPublicKey th.current cf.signature] := by
  unfold receiveClientFinished
  rw [yields_bind]
  simp only [readHandshakeFrame_yields, decodeWith_bind_yields, yields_mapError,
    verifyClientFinished_yields]
  constructor
  · rintro ⟨payload, _, _, rfl, ⟨header, framed, rfl⟩, cf, decoded, valid, rfl⟩
    exact ⟨header, payload, cf, framed, decoded, valid, rfl⟩
  · rintro ⟨header, payload, cf, framed, decoded, valid, rfl⟩
    exact ⟨payload, [_, _], _, rfl, ⟨header, framed, rfl⟩, cf, decoded, valid, rfl⟩

structure ServerRun where
  created : SystemTime
  established : SystemTime
  helloHeader : List UInt8
  helloPayload : List UInt8
  ch : ClientHello
  verifyTime : SystemTime
  nonce : Bytes32
  helloTime : SystemTime
  helloSignature : Signature
  finishedHeader : List UInt8
  finishedPayload : List UInt8
  cf : ClientFinished
  identified : SystemTime

namespace ServerRun

variable (prims : Primitives) (remoteAddr : String) (keypair : AgentKeypair) (tlsBinding : Bytes32)
  (replayCache : Bool) (run : ServerRun)

def thCh : TranscriptHash := afterClientHello prims tlsBinding run.ch

def sessionId : Bytes32 :=
  serverSessionId prims keypair (run.thCh prims tlsBinding) run.ch run.nonce

def sh : ServerHello :=
  { newServerHello prims keypair run.nonce (run.sessionId prims keypair tlsBinding)
      (unixSeconds run.helloTime + 3600) with signature := run.helloSignature.1 }

def thSh : TranscriptHash :=
  afterServerHello prims (run.thCh prims tlsBinding) (run.sh prims keypair tlsBinding)

structure Valid : Prop where
  secretKey : prims.isSecretKey keypair.secretKey
  helloFramed : HeaderOf run.helloHeader run.helloPayload
  helloDecoded : clientHelloCodec.decodeMessage run.helloPayload = .ok run.ch
  helloVerified : run.ch.Valid prims (unixSeconds run.verifyTime)
  finishedFramed : HeaderOf run.finishedHeader run.finishedPayload
  finishedDecoded : clientFinishedCodec.decodeMessage run.finishedPayload = .ok run.cf
  finishedVerified : run.cf.sessionId = run.sessionId prims keypair tlsBinding ∧
    prims.isPublicKey run.ch.publicKey ∧ run.cf.signature.length = mlDsa65SignatureLen

def events : List (Event Handshaking) :=
  [⟨.systemTime, run.created⟩, ⟨.systemTime, run.established⟩, ⟨.acceptBi, .ok ()⟩,
      readEvent run.helloHeader, readEvent run.helloPayload] ++
    freshLookup replayCache run.ch.agentId run.ch.nonce ++
    [⟨.systemTime, run.verifyTime⟩, verifyEvent run.ch.publicKey
      (run.thCh prims tlsBinding).current run.ch.signature] ++
    insertion replayCache run.ch.agentId run.ch.nonce ++
    [⟨.generateNonce, run.nonce⟩, ⟨.systemTime, run.helloTime⟩,
      ⟨.sign keypair.secretKey (signatureInput (run.thSh prims keypair tlsBinding).current), run.helloSignature⟩] ++
    handshakeFrame (serverHelloCodec.encodeMessage (run.sh prims keypair tlsBinding)) ++
    [readEvent run.finishedHeader, readEvent run.finishedPayload, verifyEvent run.ch.publicKey
      (run.thSh prims keypair tlsBinding).current run.cf.signature, ⟨.systemTime, run.identified⟩]

def session : Session :=
  identifiedSession remoteAddr (prims.sha256 run.ch.publicKey) (run.sessionId prims keypair tlsBinding)
    run.created run.identified

def peer : PeerInfo :=
  { agentId := prims.sha256 run.ch.publicKey, publicKey := run.ch.publicKey
    sessionId := run.sessionId prims keypair tlsBinding }

end ServerRun

theorem driveServerHandshake_yields :
    (driveServerHandshake prims remoteAddr keypair tlsBinding replayCache).Yields events (.ok outcome) ↔
      ∃ run : ServerRun, run.Valid prims keypair tlsBinding ∧
        events = run.events prims keypair tlsBinding replayCache ∧
        outcome = (run.session prims remoteAddr keypair tlsBinding, run.peer prims keypair tlsBinding) := by
  unfold driveServerHandshake
  rw [yields_bind]
  simp only [newSession_yields, acceptBi_bind_yields]
  simp only [yields_bind, receiveClientHello_yields, sendServerHello_yields,
    receiveClientFinished_yields, advance_yields, yields_pure]
  constructor
  · rintro ⟨_, _, _, rfl, ⟨created, established, rfl, atStart⟩, _, rfl, opened⟩
    obtain ⟨_, _, _, rfl, ⟨helloHeader, helloPayload, ch, verifyTime, helloFramed, helloDecoded,
      helloVerified, rfl, rfl⟩, greeted⟩ := opened
    obtain ⟨_, _, _, rfl, ⟨secretKey, nonce, helloTime, helloSignature, rfl, rfl⟩, answered⟩ := greeted
    obtain ⟨_, _, _, rfl, ⟨finishedHeader, finishedPayload, cf, finishedFramed, finishedDecoded,
      finishedVerified, rfl⟩, finished⟩ := answered
    obtain ⟨_, _, _, rfl, ⟨identified, rfl, moved⟩, rfl, rfl⟩ := finished
    -- the session is opened up last: its fields would be copied into every later stage
    subst atStart
    cases moved
    refine ⟨⟨created, established, helloHeader, helloPayload, ch, verifyTime, nonce, helloTime,
      helloSignature, finishedHeader, finishedPayload, cf, identified⟩, ⟨secretKey, helloFramed,
      helloDecoded, helloVerified, finishedFramed, finishedDecoded, finishedVerified⟩, ?_, rfl⟩
    simp only [ServerRun.events, append_assoc, cons_append, nil_append, append_nil]
    rfl
  · rintro ⟨run, ⟨secretKey, helloFramed, helloDecoded, helloVerified, finishedFramed, finishedDecoded,
      finishedVerified⟩, rfl, rfl⟩
    refine ⟨_, [_, _], _, ?_, ⟨run.created, run.established, rfl, rfl⟩, _, rfl, _, _, _, rfl,
      ⟨run.helloHeader, run.helloPayload, run.ch, run.verifyTime, helloFramed, helloDecoded, helloVerified,
        rfl, rfl⟩, _, _, _, rfl, ⟨secretKey, run.nonce, run.helloTime, run.helloSignature, rfl, rfl⟩, (), _, _, rfl,
      ⟨run.finishedHeader, run.finishedPayload, run.cf, finishedFramed, finishedDecoded, finishedVerified,
        rfl⟩, _, _, [], rfl, ⟨run.identified, rfl, rfl⟩, rfl, rfl⟩
    simp only [ServerRun.events, append_assoc, cons_append, nil_append, append_nil]
    rfl

end Aafp.Sdk
