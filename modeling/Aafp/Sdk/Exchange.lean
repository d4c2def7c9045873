import Aafp.Sdk.HandshakeRuns

/-! A client and a server at the two ends of one stream. -/
namespace Aafp.Sdk

open Foundation Cbor Crypto Aafp.Core Messaging List

def wire (payload : List UInt8) : List UInt8 := handshakeHeader payload ++ payload

@[simp] theorem sent_handshakeFrame (payload : List UInt8) : sent (handshakeFrame payload) = wire payload := by
  simp [handshakeFrame, sent, sentBy, writeEvent, wire]

theorem length_handshakeHeader (payload : List UInt8) : (handshakeHeader payload).length = frameHeaderSize := by
  simp [handshakeHeader, frameHeaderSize]

private theorem header_payloadLen (fits : payload.length < 2 ^ 64) :
    (readU64 (handshakeHeader payload) 12).toNat = payload.length := by
  have here : (handshakeHeader payload).drop 12 = bigEndian 8 payload.length ++ bigEndian 8 0 := by
    simp [handshakeHeader, bigEndian]
  rw [readU64_at_cursor fits here, UInt64.toNat_ofNat_of_lt' fits]

private theorem header_extLen (payload : List UInt8) : (readU64 (handshakeHeader payload) 20).toNat = 0 := by
  have here : (handshakeHeader payload).drop 20 = bigEndian 8 0 ++ [] := by
    simp [handshakeHeader, bigEndian]
  rw [readU64_at_cursor (by decide) here]
  rfl

theorem handshakeHeader_headerOf (small : payload.length ≤ 1024 * 1024) :
    HeaderOf (handshakeHeader payload) payload where
  size := length_handshakeHeader payload
  version := rfl
  frameType := rfl
  extLen := header_extLen payload
  bounded := by rw [header_payloadLen (by omega)]; exact small
  payloadLen := (header_payloadLen (by omega)).symm

theorem HeaderOf.of_wire (framed : HeaderOf header payload) (fits : written.length < 2 ^ 64)
    (begins : (header ++ (payload ++ more)) <+: (wire written ++ rest)) : payload = written ∧ more <+: rest := by
  obtain ⟨tail, same⟩ := begins
  rw [wire, append_assoc, append_assoc, append_assoc] at same
  obtain ⟨rfl, body⟩ := append_inj same
    (framed.size.trans (length_handshakeHeader written).symm)
  have len : payload.length = written.length := framed.payloadLen.trans (header_payloadLen fits)
  obtain ⟨rfl, back⟩ := append_inj body len
  exact ⟨rfl, tail, back⟩

@[simp] theorem sent_freshLookup : sent (freshLookup replayCache agentId nonce) = [] := by
  cases replayCache <;> rfl

@[simp] theorem sent_insertion : sent (insertion replayCache agentId nonce) = [] := by
  cases replayCache <;> rfl

@[simp] theorem received_freshLookup : received (freshLookup replayCache agentId nonce) = [] := by
  cases replayCache <;> rfl

@[simp] theorem received_insertion : received (insertion replayCache agentId nonce) = [] := by
  cases replayCache <;> rfl

@[simp] theorem received_handshakeFrame : received (handshakeFrame payload) = [] := rfl

@[simp] theorem verifiedInputs_freshLookup : verifiedInputs (freshLookup replayCache agentId nonce) = [] := by
  cases replayCache <;> rfl

@[simp] theorem verifiedInputs_insertion : verifiedInputs (insertion replayCache agentId nonce) = [] := by
  cases replayCache <;> rfl

@[simp] theorem verifiedInputs_handshakeFrame : verifiedInputs (handshakeFrame payload) = [] := rfl

variable (run : ClientRun)

section Runs

variable {prims : Primitives} {keypair : AgentKeypair} {tlsBinding : Bytes32} {replayCache : Bool}

theorem ClientRun.sent_events : sent (run.events prims keypair tlsBinding replayCache) =
      wire (clientHelloCodec.encodeMessage (run.ch prims keypair)) ++
        wire (clientFinishedCodec.encodeMessage run.cf) := by
  simp only [ClientRun.events, sent_append, sent_handshakeFrame, sent_freshLookup, sent_insertion]
  simp [sent, sentBy, readEvent, verifyEvent]

theorem ClientRun.received_events :
    received (run.events prims keypair tlsBinding replayCache) = run.header ++ run.payload := by
  simp only [ClientRun.events, received_append, received_handshakeFrame, received_freshLookup, received_insertion]
  simp [received, receivedBy, readEvent, verifyEvent]

theorem ClientRun.verifiedInputs_events :
    verifiedInputs (run.events prims keypair tlsBinding replayCache) =
      [signatureInput (run.thSh prims keypair tlsBinding).current] := by
  simp only [ClientRun.events, verifiedInputs_append, verifiedInputs_handshakeFrame,
    verifiedInputs_freshLookup, verifiedInputs_insertion]
  simp [verifiedInputs, verifiedBy, readEvent, verifyEvent]

theorem ServerRun.sent_events (run : ServerRun) : sent (run.events prims keypair tlsBinding replayCache) =
      wire (serverHelloCodec.encodeMessage (run.sh prims keypair tlsBinding)) := by
  simp only [ServerRun.events, sent_append, sent_handshakeFrame, sent_freshLookup, sent_insertion]
  simp [sent, sentBy, readEvent, verifyEvent]

theorem ServerRun.received_events (run : ServerRun) : received (run.events prims keypair tlsBinding replayCache) =
      run.helloHeader ++ (run.helloPayload ++ (run.finishedHeader ++ (run.finishedPayload ++ []))) := by
  simp only [ServerRun.events, received_append, received_handshakeFrame, received_freshLookup, received_insertion]
  simp [received, receivedBy, readEvent, verifyEvent]

theorem ServerRun.verifiedInputs_events (run : ServerRun) :
    verifiedInputs (run.events prims keypair tlsBinding replayCache) =
      [signatureInput (run.thCh prims tlsBinding).current,
        signatureInput (run.thSh prims keypair tlsBinding).current] := by
  simp only [ServerRun.events, verifiedInputs_append, verifiedInputs_handshakeFrame,
    verifiedInputs_freshLookup, verifiedInputs_insertion]
  simp [verifiedInputs, verifiedBy, readEvent, verifyEvent]

theorem ClientRun.writes_ch : writeEvent (clientHelloCodec.encodeMessage (run.ch prims keypair)) ∈
      run.events prims keypair tlsBinding replayCache := by
  simp [ClientRun.events, handshakeFrame]

theorem ClientRun.writes_cf : writeEvent (clientFinishedCodec.encodeMessage run.cf) ∈
    run.events prims keypair tlsBinding replayCache := by
  simp [ClientRun.events, handshakeFrame]

theorem ServerRun.writes_sh (run : ServerRun) :
    writeEvent (serverHelloCodec.encodeMessage (run.sh prims keypair tlsBinding)) ∈
      run.events prims keypair tlsBinding replayCache := by
  simp [ServerRun.events, handshakeFrame]

end Runs

theorem decodeMessage_clientHello (capabilities : ch.capabilities = []) (extensions : ch.extensions = [])
    (bounded : (clientHelloCodec.encodeMessage ch).length ≤ isizeMax) :
    clientHelloCodec.decodeMessage (clientHelloCodec.encodeMessage ch) = .ok ch := by
  have wellFormed : ch.WellFormed := by simp [ClientHello.WellFormed, capabilities, extensions]
  rw [MessageCodec.decodeMessage_encodeMessage (ClientHello.toCbor_embeds wellFormed) bounded]
  have parsed := ch.fromCbor_norm
  have same : ch.norm = ch := by
    cases ch
    simp_all [ClientHello.norm]
  rw [same] at parsed
  exact parsed

theorem decodeMessage_serverHello (capabilities : sh.capabilities = []) (extensions : sh.extensions = [])
    (bounded : (serverHelloCodec.encodeMessage sh).length ≤ isizeMax) :
    serverHelloCodec.decodeMessage (serverHelloCodec.encodeMessage sh) = .ok sh := by
  have wellFormed : sh.WellFormed := by simp [ServerHello.WellFormed, capabilities, extensions]
  rw [MessageCodec.decodeMessage_encodeMessage (ServerHello.toCbor_embeds wellFormed) bounded]
  have parsed := sh.fromCbor_norm
  have same : sh.norm = sh := by
    cases sh
    simp_all [ServerHello.norm]
  rw [same] at parsed
  exact parsed

theorem decodeMessage_clientFinished (bounded : (clientFinishedCodec.encodeMessage cf).length ≤ isizeMax) :
    clientFinishedCodec.decodeMessage (clientFinishedCodec.encodeMessage cf) = .ok cf := by
  rw [MessageCodec.decodeMessage_encodeMessage cf.toCbor_embeds bounded]
  exact cf.fromCbor_norm

def Slices (events : List (Event Handshaking)) : Prop :=
  ∀ event ∈ events, (sentBy event).length ≤ isizeMax

structure Endpoint where
  remoteAddr : String
  keypair : AgentKeypair
  replayCache : Bool

section Exchange

variable (prims : Primitives) (tlsBinding : Bytes32) (client server : Endpoint)

/-- Both sides return `Ok`, and what either reads is the beginning of what the other has written. -/
structure CompletedHandshake (clientEvents serverEvents : List (Event Handshaking))
    (clientOutcome serverOutcome : Session × PeerInfo) : Prop where
  client : (driveClientHandshake prims client.remoteAddr client.keypair tlsBinding
    client.replayCache).Yields clientEvents (.ok clientOutcome)
  server : (driveServerHandshake prims server.remoteAddr server.keypair tlsBinding
    server.replayCache).Yields serverEvents (.ok serverOutcome)
  toServer : received serverEvents <+: sent clientEvents
  toClient : received clientEvents <+: sent serverEvents
  slices : Slices (clientEvents ++ serverEvents)

structure Matched (clientRun : ClientRun) (serverRun : ServerRun) : Prop where
  clientValid : clientRun.Valid prims client.keypair
  serverValid : serverRun.Valid prims server.keypair tlsBinding
  ch : serverRun.ch = clientRun.ch prims client.keypair
  sh : clientRun.sh = serverRun.sh prims server.keypair tlsBinding
  cf : serverRun.cf = clientRun.cf

variable {prims tlsBinding client server}

theorem Matched.of_bytes (clientValid : c.Valid prims client.keypair)
    (serverValid : s.Valid prims server.keypair tlsBinding)
    (toServer : received (s.events prims server.keypair tlsBinding server.replayCache) <+:
      sent (c.events prims client.keypair tlsBinding client.replayCache))
    (toClient : received (c.events prims client.keypair tlsBinding client.replayCache) <+:
      sent (s.events prims server.keypair tlsBinding server.replayCache))
    (slices : Slices (c.events prims client.keypair tlsBinding client.replayCache ++
      s.events prims server.keypair tlsBinding server.replayCache)) :
    Matched prims tlsBinding client server c s := by
  have chFits := slices _ (mem_append_left _ c.writes_ch)
  have cfFits := slices _ (mem_append_left _ c.writes_cf)
  have shFits := slices _ (mem_append_right _ s.writes_sh)
  simp only [writeEvent, sentBy] at chFits cfFits shFits
  have word : isizeMax < 2 ^ 64 := by decide
  rw [ServerRun.received_events, ClientRun.sent_events] at toServer
  rw [ClientRun.received_events, ServerRun.sent_events] at toClient
  rw [← append_nil (wire (clientFinishedCodec.encodeMessage _))] at toServer
  rw [← append_nil c.payload, ← append_nil (wire _)] at toClient
  obtain ⟨chSame, toServer⟩ := serverValid.helloFramed.of_wire (by omega) toServer
  obtain ⟨cfSame, -⟩ := serverValid.finishedFramed.of_wire (by omega) toServer
  obtain ⟨shSame, -⟩ := clientValid.framed.of_wire (by omega) toClient
  have ch := serverValid.helloDecoded
  rw [chSame, decodeMessage_clientHello rfl rfl chFits] at ch
  have cf := serverValid.finishedDecoded
  rw [cfSame, decodeMessage_clientFinished cfFits] at cf
  have sh := clientValid.decoded
  rw [shSame, decodeMessage_serverHello rfl rfl shFits] at sh
  exact ⟨clientValid, serverValid, (Except.ok.inj ch).symm, (Except.ok.inj sh).symm, (Except.ok.inj cf).symm⟩

theorem CompletedHandshake.matched (completed : CompletedHandshake prims tlsBinding client server
      clientEvents serverEvents clientOutcome serverOutcome) :
    ∃ clientRun serverRun, Matched prims tlsBinding client server clientRun serverRun ∧
      clientEvents = clientRun.events prims client.keypair tlsBinding client.replayCache ∧
      serverEvents = serverRun.events prims server.keypair tlsBinding server.replayCache ∧
      clientOutcome = (clientRun.session prims client.remoteAddr, clientRun.peer prims) ∧
      serverOutcome = (serverRun.session prims server.remoteAddr server.keypair tlsBinding,
        serverRun.peer prims server.keypair tlsBinding) := by
  obtain ⟨clientYields, serverYields, toServer, toClient, slices⟩ := completed
  obtain ⟨c, clientValid, rfl, rfl⟩ := driveClientHandshake_yields.mp clientYields
  obtain ⟨s, serverValid, rfl, rfl⟩ := driveServerHandshake_yields.mp serverYields
  exact ⟨c, s, .of_bytes clientValid serverValid toServer toClient slices, rfl, rfl, rfl, rfl⟩

end Exchange

end Aafp.Sdk
