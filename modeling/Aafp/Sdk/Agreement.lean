import Aafp.Sdk.HonestRuns

/-! What a completed handshake establishes. -/
namespace Aafp.Sdk

open Foundation Cbor Crypto Aafp.Core Messaging List

/-- The ClientHello a client sent and the ServerHello it received, read off the
bytes of its run. -/
structure Exchanged (events : List (Event Handshaking)) (ch : ClientHello) (sh : ServerHello) : Prop where
  nonce : ⟨.generateNonce, ch.nonce⟩ ∈ events
  clientHello : ∃ rest, sent events = wire (clientHelloCodec.encodeMessage ch) ++ rest
  serverHello : ∃ header payload, HeaderOf header payload ∧ received events = header ++ payload ∧
    serverHelloCodec.decodeMessage payload = .ok sh

def boundSessionId (prims : Primitives) (tlsBinding : Bytes32) (ch : ClientHello) (sh : ServerHello) : Bytes32 :=
  deriveSessionId prims (afterClientHello prims tlsBinding ch).current ch.nonce sh.nonce sh.agentId

theorem Exchanged.of_run {run : ClientRun} (valid : run.Valid prims keypair) :
    Exchanged (run.events prims keypair tlsBinding replayCache) (run.ch prims keypair) run.sh where
  nonce := by
    simp only [ClientRun.events, append_assoc]
    refine mem_append_left _ ?_
    simp only [mem_cons]
    exact .inr (.inr (.inr (.inl rfl)))
  clientHello := ⟨_, run.sent_events⟩
  serverHello := ⟨run.header, run.payload, valid.framed, run.received_events, valid.decoded⟩

/-- A client has the session id that the ServerHello carries, which is the derived one exactly when
the server put it there. -/
theorem driveClientHandshake_session_id_derived_iff (client : Endpoint)
    (completed : (driveClientHandshake prims client.remoteAddr client.keypair tlsBinding
      client.replayCache).Yields events (.ok (session, peer))) : ∃ ch sh, Exchanged events ch sh ∧
      (session.sessionId = some (boundSessionId prims tlsBinding ch sh) ∧
          peer.sessionId = boundSessionId prims tlsBinding ch sh ↔
        sh.sessionId = boundSessionId prims tlsBinding ch sh) ∧ ∀ server serverEvents serverSession serverPeer,
        CompletedHandshake prims tlsBinding client server events serverEvents (session, peer)
          (serverSession, serverPeer) → sh.sessionId = boundSessionId prims tlsBinding ch sh ∧
          serverSession.sessionId = session.sessionId ∧ serverPeer.sessionId = peer.sessionId := by
  obtain ⟨c, clientValid, rfl, outcome⟩ := driveClientHandshake_yields.mp completed
  obtain ⟨rfl, rfl⟩ := Prod.mk.inj outcome
  refine ⟨c.ch prims client.keypair, c.sh, .of_run clientValid, ?_, ?_⟩
  · constructor
    · exact And.right
    · intro bound
      exact ⟨congrArg some bound, bound⟩
  · intro server serverEvents serverSession serverPeer both
    obtain ⟨s, serverValid, rfl, outcome⟩ := driveServerHandshake_yields.mp both.server
    obtain ⟨rfl, rfl⟩ := Prod.mk.inj outcome
    have same := Matched.of_bytes clientValid serverValid both.toServer both.toClient both.slices
    have carried : s.sessionId prims server.keypair tlsBinding = c.sh.sessionId :=
      (congrArg ServerHello.sessionId same.sh).symm
    exact ⟨by rw [same.sh, ← same.ch]; rfl, congrArg some carried, carried⟩

/-- An honest handshake with the computing stand-in, for which the theorem gives
the derived id on both sides. -/
theorem driveClientHandshake_session_id_honest :
    let client : Endpoint := ⟨"quic://198.51.100.1:4433", Situation.sample.client, true⟩
    ∃ events session peer ch sh,
      (driveClientHandshake .standIn client.remoteAddr client.keypair Situation.sample.tlsBinding
        client.replayCache).Yields events (.ok (session, peer)) ∧ Exchanged events ch sh ∧
      session.sessionId = some (boundSessionId .standIn Situation.sample.tlsBinding ch sh) := by
  intro client
  have both := Situation.completes Situation.sample_sound client.remoteAddr "quic://198.51.100.2:4433"
    true true
  obtain ⟨ch, sh, exchanged, derived, honest⟩ :=
    driveClientHandshake_session_id_derived_iff client both.client
  exact ⟨_, _, _, ch, sh, both.client, exchanged, (derived.mpr (honest _ _ _ _ both).1).1⟩

/-- A server that signs a session id of its own choice gets it accepted. -/
theorem driveClientHandshake_accepts_chosen_session_id :
    let chosen : Bytes32 := ⟨replicate 32 0, rfl⟩
    ∃ events session peer ch sh,
      (driveClientHandshake .standIn "quic://198.51.100.1:4433" Situation.sample.client
        Situation.sample.tlsBinding true).Yields events (.ok (session, peer)) ∧
      Genuine .standIn events ∧ Exchanged events ch sh ∧
      session.sessionId = some chosen ∧ peer.sessionId = chosen ∧
      boundSessionId .standIn Situation.sample.tlsBinding ch sh ≠ chosen := by
  intro chosen
  have valid := Situation.clientRun_valid Situation.sample_sound chosen
  refine ⟨_, _, _, _, _, driveClientHandshake_yields.mpr ⟨_, valid, rfl, rfl⟩,
    Situation.clientRun_genuine Situation.sample_sound chosen true, .of_run valid, rfl, rfl, ?_⟩
  intro same
  exact absurd (congrArg Subtype.val same) (by decide)

/-- The hash of the TLS binding, into which the encoded messages are hashed one after the other. -/
def transcriptHash (prims : Primitives) (tlsBinding : Bytes32) (messages : List (List UInt8)) : Bytes32 :=
  messages.foldl (fun hash message => prims.sha256 (hash.1 ++ message)) (prims.sha256 tlsBinding.1)

structure Messages where
  ch : ClientHello
  sh : ServerHello
  cf : ClientFinished

def Messages.unsigned (messages : Messages) : List (List UInt8) :=
  [encodeValue messages.ch.toCborWithoutSigAndMac, encodeValue messages.sh.toCborWithoutSig,
    encodeValue messages.cf.toCborWithoutSig]

def Messages.hashAfter (prims : Primitives) (tlsBinding : Bytes32) (messages : Messages) (count : Nat) : Bytes32 :=
  transcriptHash prims tlsBinding (messages.unsigned.take count)

structure Messages.OnWire (messages : Messages) (clientEvents serverEvents : List (Event Handshaking)) :
    Prop where
  client : sent clientEvents = wire (clientHelloCodec.encodeMessage messages.ch) ++
    wire (clientFinishedCodec.encodeMessage messages.cf)
  server : sent serverEvents = wire (serverHelloCodec.encodeMessage messages.sh)

private theorem publicKey_le_length (sh : ServerHello) :
    sh.publicKey.length ≤ (encodeValue sh.toCborWithoutSig).length := by
  refine le_trans (by simp [encodeValue]) (?_ : (encodeValue (.byteString sh.publicKey)).length ≤ _)
  exact length_encodeValue_le_intMap (3, .byteString sh.publicKey) (by simp)

private theorem length_finished_le (cf : ClientFinished) : (encodeValue cf.toCborWithoutSig).length ≤ 59 := by
  refine (length_encodeValue_intMap_le _).trans ?_
  simp only [map_cons, map_nil, sum_cons, sum_nil, Value.room_byteString, cf.sessionId.2]
  omega

/-- A ServerHello with its public key is longer than any ClientFinished, so the
two are never hashed from the same bytes. -/
theorem signedParts_ne {sh : ServerHello} (key : sh.publicKey.length = mlDsa65PubkeyLen)
    (cf : ClientFinished) (left right : Bytes32) :
    left.1 ++ encodeValue sh.toCborWithoutSig ≠ right.1 ++ encodeValue cf.toCborWithoutSig := by
  intro same
  have size := congrArg length same
  rw [length_append, length_append] at size
  have long := publicKey_le_length sh
  have short := length_finished_le cf
  unfold mlDsa65PubkeyLen at key
  omega

def ClientRun.messages (prims : Primitives) (keypair : AgentKeypair) (run : ClientRun) : Messages :=
  ⟨run.ch prims keypair, run.sh, run.cf⟩

theorem Matched.onWire (same : Matched prims tlsBinding client server c s) :
    (c.messages prims client.keypair).OnWire (c.events prims client.keypair tlsBinding client.replayCache)
      (s.events prims server.keypair tlsBinding server.replayCache) :=
  ⟨c.sent_events, by rw [s.sent_events, ← same.sh]; rfl⟩

theorem Matched.serverInputs (same : Matched prims tlsBinding client server c s) :
    let h := (c.messages prims client.keypair).hashAfter prims tlsBinding
    verifiedInputs (s.events prims server.keypair tlsBinding server.replayCache) =
      [signatureInput (h 1), signatureInput (h 2)] := by
  intro h
  have chHash : (s.thCh prims tlsBinding).current = h 1 := by
    rw [ServerRun.thCh, same.ch]
    rfl
  have shHash : (s.thSh prims server.keypair tlsBinding).current = h 2 := by
    rw [ServerRun.thSh, ServerRun.thCh, same.ch, ← same.sh]
    rfl
  rw [s.verifiedInputs_events, chHash, shHash]

theorem ClientRun.clientInputs (run : ClientRun) :
    verifiedInputs (run.events prims keypair tlsBinding replayCache) =
      [signatureInput ((run.messages prims keypair).hashAfter prims tlsBinding 2)] :=
  run.verifiedInputs_events

private theorem inputs_eq_iff {first second third : Bytes32} :
    [signatureInput first, signatureInput second] = [signatureInput first, signatureInput third] ∧
      [signatureInput second] = [signatureInput second] ↔ third = second := by
  simp only [cons.injEq, and_true, true_and]
  exact ⟨fun same => (Subtype.ext (append_cancel_left same)).symm, fun same => by rw [same]⟩

/-- The hellos' signatures are over the transcript that ends with their message. The
ClientFinished's is over the ServerHello's transcript again. -/
theorem handshake_signatures_cover_iff (completed : CompletedHandshake prims tlsBinding client server
      clientEvents serverEvents clientOutcome serverOutcome) :
    ∃ messages : Messages, messages.OnWire clientEvents serverEvents ∧
      let h := messages.hashAfter prims tlsBinding
      let shInput := (h 1).1 ++ encodeValue messages.sh.toCborWithoutSig
      let cfInput := (h 2).1 ++ encodeValue messages.cf.toCborWithoutSig
      verifiedInputs serverEvents = [signatureInput (h 1), signatureInput (h 2)] ∧
        verifiedInputs clientEvents = [signatureInput (h 2)] ∧
        ¬ (verifiedInputs serverEvents ++ verifiedInputs clientEvents).Nodup ∧
        shInput ≠ cfInput ∧
        (verifiedInputs serverEvents = [signatureInput (h 1), signatureInput (h 3)] ∧
          verifiedInputs clientEvents = [signatureInput (h 2)] ↔ prims.sha256 cfInput = prims.sha256 shInput) := by
  obtain ⟨c, s, same, rfl, rfl, -, -⟩ := completed.matched
  have key : c.sh.publicKey.length = mlDsa65PubkeyLen := by
    have valid := same.clientValid.verified.publicKey
    simp only [Primitives.isPublicKey, Bool.and_eq_true, beq_iff_eq] at valid
    exact valid.1
  refine ⟨c.messages prims client.keypair, same.onWire, ?_⟩
  rw [same.serverInputs, c.clientInputs]
  exact ⟨rfl, rfl, by simp, signedParts_ne key c.cf _ _, inputs_eq_iff⟩

/-- An honest handshake of the computing stand-in, to which the theorem applies. -/
theorem handshake_signatures_cover_honest :
    ∃ messages : Messages, let h := messages.hashAfter .standIn Situation.sample.tlsBinding
      verifiedInputs ((Situation.sample.serverRun .standIn).events .standIn Situation.sample.server
        Situation.sample.tlsBinding true) = [signatureInput (h 1), signatureInput (h 2)] := by
  obtain ⟨messages, -, inputs, -⟩ := handshake_signatures_cover_iff
    (Situation.completes Situation.sample_sound "quic://198.51.100.1:4433" "quic://198.51.100.2:4433" true true)
  exact ⟨messages, inputs⟩

/-- In that handshake the third verified input is not over the transcript after
the ClientFinished. -/
theorem handshake_finished_signature_misses_own_message : ∃ (clientEvents serverEvents : List (Event Handshaking))
      (clientOutcome serverOutcome : Session × PeerInfo) (messages : Messages),
      CompletedHandshake .standIn Situation.sample.tlsBinding
        ⟨"quic://198.51.100.1:4433", Situation.sample.client, true⟩
        ⟨"quic://198.51.100.2:4433", Situation.sample.server, true⟩ clientEvents serverEvents
        clientOutcome serverOutcome ∧ Genuine .standIn clientEvents ∧ Genuine .standIn serverEvents ∧
      messages.OnWire clientEvents serverEvents ∧
      let h := messages.hashAfter .standIn Situation.sample.tlsBinding
      verifiedInputs serverEvents = [signatureInput (h 1), signatureInput (h 2)] ∧ h 2 ≠ h 3 := by
  have sound := Situation.sample_sound
  have same : Matched .standIn Situation.sample.tlsBinding
      ⟨"quic://198.51.100.1:4433", Situation.sample.client, true⟩
      ⟨"quic://198.51.100.2:4433", Situation.sample.server, true⟩
      (Situation.sample.clientRun .standIn (Situation.sample.derivedId .standIn))
      (Situation.sample.serverRun .standIn) :=
    ⟨Situation.clientRun_valid sound _, Situation.serverRun_valid sound, rfl, rfl, rfl⟩
  refine ⟨_, _, _, _, _, Situation.completes sound "quic://198.51.100.1:4433" "quic://198.51.100.2:4433" true
    true, Situation.clientRun_genuine sound _ true, Situation.serverRun_genuine sound true, same.onWire,
    same.serverInputs, ?_⟩
  decide +kernel

end Aafp.Sdk
