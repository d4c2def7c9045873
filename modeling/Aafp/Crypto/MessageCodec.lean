import Aafp.Cbor.Fields
import Aafp.Crypto.Messages

/-! Both sides of a handshake hash the same bytes. -/
namespace Aafp.Crypto

open Foundation Cbor ClientHello ServerHello

structure MessageCodec (M : Type) where
  toCbor : M → Value
  toCborWithoutSig : M → Value
  fromCbor : Value → Except HandshakeError M

def clientHelloCodec : MessageCodec ClientHello :=
  ⟨toCbor, toCborWithoutSigAndMac, fromCbor⟩

def serverHelloCodec : MessageCodec ServerHello :=
  ⟨toCbor, toCborWithoutSig, fromCbor⟩

def clientFinishedCodec : MessageCodec ClientFinished :=
  ⟨ClientFinished.toCbor, ClientFinished.toCborWithoutSig, ClientFinished.fromCbor⟩

def MessageCodec.encodeMessage (codec : MessageCodec M) (message : M) : List UInt8 :=
  encodeValue (codec.toCbor message)

def MessageCodec.decodeMessage (codec : MessageCodec M) (data : List UInt8) : Except HandshakeError M := do
  let (val, _) ← (decode data).mapError HandshakeError.cbor
  codec.fromCbor val

/-- The message's map and the array around the value take two of the decoder's nesting levels. -/
def Embeddable (value : Value) : Prop := value.WellFormed ∧ value.height + 2 ≤ maxDecodeDepth

def ClientHello.norm (ch : ClientHello) : ClientHello :=
  { ch with capabilities := ch.capabilities.map Value.norm, extensions := ch.extensions.map Value.norm }

def ServerHello.norm (sh : ServerHello) : ServerHello :=
  { sh with capabilities := sh.capabilities.map Value.norm, extensions := sh.extensions.map Value.norm }

variable (sh : ServerHello) (ch : ClientHello) (cf : ClientFinished)

theorem ClientHello.fromCbor_norm : fromCbor ch.toCbor.norm = .ok ch.norm := by
  obtain ⟨protocolVersion, agentId, publicKey, nonce, capabilities, extensions, signature, expiresAt,
    receiverMac, keyAlgorithm⟩ := ch
  cases receiverMac <;>
    simp [fromCbor, toCbor, expectU64, expectBstr, expectBstr32, expectArray, nonce.2, norm]

theorem ServerHello.fromCbor_norm : fromCbor sh.toCbor.norm = .ok sh.norm := by
  simp [fromCbor, toCbor, expectU64, expectBstr, expectBstr32, expectArray, sh.nonce.2, sh.sessionId.2, norm]

theorem ClientFinished.fromCbor_norm : ClientFinished.fromCbor cf.toCbor.norm = .ok cf := by
  simp [ClientFinished.fromCbor, ClientFinished.toCbor, expectBstr, expectBstr32, cf.sessionId.2]

theorem MessageCodec.decodeMessage_encodeMessage {codec : MessageCodec M}
    (embeds : (codec.toCbor message).WellFormed ∧ (codec.toCbor message).height ≤ maxDecodeDepth)
    (bounded : (codec.encodeMessage message).length ≤ isizeMax) :
    codec.decodeMessage (codec.encodeMessage message) = codec.fromCbor (codec.toCbor message).norm := by
  have read := decode_encodeValue [] embeds.1 embeds.2 (by simpa [encodeMessage] using bounded)
  rw [List.append_nil] at read
  rw [decodeMessage, encodeMessage, read]
  rfl

def ClientHello.WellFormed (ch : ClientHello) : Prop :=
  (∀ value ∈ ch.capabilities, Embeddable value) ∧ ∀ value ∈ ch.extensions, Embeddable value

def ServerHello.WellFormed (sh : ServerHello) : Prop :=
  (∀ value ∈ sh.capabilities, Embeddable value) ∧ ∀ value ∈ sh.extensions, Embeddable value

/-- Agreement on every hashed field, up to the order of map entries and the kind of empty maps. -/
structure ClientHello.Agree (left right : ClientHello) : Prop where
  protocolVersion : left.protocolVersion = right.protocolVersion
  agentId : left.agentId = right.agentId
  publicKey : left.publicKey = right.publicKey
  nonce : left.nonce = right.nonce
  capabilities : List.Forall₂ Value.Reordered left.capabilities right.capabilities
  extensions : List.Forall₂ Value.Reordered left.extensions right.extensions
  expiresAt : left.expiresAt = right.expiresAt
  keyAlgorithm : left.keyAlgorithm = right.keyAlgorithm

structure ServerHello.Agree (left right : ServerHello) : Prop where
  protocolVersion : left.protocolVersion = right.protocolVersion
  agentId : left.agentId = right.agentId
  publicKey : left.publicKey = right.publicKey
  nonce : left.nonce = right.nonce
  capabilities : List.Forall₂ Value.Reordered left.capabilities right.capabilities
  extensions : List.Forall₂ Value.Reordered left.extensions right.extensions
  sessionId : left.sessionId = right.sessionId
  expiresAt : left.expiresAt = right.expiresAt
  keyAlgorithm : left.keyAlgorithm = right.keyAlgorithm

/-- The receiver rebuilds the sender's hash input from the parsed message. The hash input covers
every field up to `agree`. -/
structure MessageCodec.Faithful (codec : MessageCodec M) (wellFormed : M → Prop)
    (agree : M → M → Prop) : Prop where
  rebuilds : ∀ message, wellFormed message → (codec.encodeMessage message).length ≤ isizeMax →
    ∃ parsed, codec.decodeMessage (codec.encodeMessage message) = .ok parsed ∧
      encode (codec.toCborWithoutSig parsed) = encode (codec.toCborWithoutSig message)
  covers : ∀ left right, wellFormed left → wellFormed right →
    (encodeValue (codec.toCborWithoutSig left)).length ≤ isizeMax →
    encode (codec.toCborWithoutSig left) = encode (codec.toCborWithoutSig right) → agree left right

private theorem array_embeds (each : ∀ value ∈ items, Embeddable value) :
    (Value.array items).WellFormed ∧ (Value.array items).height ≤ 99 := by
  refine ⟨.array fun item mem => (each item mem).1, height_array_le fun item mem => ?_⟩
  have shallow := (each item mem).2
  unfold maxDecodeDepth at shallow
  omega

private theorem map_embeds (distinct : (entries.map Prod.fst).Nodup)
    (each : ∀ entry ∈ entries, entry.2.WellFormed ∧ entry.2.height ≤ 99) :
    (Value.intMap entries).WellFormed ∧ (Value.intMap entries).height ≤ maxDecodeDepth :=
  ⟨.intMap distinct fun entry mem => (each entry mem).1,
    height_intMap_le fun entry mem => (each entry mem).2⟩

private theorem scalar_embeds : (∀ n, (Value.unsigned n).WellFormed ∧ (Value.unsigned n).height ≤ 99) ∧
    ∀ bytes, (Value.byteString bytes).WellFormed ∧ (Value.byteString bytes).height ≤ 99 :=
  ⟨fun _ => ⟨.unsigned, by simp [Value.height]⟩, fun _ => ⟨.byteString, by simp [Value.height]⟩⟩

theorem ClientHello.toCbor_embeds {ch : ClientHello} (wellFormed : ch.WellFormed) :
    ch.toCbor.WellFormed ∧ ch.toCbor.height ≤ maxDecodeDepth := by
  have capabilities := array_embeds wellFormed.1
  have extensions := array_embeds wellFormed.2
  unfold toCbor
  cases ch.receiverMac <;> exact map_embeds (by simp) (by simp [scalar_embeds, capabilities, extensions])

theorem ClientHello.signedPart_embeds {ch : ClientHello} (wellFormed : ch.WellFormed) :
    ch.toCborWithoutSigAndMac.WellFormed ∧ ch.toCborWithoutSigAndMac.height ≤ maxDecodeDepth :=
  map_embeds (by simp) (by simp [scalar_embeds, array_embeds wellFormed.1, array_embeds wellFormed.2])

theorem ServerHello.toCbor_embeds {sh : ServerHello} (wellFormed : sh.WellFormed) :
    sh.toCbor.WellFormed ∧ sh.toCbor.height ≤ maxDecodeDepth :=
  map_embeds (by simp) (by simp [scalar_embeds, array_embeds wellFormed.1, array_embeds wellFormed.2])

theorem ServerHello.signedPart_embeds {sh : ServerHello} (wellFormed : sh.WellFormed) :
    sh.toCborWithoutSig.WellFormed ∧ sh.toCborWithoutSig.height ≤ maxDecodeDepth :=
  map_embeds (by simp) (by simp [scalar_embeds, array_embeds wellFormed.1, array_embeds wellFormed.2])

theorem ClientFinished.toCbor_embeds : cf.toCbor.WellFormed ∧ cf.toCbor.height ≤ maxDecodeDepth :=
  map_embeds (by simp) (by simp [scalar_embeds])

theorem ClientFinished.signedPart_embeds :
    cf.toCborWithoutSig.WellFormed ∧ cf.toCborWithoutSig.height ≤ maxDecodeDepth :=
  map_embeds (List.nodup_singleton 1) (by simp [scalar_embeds])

theorem ClientHello.signedPart_norm :
    encodeValue ch.norm.toCborWithoutSigAndMac = encodeValue ch.toCborWithoutSigAndMac :=
  encodeValue_intMap_congr (by simp [norm, encodeValue_array_norm])

theorem ServerHello.signedPart_norm : encodeValue sh.norm.toCborWithoutSig = encodeValue sh.toCborWithoutSig :=
  encodeValue_intMap_congr (by simp [norm, encodeValue_array_norm])

theorem clientHello_faithful : clientHelloCodec.Faithful ClientHello.WellFormed ClientHello.Agree where
  rebuilds := by
    intro ch wellFormed bounded
    refine ⟨ch.norm, ?_, congrArg Except.ok ch.signedPart_norm⟩
    rw [MessageCodec.decodeMessage_encodeMessage (toCbor_embeds wellFormed) bounded]
    exact ch.fromCbor_norm
  covers := by
    intro left right wellFormed otherFormed bounded same
    have field := fields_eq (signedPart_embeds wellFormed)
      (signedPart_embeds otherFormed) bounded same
    exact {
      protocolVersion := by simpa using field 1
      agentId := by simpa using field 2
      publicKey := by simpa using field 3
      nonce := Subtype.ext (by simpa using field 4)
      capabilities := forall₂_reordered_of_norm (by simpa using field 5)
      extensions := forall₂_reordered_of_norm (by simpa using field 6)
      expiresAt := by simpa using field 8
      keyAlgorithm := by simpa using field 10 }

theorem serverHello_faithful : serverHelloCodec.Faithful ServerHello.WellFormed ServerHello.Agree where
  rebuilds := by
    intro sh wellFormed bounded
    refine ⟨sh.norm, ?_, congrArg Except.ok sh.signedPart_norm⟩
    rw [MessageCodec.decodeMessage_encodeMessage (toCbor_embeds wellFormed) bounded]
    exact sh.fromCbor_norm
  covers := by
    intro left right wellFormed otherFormed bounded same
    have field := fields_eq (signedPart_embeds wellFormed)
      (signedPart_embeds otherFormed) bounded same
    exact {
      protocolVersion := by simpa using field 1
      agentId := by simpa using field 2
      publicKey := by simpa using field 3
      nonce := Subtype.ext (by simpa using field 4)
      capabilities := forall₂_reordered_of_norm (by simpa using field 5)
      extensions := forall₂_reordered_of_norm (by simpa using field 6)
      sessionId := Subtype.ext (by simpa using field 7)
      expiresAt := by simpa using field 9
      keyAlgorithm := by simpa using field 10 }

theorem clientFinished_faithful :
    clientFinishedCodec.Faithful (fun _ => True) (fun left right => left.sessionId = right.sessionId) where
  rebuilds := by
    intro cf _ bounded
    refine ⟨cf, ?_, rfl⟩
    rw [MessageCodec.decodeMessage_encodeMessage cf.toCbor_embeds bounded]
    exact cf.fromCbor_norm
  covers := by
    intro left right _ _ bounded same
    have field := fields_eq left.signedPart_embeds right.signedPart_embeds bounded same
    exact Subtype.ext (by simpa using field 1)

/-- Both sides hash the same bytes, which cover every field but the signature and the receiver MAC.
-/
theorem handshake_messages_faithful : clientHelloCodec.Faithful ClientHello.WellFormed ClientHello.Agree ∧
      serverHelloCodec.Faithful ServerHello.WellFormed ServerHello.Agree ∧
      clientFinishedCodec.Faithful (fun _ => True) (fun left right => left.sessionId = right.sessionId) :=
  ⟨clientHello_faithful, serverHello_faithful, clientFinished_faithful⟩

/-- Values that differ in the order of map entries only. -/
inductive Rearranged : Value → Value → Prop where
  | refl (value : Value) : Rearranged value value
  | symm (same : Rearranged left right) : Rearranged right left
  | trans (first : Rearranged left middle) (second : Rearranged middle right) : Rearranged left right
  | intEntries (perm : entries.Perm others) : Rearranged (.intMap entries) (.intMap others)
  | strEntries (perm : entries.Perm others) : Rearranged (.strMap entries) (.strMap others)
  | arrayItem (same : Rearranged item other) :
      Rearranged (.array (front ++ item :: back)) (.array (front ++ other :: back))
  | intValue (same : Rearranged value other) :
      Rearranged (.intMap (front ++ (key, value) :: back)) (.intMap (front ++ (key, other) :: back))
  | strValue (same : Rearranged value other) :
      Rearranged (.strMap (front ++ (key, value) :: back)) (.strMap (front ++ (key, other) :: back))

theorem Rearranged.intMap_iff (same : Rearranged left right) :
    (∃ entries, left = .intMap entries) ↔ ∃ entries, right = .intMap entries := by
  induction same with
  | symm _ ih => exact ih.symm
  | trans _ _ first second => exact first.trans second
  | _ => simp

/-- Two hellos that differ in the kind of an empty map are hashed alike. -/
theorem clientHello_hashes_empty_maps_alike :
    let hello (capability : Value) : ClientHello :=
      { protocolVersion := 1, agentId := [], publicKey := [], nonce := ⟨List.replicate 32 0, rfl⟩
        capabilities := [capability], extensions := [], signature := [], expiresAt := 0
        receiverMac := none, keyAlgorithm := 1 }
    (hello (.strMap [])).WellFormed ∧ (hello (.intMap [])).WellFormed ∧
      encode (hello (.strMap [])).toCborWithoutSigAndMac =
        encode (hello (.intMap [])).toCborWithoutSigAndMac ∧
      ¬ List.Forall₂ Rearranged (hello (.strMap [])).capabilities (hello (.intMap [])).capabilities := by
  refine ⟨?_, ?_, by decide +kernel, ?_⟩
  · simp [ClientHello.WellFormed, Embeddable, Value.height, maxDecodeDepth]
  · simp [ClientHello.WellFormed, Embeddable, Value.height, maxDecodeDepth]
  · intro same
    cases same with
    | cons head _ => simpa using head.intMap_iff.mpr ⟨[], rfl⟩

end Aafp.Crypto
