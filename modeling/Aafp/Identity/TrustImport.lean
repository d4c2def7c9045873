import Aafp.Cbor.Fields
import Aafp.Foundation.Grouping
import Aafp.Identity.TrustDecay

/-! Trust that leaves a web as CBOR and is merged into another. -/
namespace Aafp.Identity

open Foundation Cbor Crypto Bytes32
open List hiding after

/-- `unexpectedValue` is an invalid field whose message shows a value with `{:?}`. -/
inductive WotError where
  | cbor (error : CborError)
  | missingField (field : String)
  | unexpectedValue (field expectation : String) (value : Value)
  | identity (error : IdentityError)
deriving DecidableEq

namespace TrustSignature

def toCbor (sig : TrustSignature) : Value :=
  .intMap [(1, .textString sig.sigType), (2, .byteString sig.signerAgentId.1),
    (3, .byteString sig.signedAgentId.1), (4, .byteString sig.signedPublicKey),
    (5, .unsigned sig.trustLevel.toUInt64), (6, .unsigned sig.expiry), (7, .byteString sig.signature)]

def expectTstr (val : Option Value) (field : String) : Except WotError String :=
  expectField Value.tstr? (.missingField field) (.unexpectedValue field "expected tstr, got") val

def expectBstr (val : Option Value) (field : String) : Except WotError (List UInt8) :=
  expectField Value.bstr? (.missingField field) (.unexpectedValue field "expected bstr, got") val

def expectUint (val : Option Value) (field : String) : Except WotError UInt64 :=
  expectField Value.uint? (.missingField field) (.unexpectedValue field "expected uint, got") val

def expectAgentId (val : Option Value) (field : String) : Except WotError AgentId := do
  let bytes ← expectBstr val field
  (agentIdFromBytes bytes).mapError .identity

/-- The trust level is narrowed with `as u8`. -/
def fromCbor (val : Value) : Except WotError TrustSignature := do
  let sigType ← expectTstr (intMapGet val 1) "type"
  let signerAgentId ← expectAgentId (intMapGet val 2) "signer_agent_id"
  let signedAgentId ← expectAgentId (intMapGet val 3) "signed_agent_id"
  let signedPublicKey ← expectBstr (intMapGet val 4) "signed_public_key"
  let trustLevel ← expectUint (intMapGet val 5) "trust_level"
  let expiry ← expectUint (intMapGet val 6) "expiry"
  let signature ← expectBstr (intMapGet val 7) "signature"
  .ok { sigType, signerAgentId, signedAgentId, signedPublicKey, trustLevel := trustLevel.toUInt8
        expiry, signature }

end TrustSignature

namespace WebOfTrust

/-- The document that `export_trust` encodes. -/
def toCbor (web : WebOfTrust) (pass : IterationOrder AgentId (List TrustSignature)) : Value :=
  .intMap [(1, .array ((web.allSignatures pass).map TrustSignature.toCbor)),
    (2, (web.ownAgentId.map fun own => Value.byteString own.1).getD .null)]

def exportTrust (web : WebOfTrust) (pass : IterationOrder AgentId (List TrustSignature)) :
    Except WotError (List UInt8) :=
  (encode (web.toCbor pass)).mapError .cbor

/-- The loop of `import_trust`. What was added before an error stays. -/
def importSignatures : List Value → WebOfTrust → Except WotError Unit × WebOfTrust
  | [], web => (.ok (), web)
  | sigVal :: sigs, web =>
    match TrustSignature.fromCbor sigVal with
    | .error error => (.error error, web)
    | .ok sig => importSignatures sigs (web.addTrustSignature sig)

def documentSignatures (val : Value) : List Value :=
  match intMapGet val 1 with
  | some (.array sigs) => sigs
  | _ => []

/-- The own agent that a document names, if it is given by 32 bytes. -/
def documentOwner (val : Value) : Option AgentId :=
  match intMapGet val 2 with
  | some (.byteString bytes) => if whole : bytes.length = 32 then some ⟨bytes, whole⟩ else none
  | _ => none

def adoptOwner (web : WebOfTrust) : Option AgentId → WebOfTrust
  | some own => web.setOwnAgentId own
  | none => web

def importTrust (web : WebOfTrust) (data : List UInt8) : Except WotError Unit × WebOfTrust :=
  match decode data with
  | .error error => (.error (.cbor error), web)
  | .ok (val, _) =>
    match importSignatures (documentSignatures val) web with
    | (.error error, web) => (.error error, web)
    | (.ok (), web) => (.ok (), web.adoptOwner (documentOwner val))

end WebOfTrust

structure Carries (element : Value) (sig : TrustSignature) : Prop where
  sigType : intMapGet element 1 = some (.textString sig.sigType)
  signerAgentId : intMapGet element 2 = some (.byteString sig.signerAgentId.1)
  signedAgentId : intMapGet element 3 = some (.byteString sig.signedAgentId.1)
  signedPublicKey : intMapGet element 4 = some (.byteString sig.signedPublicKey)
  trustLevel : ∃ level, intMapGet element 5 = some (.unsigned level) ∧
    level.toNat = sig.trustLevel.toNat
  expiry : intMapGet element 6 = some (.unsigned sig.expiry)
  signature : intMapGet element 7 = some (.byteString sig.signature)

/-- The level of an element, if it has one, fits a byte. -/
def ByteLevel (element : Value) : Prop :=
  ∀ level, intMapGet element 5 = some (.unsigned level) → level.toNat < 256

section Reading

variable {element : Value}

private theorem expectTstr_eq_ok : TrustSignature.expectTstr val field = .ok text ↔
    val = some (.textString text) := by
  simp [TrustSignature.expectTstr, expectField_eq_ok]

private theorem expectBstr_eq_ok : TrustSignature.expectBstr val field = .ok bytes ↔
    val = some (.byteString bytes) := by
  simp [TrustSignature.expectBstr, expectField_eq_ok]

private theorem expectUint_eq_ok : TrustSignature.expectUint val field = .ok n ↔ val = some (.unsigned n) := by
  simp [TrustSignature.expectUint, expectField_eq_ok]

private theorem agentIdFromBytes_eq_ok : agentIdFromBytes bytes = .ok agentId ↔ bytes = agentId.1 := by
  constructor
  · intro read
    unfold agentIdFromBytes at read
    split at read
    · cases read
      rfl
    · cases read
  · intro same
    rw [same, agentIdFromBytes_val]

private theorem expectAgentId_eq_ok :
    TrustSignature.expectAgentId val field = .ok agentId ↔ val = some (.byteString agentId.1) := by
  simp [TrustSignature.expectAgentId, bind_eq_ok, mapError_eq_ok, expectBstr_eq_ok, agentIdFromBytes_eq_ok]

theorem fromCbor_eq_ok : TrustSignature.fromCbor element = .ok sig ↔
    intMapGet element 1 = some (.textString sig.sigType) ∧
    intMapGet element 2 = some (.byteString sig.signerAgentId.1) ∧
    intMapGet element 3 = some (.byteString sig.signedAgentId.1) ∧
    intMapGet element 4 = some (.byteString sig.signedPublicKey) ∧
    (∃ level, intMapGet element 5 = some (.unsigned level) ∧ level.toUInt8 = sig.trustLevel) ∧
    intMapGet element 6 = some (.unsigned sig.expiry) ∧ intMapGet element 7 = some (.byteString sig.signature) := by
  obtain ⟨sigType, signer, signed, publicKey, trustLevel, expiry, signature⟩ := sig
  simp only [TrustSignature.fromCbor, bind_eq_ok, expectTstr_eq_ok, expectBstr_eq_ok,
    expectUint_eq_ok, expectAgentId_eq_ok, Except.ok.injEq, TrustSignature.mk.injEq]
  constructor
  · rintro ⟨_, type, _, bySigner, _, forAgent, _, key, level, given, _, validUntil, _, signed, rfl, rfl, rfl, rfl,
      narrowed, rfl, rfl⟩
    exact ⟨type, bySigner, forAgent, key, ⟨level, given, narrowed⟩, validUntil, signed⟩
  · rintro ⟨type, bySigner, forAgent, key, ⟨level, given, narrowed⟩, validUntil, signed⟩
    exact ⟨_, type, _, bySigner, _, forAgent, _, key, level, given, _, validUntil, _, signed, rfl, rfl, rfl, rfl,
      narrowed, rfl, rfl⟩

private theorem carries_iff :
    Carries element sig ↔ TrustSignature.fromCbor element = .ok sig ∧ ByteLevel element := by
  constructor
  · intro carries
    obtain ⟨level, given, same⟩ := carries.trustLevel
    have narrowed : level.toUInt8 = sig.trustLevel := by
      rw [← UInt8.toNat_inj, UInt64.toNat_toUInt8, same]
      exact Nat.mod_eq_of_lt sig.trustLevel.toNat_lt
    refine ⟨fromCbor_eq_ok.mpr ⟨carries.sigType, carries.signerAgentId, carries.signedAgentId,
      carries.signedPublicKey, ⟨level, given, narrowed⟩, carries.expiry, carries.signature⟩, ?_⟩
    intro other found
    cases given.symm.trans found
    rw [same]
    exact sig.trustLevel.toNat_lt
  · rintro ⟨read, small⟩
    obtain ⟨type, bySigner, forAgent, key, ⟨level, given, narrowed⟩, validUntil, signed⟩ :=
      fromCbor_eq_ok.mp read
    refine ⟨type, bySigner, forAgent, key, ⟨level, given, ?_⟩, validUntil, signed⟩
    rw [← narrowed, UInt64.toNat_toUInt8, Nat.mod_eq_of_lt (small level given)]

end Reading

namespace WebOfTrust

variable {web : WebOfTrust}

section

variable (web : WebOfTrust) (owner : Option AgentId) (sig : TrustSignature) (sigs : List TrustSignature)
  (signer : AgentId)

theorem signaturesBy_addTrustSignature : (web.addTrustSignature sig).signaturesBy signer =
      web.signaturesBy signer ++ [sig].filter (·.signerAgentId = signer) := by
  rw [signaturesBy, addTrustSignature, lookup_insert_ite]
  split <;> grind [signaturesBy]

theorem signaturesBy_addAll : (sigs.foldl addTrustSignature web).signaturesBy signer =
      web.signaturesBy signer ++ sigs.filter (·.signerAgentId = signer) := by
  induction sigs generalizing web with
  | nil => simp
  | cons sig sigs ih =>
    rw [foldl_cons, ih, signaturesBy_addTrustSignature, append_assoc, ← filter_append,
      singleton_append]

@[simp] theorem ownAgentId_addAll : (sigs.foldl addTrustSignature web).ownAgentId = web.ownAgentId := by
  induction sigs generalizing web with
  | nil => rfl
  | cons sig sigs ih => exact ih (web.addTrustSignature sig)

theorem addAll_ne : (sig :: sigs).foldl addTrustSignature web ≠ web := by
  intro same
  have listed := signaturesBy_addAll web (sig :: sigs) sig.signerAgentId
  rw [same, self_eq_append_right, filter_eq_nil_iff] at listed
  exact listed sig mem_cons_self (by simp)

@[simp] theorem signaturesBy_adoptOwner : (web.adoptOwner owner).signaturesBy signer = web.signaturesBy signer := by
  cases owner <;> rfl

@[simp] theorem ownAgentId_adoptOwner : (web.adoptOwner owner).ownAgentId = owner.or web.ownAgentId := by
  cases owner <;> rfl

end

theorem importSignatures_append
    (read : List.Forall₂ (fun element sig => TrustSignature.fromCbor element = .ok sig) before sigs)
    (rest : List Value) (web : WebOfTrust) :
    importSignatures (before ++ rest) web = importSignatures rest (sigs.foldl addTrustSignature web) := by
  induction read generalizing web with
  | nil => rfl
  | cons here _ ih =>
    rw [cons_append, importSignatures, here]
    exact ih _

theorem importTrust_readable (web : WebOfTrust) (decoded : decode data = .ok (val, consumed))
    (read : List.Forall₂ (fun element sig => TrustSignature.fromCbor element = .ok sig)
      (documentSignatures val) sigs) :
    web.importTrust data = (.ok (), (sigs.foldl addTrustSignature web).adoptOwner (documentOwner val)) := by
  have run := importSignatures_append read [] web
  rw [append_nil] at run
  simp only [importTrust, decoded, run, importSignatures]

theorem importTrust_unreadable (web : WebOfTrust) (decoded : decode data = .ok (val, consumed))
    (split : documentSignatures val = before ++ bad :: after)
    (read : List.Forall₂ (fun element sig => TrustSignature.fromCbor element = .ok sig) before sigs)
    (failed : TrustSignature.fromCbor bad = .error error) :
    web.importTrust data = (.error error, sigs.foldl addTrustSignature web) := by
  have run := importSignatures_append read (bad :: after) web
  rw [importSignatures, failed] at run
  simp only [importTrust, decoded, split, run]

/-- The import fails without effect, or keeps the own agent and all signatures and adds those of the
document. -/
structure ImportMerges (web : WebOfTrust) (data : List UInt8) : Prop where
  failed : ∀ error, (web.importTrust data).1 = .error error → (web.importTrust data).2 = web
  own : (web.importTrust data).1 = .ok () → web.ownAgentId ≠ none →
    (web.importTrust data).2.ownAgentId = web.ownAgentId
  kept : (web.importTrust data).1 = .ok () → ∀ signer, ∀ sig ∈ web.signaturesBy signer,
    sig ∈ (web.importTrust data).2.signaturesBy signer
  added : (web.importTrust data).1 = .ok () → ∃ val consumed sigs,
    decode data = .ok (val, consumed) ∧ List.Forall₂ Carries (documentSignatures val) sigs ∧
    ∀ signer, (web.importTrust data).2.signaturesBy signer =
      web.signaturesBy signer ++ sigs.filter (·.signerAgentId = signer)

/-- The first signature is unreadable already, or all are readable with levels that fit a byte, and
no other owner is named. -/
inductive DocumentFits (web : WebOfTrust) (val : Value) : Prop where
  | refused (starts : documentSignatures val = first :: rest)
      (unreadable : TrustSignature.fromCbor first = .error error)
  | merged (carried : ∀ element ∈ documentSignatures val, ∃ sig, Carries element sig)
      (owner : ∀ own named, web.ownAgentId = some own → documentOwner val = some named → named = own)

theorem DocumentFits.importMerges (decoded : decode data = .ok (val, consumed))
    (fits : web.DocumentFits val) : web.ImportMerges data := by
  cases fits with
  | refused starts unreadable =>
    have run := importTrust_unreadable web decoded starts .nil unreadable
    constructor <;> simp [run]
  | merged carried owner =>
    obtain ⟨sigs, carried⟩ := exists_forall₂_iff.mpr carried
    have run := importTrust_readable web decoded
      (carried.imp fun _ _ carries => (carries_iff.mp carries).1)
    constructor
    · simp [run]
    · intro _ set
      obtain ⟨own, isOwn⟩ := Option.ne_none_iff_exists'.mp set
      cases named : documentOwner val with
      | none => simp [run, named]
      | some agent => simp [run, named, isOwn, owner own agent isOwn named]
    · intro _ signer sig mem
      simp [run, signaturesBy_addAll, mem]
    · intro _
      exact ⟨val, consumed, sigs, decoded, carried, by simp [run, signaturesBy_addAll]⟩

theorem ImportMerges.documentFits (decoded : decode data = .ok (val, consumed))
    (merges : web.ImportMerges data) : web.DocumentFits val := by
  rcases forall₂_ok_or_first_error TrustSignature.fromCbor (documentSignatures val) with
    ⟨sigs, read⟩ | ⟨before, bad, after, sigs, error, split, read, failed⟩
  · have run := importTrust_readable web decoded read
    have succeeded : (web.importTrust data).1 = .ok () := by rw [run]
    refine .merged ?_ ?_
    · obtain ⟨_, _, _, same, carried, -⟩ := merges.added succeeded
      cases decoded.symm.trans same
      exact exists_forall₂_iff.mp ⟨_, carried⟩
    · intro own named isOwn isNamed
      have keeps := merges.own succeeded (by simp [isOwn])
      simpa [run, isNamed, isOwn] using keeps
  · have run := importTrust_unreadable web decoded split read failed
    cases read with
    | nil => exact .refused split failed
    | cons => exact absurd (by simpa [run] using merges.failed error) (addAll_ne web _ _)

section

variable (web : WebOfTrust) (pass : IterationOrder AgentId (List TrustSignature))

theorem toCbor_embeds : (web.toCbor pass).WellFormed ∧ (web.toCbor pass).height ≤ maxDecodeDepth := by
  have signature (sig : TrustSignature) : sig.toCbor.WellFormed ∧ sig.toCbor.height ≤ 2 := by
    constructor
    · refine .intMap (by simp) ?_
      simp only [forall_mem_cons]
      exact ⟨.textString, .byteString, .byteString, .byteString, .unsigned, .unsigned, .byteString, nofun⟩
    · apply height_intMap_le
      simp [Value.height]
  constructor
  · refine .intMap (by simp) ?_
    simp only [forall_mem_cons]
    refine ⟨.array (forall_mem_map.mpr fun sig _ => (signature sig).1), ?_, nofun⟩
    cases web.ownAgentId with
    | none => exact .null
    | some own => exact .byteString
  · have sigs : (Value.array ((web.allSignatures pass).map TrustSignature.toCbor)).height ≤ 3 :=
      height_array_le (forall_mem_map.mpr fun sig _ => (signature sig).2)
    have whole : (web.toCbor pass).height ≤ 4 := by
      apply height_intMap_le
      simp only [forall_mem_cons]
      refine ⟨sigs, ?_, nofun⟩
      cases web.ownAgentId <;> simp [Value.height]
    exact Nat.le_trans whole (by decide)

theorem documentSignatures_norm :
    documentSignatures (web.toCbor pass).norm = (web.allSignatures pass).map fun sig => sig.toCbor.norm := by
  simp [documentSignatures, toCbor, Function.comp_def]

theorem documentOwner_norm : documentOwner (web.toCbor pass).norm = web.ownAgentId := by
  cases own : web.ownAgentId with
  | none => simp [documentOwner, toCbor, own]
  | some agentId => simp [documentOwner, toCbor, own, agentId.2]

theorem trustLevel_congr {web other : WebOfTrust} (own : web.ownAgentId = other.ownAgentId)
    (same : ∀ signer, web.signaturesBy signer = other.signaturesBy signer) (target : AgentId)
    (now : UInt64) : web.trustLevel target now = other.trustLevel target now := by
  apply UInt8.le_antisymm
  · exact trustLevel_le_of_vouches own fun signer _ _ vouches =>
      vouches_iff.mpr (same signer ▸ vouches_iff.mp vouches)
  · exact trustLevel_le_of_vouches own.symm fun signer _ _ vouches =>
      vouches_iff.mpr (same signer ▸ vouches_iff.mp vouches)

theorem importTrust_exported (bounded : (encodeValue (web.toCbor pass)).length ≤ isizeMax) :
    (new.importTrust (encodeValue (web.toCbor pass))).1 = .ok () ∧ ∀ target now,
      (new.importTrust (encodeValue (web.toCbor pass))).2.trustLevel target now = web.trustLevel target now := by
  obtain ⟨wellFormed, shallow⟩ := web.toCbor_embeds pass
  have decoded := decode_encodeValue [] wellFormed shallow (by simpa using bounded)
  rw [append_nil] at decoded
  have read : List.Forall₂ (fun element sig => TrustSignature.fromCbor element = .ok sig)
      (documentSignatures (web.toCbor pass).norm) (web.allSignatures pass) := by
    rw [documentSignatures_norm, forall₂_map_left_iff]
    exact forall₂_same.mpr fun sig _ => fromCbor_eq_ok.mpr (by simp [TrustSignature.toCbor])
  rw [importTrust_readable new decoded read, documentOwner_norm]
  refine ⟨rfl, trustLevel_congr ?_ ?_⟩
  · rw [ownAgentId_adoptOwner, ownAgentId_addAll]
    exact Option.or_none
  · intro signer
    rw [signaturesBy_adoptOwner, signaturesBy_addAll]
    exact filter_iterate_groups web.keyed pass signer

end

/-- An import merges exactly the documents that fit, and an export always comes back. -/
theorem importTrust_merges_iff (web : WebOfTrust) (data : List UInt8)
    (pass : IterationOrder AgentId (List TrustSignature)) :
    (ImportMerges web data ↔ ∀ val consumed, decode data = .ok (val, consumed) → DocumentFits web val) ∧
    ∃ bytes, exportTrust web pass = .ok bytes ∧ (bytes.length ≤ isizeMax →
      (new.importTrust bytes).1 = .ok () ∧ ∀ target now,
        (new.importTrust bytes).2.trustLevel target now = web.trustLevel target now) := by
  refine ⟨⟨?_, ?_⟩, encodeValue (web.toCbor pass), rfl, web.importTrust_exported pass⟩
  · intro merges val consumed decoded
    exact merges.documentFits decoded
  · intro fits
    cases decoded : decode data with
    | error error =>
      have run : web.importTrust data = (.error (.cbor error), web) := by simp only [importTrust, decoded]
      constructor <;> simp [run]
    | ok read => exact (fits read.1 read.2 decoded).importMerges decoded

private def vouch (level : UInt8) : TrustSignature :=
  ⟨wotSigTypeV1, filled 1, filled 2, [], level, 2000, []⟩

/-- The map of `vouch`, with a level that needs not fit a byte. -/
private def vouchValue (level : UInt64) : Value :=
  .intMap [(1, .textString wotSigTypeV1), (2, .byteString (filled 1).1),
    (3, .byteString (filled 2).1), (4, .byteString []), (5, .unsigned level), (6, .unsigned 2000),
    (7, .byteString [])]

/-- A document with one signature is merged, and the web that results comes back from its export. -/
theorem importTrust_merges_vouch :
    let web := new.setOwnAgentId (filled 1)
    let data := encodeValue (.intMap [(1, .array [vouchValue 1])])
    web.ImportMerges data ∧ ∃ bytes, exportTrust (web.importTrust data).2 .inOrder = .ok bytes ∧
      bytes.length ≤ isizeMax ∧ ∀ target now,
        (new.importTrust bytes).2.trustLevel target now =
          (web.importTrust data).2.trustLevel target now := by
  intro web data
  constructor
  · apply (importTrust_merges_iff web data .inOrder).1.mpr
    intro val consumed decoded
    have read : decode data = .ok (.intMap [(1, .array [vouchValue 1])], data.length) := by
      decide +kernel
    cases read.symm.trans decoded
    refine .merged ?_ (by simp [documentOwner, intMapGet])
    intro element mem
    cases mem_singleton.mp mem
    exact ⟨vouch 1, rfl, rfl, rfl, rfl, ⟨1, rfl, rfl⟩, rfl, rfl⟩
  · obtain ⟨bytes, exported, back⟩ := (importTrust_merges_iff (web.importTrust data).2 data .inOrder).2
    have bounded : bytes.length ≤ isizeMax := by
      cases exported
      decide +kernel
    exact ⟨bytes, exported, bounded, (back bounded).2⟩

/-- A signature before an unreadable one is kept, a document replaces the owner of a web, and the
level 258 becomes 2. -/
theorem importTrust_beyond_merging :
    let broken := encodeValue (.intMap [(1, .array [vouchValue 1, .null])])
    let owned := encodeValue (.intMap [(2, .byteString (filled 9).1)])
    let high := encodeValue (.intMap [(1, .array [vouchValue 258])])
    let web := new.setOwnAgentId (filled 1)
    ((web.importTrust broken).1 = .error (.missingField "type") ∧ web.signaturesBy (filled 1) = [] ∧
      (web.importTrust broken).2.signaturesBy (filled 1) = [vouch 1]) ∧
    ((web.importTrust owned).1 = .ok () ∧ (web.importTrust owned).2.ownAgentId = some (filled 9)) ∧
    (web.importTrust high).1 = .ok () ∧
      (web.importTrust high).2.signaturesBy (filled 1) = [vouch 2] := by
  decide +kernel

end WebOfTrust

end Aafp.Identity
