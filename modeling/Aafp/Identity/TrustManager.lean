import Aafp.Identity.CaCertificate
import Aafp.Identity.KeyDirectory
import Aafp.Identity.WebOfTrust

/-! The trust manager, which asks one source after another whether a peer is trusted. -/
namespace Aafp.Identity

open Foundation Crypto

inductive TrustSource where
  | direct
  | webOfTrust
  | certificateAuthority
  | directory
  | tofu
deriving DecidableEq

inductive TrustSuggestion where
  | tofu
  | queryDirectory
  | requestWotSignature
  | requestCaCert
deriving DecidableEq

inductive TrustResult where
  | trusted (source : TrustSource) (level : UInt8)
  | untrusted (reason : String)
  | revoked (reason : String)
  | unknown (suggestion : TrustSuggestion)
deriving DecidableEq

inductive TrustPolicy where
  | strict
  | cautious
  | permissive

structure TrustManager where
  ownAgentId : AgentId
  directCache : AList fun _ : AgentId => List UInt8
  wot : WebOfTrust
  caVerifier : CaVerifier
  directory : Option KeyDirectory
  revocationStore : RevocationStore
  policy : TrustPolicy

namespace TrustManager

def new (ownAgentId : AgentId) : TrustManager :=
  { ownAgentId, directCache := ∅, wot := WebOfTrust.new.setOwnAgentId ownAgentId, caVerifier := .new
    directory := none, revocationStore := .new, policy := .cautious }

def addTrustedCa (manager : TrustManager) (publicKey : List UInt8) : TrustManager :=
  { manager with caVerifier := manager.caVerifier.addTrustedRoot publicKey }

section Verification

variable (manager : TrustManager) (prims : Primitives) (agentId : AgentId) (publicKey : List UInt8)
  (caCert : Option CaCertificate) (now : UInt64)

def revocationVerdict : Option TrustResult :=
  if manager.revocationStore.isRevoked agentId then some (.revoked "agent_id is in revocation store")
  else none

def directVerdict : Option TrustResult :=
  match manager.directCache.lookup agentId with
  | some cachedPk =>
    if cachedPk = publicKey then some (.trusted .direct trustLevelUltimate)
    else some (.untrusted "public key mismatch with cached direct trust")
  | none => none

/-- Neither the presented id nor the presented key is compared with those of the certificate. -/
def certificateVerdict : Option TrustResult :=
  match caCert with
  | some cert =>
    match manager.caVerifier.verifyCertificate prims cert now (some manager.revocationStore) with
    | .ok () => some (.trusted .certificateAuthority trustLevelFull)
    | .error _ => none
  | none => none

/-- Step 4: the presented key is not looked at. -/
def wotVerdict : Option TrustResult :=
  let wotLevel := manager.wot.trustLevel agentId now
  if wotLevel ≥ trustLevelMarginal then some (.trusted .webOfTrust wotLevel) else none

def directoryVerdict : Option TrustResult :=
  match manager.directory.bind fun directory => directory.lookup agentId with
  | some record =>
    if record.publicKey = publicKey then
      match record.verify prims now with
      | .ok () => some (.trusted .directory trustLevelFull)
      | .error _ => none
    else some (.untrusted "public key mismatch with directory record")
  | none => none

def suggestion : TrustSuggestion :=
  if manager.directory.isSome then .queryDirectory
  else if !(manager.wot.allSignatures .inOrder).isEmpty then .requestWotSignature
  else .tofu

/-- Verify a peer (RFC 0011 §8.5). -/
def verifyPeer : TrustResult :=
  ((manager.revocationVerdict agentId).or <| (manager.directVerdict agentId publicKey).or <|
    (manager.certificateVerdict prims caCert now).or <| (manager.wotVerdict agentId now).or <|
    manager.directoryVerdict prims agentId publicKey now).getD (.unknown manager.suggestion)

structure Unsettled : Prop where
  unrevoked : manager.revocationStore.isRevoked agentId = false
  uncached : manager.directCache.lookup agentId = none

def Certified : Prop :=
  ∃ cert, caCert = some cert ∧
    manager.caVerifier.verifyCertificate prims cert now (some manager.revocationStore) = .ok ()

/-- The record that the directory holds for the agent has the key and verifies. -/
def Published : Prop :=
  ∃ directory record, manager.directory = some directory ∧ directory.lookup agentId = some record ∧
    record.publicKey = publicKey ∧ record.verify prims now = .ok ()

inductive Grounds : TrustSource → UInt8 → Prop where
  | direct (unrevoked : manager.revocationStore.isRevoked agentId = false)
      (cached : manager.directCache.lookup agentId = some publicKey) : Grounds .direct trustLevelUltimate
  | certificate (unsettled : manager.Unsettled agentId) (certified : manager.Certified prims caCert now) :
      Grounds .certificateAuthority trustLevelFull
  | web (unsettled : manager.Unsettled agentId) (uncertified : ¬ manager.Certified prims caCert now)
      (trusted : trustLevelMarginal ≤ manager.wot.trustLevel agentId now) :
      Grounds .webOfTrust (manager.wot.trustLevel agentId now)
  | directory (unsettled : manager.Unsettled agentId) (uncertified : ¬ manager.Certified prims caCert now)
      (untrusted : ¬ trustLevelMarginal ≤ manager.wot.trustLevel agentId now)
      (published : manager.Published prims agentId publicKey now) : Grounds .directory trustLevelFull

variable {manager prims agentId publicKey caCert now}

private theorem revocationVerdict_spec :
    (manager.revocationVerdict agentId = none ↔ manager.revocationStore.isRevoked agentId = false) ∧
      ∀ source level, manager.revocationVerdict agentId ≠ some (.trusted source level) := by
  simp [revocationVerdict]

private theorem directVerdict_spec :
    (manager.directVerdict agentId publicKey = none ↔ manager.directCache.lookup agentId = none) ∧
      ∀ source level, (manager.directVerdict agentId publicKey = some (.trusted source level) ↔
        manager.directCache.lookup agentId = some publicKey ∧ .direct = source ∧ trustLevelUltimate = level) := by
  unfold directVerdict
  cases manager.directCache.lookup agentId with
  | none => simp
  | some cachedPk =>
    by_cases same : cachedPk = publicKey
    · simp [same]
    · simp [same]

private theorem certificateVerdict_spec :
    (manager.certificateVerdict prims caCert now = none ↔ ¬ manager.Certified prims caCert now) ∧
      ∀ source level, (manager.certificateVerdict prims caCert now = some (.trusted source level) ↔
        manager.Certified prims caCert now ∧ .certificateAuthority = source ∧ trustLevelFull = level) := by
  unfold certificateVerdict Certified
  cases caCert with
  | none => simp
  | some cert =>
    cases verified : manager.caVerifier.verifyCertificate prims cert now (some manager.revocationStore) with
    | error error => simp [verified]
    | ok => simp [verified]

private theorem wotVerdict_spec : (manager.wotVerdict agentId now = none ↔
      ¬ trustLevelMarginal ≤ manager.wot.trustLevel agentId now) ∧
    ∀ source level, (manager.wotVerdict agentId now = some (.trusted source level) ↔
      trustLevelMarginal ≤ manager.wot.trustLevel agentId now ∧ .webOfTrust = source ∧
        manager.wot.trustLevel agentId now = level) := by
  simp [wotVerdict]

private theorem directoryVerdict_spec :
    manager.directoryVerdict prims agentId publicKey now = some (.trusted source level) ↔
      manager.Published prims agentId publicKey now ∧ .directory = source ∧ trustLevelFull = level := by
  unfold directoryVerdict Published
  cases manager.directory with
  | none => simp
  | some directory =>
    cases found : directory.lookup agentId with
    | none => simp [found]
    | some record =>
      by_cases same : record.publicKey = publicKey
      · cases verified : record.verify prims now with
        | error error => simp [found, same, verified]
        | ok => simp [found, same, verified]
      · simp [found, same]

private theorem getD_unknown_eq_trusted {verdict : Option TrustResult} :
    verdict.getD (.unknown next) = .trusted source level ↔ verdict = some (.trusted source level) := by
  cases verdict <;> simp

theorem verifyPeer_eq_trusted_iff : manager.verifyPeer prims agentId publicKey caCert now = .trusted source level ↔
      manager.Grounds prims agentId publicKey caCert now source level := by
  simp only [verifyPeer, getD_unknown_eq_trusted, Option.or_eq_some_iff, false_or,
    revocationVerdict_spec, directVerdict_spec, certificateVerdict_spec, wotVerdict_spec, directoryVerdict_spec]
  constructor
  · intro ⟨unrevoked, verdict⟩
    rcases verdict with ⟨cached, rfl, rfl⟩ | ⟨uncached, verdict⟩
    · exact .direct unrevoked cached
    · have unsettled : manager.Unsettled agentId := ⟨unrevoked, uncached⟩
      rcases verdict with ⟨certified, rfl, rfl⟩ | ⟨uncertified, verdict⟩
      · exact .certificate unsettled certified
      · rcases verdict with ⟨trusted, rfl, rfl⟩ | ⟨untrusted, published, rfl, rfl⟩
        · exact .web unsettled uncertified trusted
        · exact .directory unsettled uncertified untrusted published
  · intro grounds
    cases grounds with
    | direct unrevoked cached => exact ⟨unrevoked, .inl ⟨cached, rfl, rfl⟩⟩
    | certificate unsettled certified =>
      exact ⟨unsettled.unrevoked, .inr ⟨unsettled.uncached, .inl ⟨certified, rfl, rfl⟩⟩⟩
    | web unsettled uncertified trusted =>
      refine ⟨unsettled.unrevoked, .inr ⟨unsettled.uncached, .inr ⟨uncertified, .inl ?_⟩⟩⟩
      exact ⟨trusted, rfl, rfl⟩
    | directory unsettled uncertified untrusted published =>
      refine ⟨unsettled.unrevoked, .inr ⟨unsettled.uncached, .inr ⟨uncertified, .inr ?_⟩⟩⟩
      exact ⟨untrusted, published, rfl, rfl⟩

variable (manager prims agentId publicKey caCert now)

def SignedKey : Prop :=
  ∃ sig ∈ manager.wot.allSignatures .inOrder, sig.isExpired now = false ∧
    sig.signedAgentId = agentId ∧ sig.signedPublicKey = publicKey

/-- A source vouches for the presented pair of an agent and a key. -/
def VouchesFor : TrustSource → Prop
  | .direct => manager.directCache.lookup agentId = some publicKey
  | .certificateAuthority =>
    ∃ cert, caCert = some cert ∧ cert.agentId = agentId ∧ cert.publicKey = publicKey
  | .webOfTrust => manager.SignedKey agentId publicKey now ∨ manager.wot.ownAgentId = some agentId
  | .directory => manager.Published prims agentId publicKey now
  | .tofu => False

/-- If a certificate decides, it names the presented pair, and if the web of trust
decides about another agent, a signature does. -/
structure DecidersNameKey : Prop where
  certificate : manager.Unsettled agentId → ∀ cert, caCert = some cert →
    manager.caVerifier.verifyCertificate prims cert now (some manager.revocationStore) = .ok () →
    cert.agentId = agentId ∧ cert.publicKey = publicKey
  web : manager.Unsettled agentId → ¬ manager.Certified prims caCert now →
    trustLevelMarginal ≤ manager.wot.trustLevel agentId now → manager.wot.ownAgentId ≠ some agentId →
    manager.SignedKey agentId publicKey now

/-- A trusted verdict is about the presented key exactly if the certificate or the web of
trust that decides is. -/
theorem trusted_about_presented_key_iff :
    (∀ source level, manager.verifyPeer prims agentId publicKey caCert now = .trusted source level →
      manager.VouchesFor prims agentId publicKey caCert now source) ↔
    manager.DecidersNameKey prims agentId publicKey caCert now := by
  simp only [verifyPeer_eq_trusted_iff]
  constructor
  · intro vouches
    constructor
    · intro unsettled cert given verified
      obtain ⟨other, same, named⟩ := vouches _ _ (.certificate unsettled ⟨cert, given, verified⟩)
      cases given.symm.trans same
      exact named
    · intro unsettled uncertified trusted other
      rcases vouches _ _ (.web unsettled uncertified trusted) with signed | own
      · exact signed
      · exact absurd own other
  · intro names source level grounds
    cases grounds with
    | direct unrevoked cached => exact cached
    | certificate unsettled certified =>
      obtain ⟨cert, given, verified⟩ := certified
      exact ⟨cert, given, names.certificate unsettled cert given verified⟩
    | web unsettled uncertified trusted =>
      by_cases own : manager.wot.ownAgentId = some agentId
      · exact .inr own
      · exact .inl (names.web unsettled uncertified trusted own)
    | directory unsettled uncertified untrusted published => exact published

end Verification

/-- The certificate of the agent with the second key, by the authority with the first. -/
def sampleCertificate : CaCertificate :=
  .issue .standIn (deriveAgentId .standIn (standInKeys 2).publicKey) (standInKeys 2).publicKey "Test CA"
    (standInKeys 1).publicKey (standInKeys 1).secretKey [] 1 0 2000 []

def certifyingManager : TrustManager :=
  (TrustManager.new (Bytes32.filled 9)).addTrustedCa (standInKeys 1).publicKey

/-- Has signed the key `[3]` of agent 3. -/
def signingManager : TrustManager :=
  let manager := TrustManager.new (Bytes32.filled 9)
  let sig := TrustSignature.mk wotSigTypeV1 (Bytes32.filled 9) (Bytes32.filled 3) [3] trustLevelFull 2000 []
  { manager with wot := manager.wot.addTrustSignature sig }

/-- Agent 3 is trusted with the certificate of another agent, and with a key that is not
the signed one. -/
theorem trusted_with_another_key :
    (certifyingManager.verifyPeer .standIn (Bytes32.filled 3) [4] (some sampleCertificate) 1000 =
        .trusted .certificateAuthority trustLevelFull ∧
      ¬ certifyingManager.VouchesFor .standIn (Bytes32.filled 3) [4] (some sampleCertificate) 1000
        .certificateAuthority) ∧ (signingManager.verifyPeer .standIn (Bytes32.filled 3) [4] none 1000 =
        .trusted .webOfTrust trustLevelFull ∧
      ¬ signingManager.VouchesFor .standIn (Bytes32.filled 3) [4] none 1000 .webOfTrust) := by
  refine ⟨⟨?_, ?_⟩, ?_, ?_⟩
  · decide +kernel
  · intro ⟨cert, given, _, key⟩
    cases given
    have short : mlDsa65PubkeyLen = 1 := List.length_replicate.symm.trans (congrArg List.length key)
    exact absurd short (by decide)
  · decide
  · intro vouches
    rcases vouches with ⟨sig, stored, _, _, key⟩ | own
    · have keys : ∀ sig ∈ signingManager.wot.allSignatures .inOrder, sig.signedPublicKey ≠ [4] := by decide
      exact keys sig stored key
    · exact absurd own (by decide)

end TrustManager

end Aafp.Identity
