import Aafp.Identity.UcanChain

/-! What an honest delegation gives. -/
namespace Aafp.Identity

open Foundation Cbor Crypto

namespace Ucan

def delegation (prims : Primitives) (token : Ucan) (keypair : AgentKeypair) (audience : AgentId)
    (capabilities : List Capability) (expiresAt notBefore : UInt64) : Ucan where
  header := ⟨ucanAlg, ucanTyp, agentIdToHex (deriveAgentId prims keypair.publicKey)⟩
  payload := ⟨agentIdToHex (deriveAgentId prims keypair.publicKey), agentIdToHex audience, expiresAt,
    notBefore, [token], capabilities, []⟩
  signature := []

theorem delegate_eq_ok : token.delegate prims keypair audience capabilities expiresAt notBefore coins = .ok child ↔
      (∀ cap ∈ capabilities, ∃ granted ∈ token.payload.att, cap.isSubsetOf granted = true) ∧
        sign prims keypair coins (delegation prims token keypair audience capabilities expiresAt notBefore) =
          .ok child := by
  simp only [delegate, unit_bind_eq_ok, mapError_eq_ok, requireCovered_eq_ok, delegation]

theorem payload_of_sign (made : sign prims keypair coins token = .ok signed) :
    signed.header = token.header ∧ signed.payload = token.payload := by
  obtain ⟨-, -, rfl⟩ := sign_eq_ok.mp made
  exact ⟨rfl, rfl⟩

/-- An agent to whom a token was granted delegates it: it holds the key that its id resolves to. -/
structure Entitled (prims : Primitives) (resolver : Resolver) (token : Ucan) (keypair : AgentKeypair) : Prop where
  works : Works prims keypair
  audience : token.payload.aud = agentIdToHex (deriveAgentId prims keypair.publicKey)
  resolved : resolver (agentIdToHex (deriveAgentId prims keypair.publicKey)) = some keypair.publicKey

def InAllWindows (now : UInt64) (token : Ucan) : Prop :=
  ∀ ancestor, InProofTree ancestor token → ancestor.payload.nbf ≤ now ∧ now < ancestor.payload.exp

/-- Chains of delegations along matching audiences, from a token that validates in its own windows. -/
inductive Delegated (prims : Primitives) (resolver : Resolver) : Ucan → Prop where
  | root (valid : ∀ now, InAllWindows now token → token.validateChain prims now resolver = .ok ()) :
      Delegated prims resolver token
  | delegate (parent : Delegated prims resolver token) (entitled : Entitled prims resolver token keypair)
      (made : token.delegate prims keypair audience capabilities expiresAt notBefore coins = .ok child) :
      Delegated prims resolver child

section delegation

variable {prims : Primitives} {resolver : Resolver} {token child : Ucan} {keypair : AgentKeypair} {audience : AgentId}
  {capabilities : List Capability} {expiresAt notBefore now : UInt64} {coins : List UInt8}

theorem Entitled.child_valid (entitled : Entitled prims resolver token keypair)
    (valid : token.validateChain prims now resolver = .ok ()) (started : notBefore ≤ now) (unexpired : now < expiresAt)
    (made : token.delegate prims keypair audience capabilities expiresAt notBefore coins = .ok child) :
    child.validateChain prims now resolver = .ok () := by
  obtain ⟨covered, signed⟩ := delegate_eq_ok.mp made
  have verified := verify_sign entitled.works signed rfl started unexpired
  obtain ⟨header, payload⟩ := payload_of_sign signed
  rw [validateChain_eq_ok, header, payload]
  refine ⟨⟨keypair.publicKey, entitled.resolved, verified⟩, ?_⟩
  -- the parent is the only proof
  intro parent proof
  rw [List.mem_singleton.mp proof]
  exact ⟨checkLink_eq_ok.mpr ⟨entitled.audience, covered⟩, valid⟩

theorem Delegated.of_sign (works : Works prims keypair)
    (resolved : resolver token.header.kid = some keypair.publicKey) (alg : token.header.alg = ucanAlg)
    (unproved : token.payload.prf = []) (made : sign prims keypair coins token = .ok signed) :
    Delegated prims resolver signed := by
  apply Delegated.root
  intro now inside
  obtain ⟨started, unexpired⟩ := inside signed .self
  obtain ⟨header, payload⟩ := payload_of_sign made
  rw [payload] at started unexpired
  rw [validateChain_eq_ok, payload, header, unproved]
  exact ⟨⟨keypair.publicKey, resolved, verify_sign works made alg started unexpired⟩, by simp⟩

theorem Delegated.valid (delegated : Delegated prims resolver token) (inside : InAllWindows now token) :
    token.validateChain prims now resolver = .ok () := by
  induction delegated with
  | root valid => exact valid now inside
  | delegate parent entitled made ih =>
    obtain ⟨-, payload⟩ := payload_of_sign (delegate_eq_ok.mp made).2
    obtain ⟨started, unexpired⟩ := inside _ .self
    rw [payload] at started unexpired
    refine entitled.child_valid (ih fun ancestor within => inside ancestor (.above ?_ within)) started unexpired made
    rw [payload]
    exact List.mem_singleton.mpr rfl

end delegation

/-- A delegation by the audience of a validated token validates in its own window, and so does a
chain of them. -/
theorem delegate_validates (prims : Primitives) (resolver : Resolver) :
    (∀ (parent child : Ucan) (keypair : AgentKeypair) (now : UInt64) (audience : AgentId)
      (capabilities : List Capability) (expiresAt notBefore : UInt64) (coins : List UInt8), Works prims keypair →
      parent.validateChain prims now resolver = .ok () →
      parent.payload.aud = agentIdToHex (deriveAgentId prims keypair.publicKey) →
      resolver (agentIdToHex (deriveAgentId prims keypair.publicKey)) = some keypair.publicKey →
      notBefore ≤ now → now < expiresAt →
      parent.delegate prims keypair audience capabilities expiresAt notBefore coins = .ok child →
      child.validateChain prims now resolver = .ok ()) ∧
    ∀ (token : Ucan) (now : UInt64), Delegated prims resolver token → InAllWindows now token →
      token.validateChain prims now resolver = .ok () := by
  constructor
  · intro parent child keypair now audience capabilities expiresAt notBefore coins works valid granted resolved started
      unexpired made
    exact Entitled.child_valid ⟨works, granted, resolved⟩ valid started unexpired made
  · intro token now delegated inside
    exact delegated.valid inside

theorem delegate_granted : granted.delegate keepingStart (standInKeys 2)
    (deriveAgentId keepingStart (standInKeys 3).publicKey) [⟨"compute.inference", "invoke", ∅⟩] 100 0 [] =
      .ok passedOn := by
  refine delegate_eq_ok.mpr ⟨?_, sign_unsigned 2 (kidOf 2) (kidOf 3) [granted] "compute.inference"⟩
  decide +kernel

theorem passedOn_inAllWindows : InAllWindows 99 passedOn := by
  intro ancestor within
  cases within with
  | self => exact ⟨by decide, by decide⟩
  | above proof further =>
    cases List.mem_singleton.mp proof
    cases further with
    | self => exact ⟨by decide, by decide⟩
    | above proof => cases proof

/-- The second agent delegates what the first granted to it. -/
theorem delegate_validates_granted : passedOn.validateChain keepingStart 50 resolveSample = .ok () ∧
      passedOn.validateChain keepingStart 99 resolveSample = .ok () := by
  have works (seed : UInt8) : Works keepingStart (standInKeys seed) :=
    ⟨(standInKeys_work seed).publicKey, (standInKeys_work seed).secretKey, (standInKeys_work seed).verifies⟩
  have resolved : resolveSample (kidOf 2) = some (standInKeys 2).publicKey := by decide +kernel
  have root : Delegated keepingStart resolveSample granted :=
    .of_sign (works 1) (by decide +kernel) rfl rfl (sign_unsigned 1 (kidOf 1) (kidOf 2) [] "compute")
  refine ⟨?_, ?_⟩
  · exact (delegate_validates keepingStart resolveSample).1 granted passedOn (standInKeys 2) 50 _ _ 100 0 [] (works 2)
      (by decide +kernel) rfl resolved (by decide) (by decide) delegate_granted
  · exact (delegate_validates keepingStart resolveSample).2 passedOn 99
      (.delegate root ⟨works 2, rfl, resolved⟩ delegate_granted) passedOn_inAllWindows

end Ucan

end Aafp.Identity
