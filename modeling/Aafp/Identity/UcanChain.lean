import Mathlib.Order.UpperLower.Closure
import Aafp.Identity.Ucan

/-! What a validated proof tree guarantees. -/
namespace Aafp.Identity

open Foundation Cbor Crypto List

namespace Capability

theorem isSubsetOf_iff {cap parent : Capability} : cap.isSubsetOf parent = true ↔
    (cap.resource = parent.resource ∨ (parent.resource ++ ".").toList <+: cap.resource.toList) ∧
      cap.action = parent.action ∧
      ∀ key value, parent.caveats.lookup key = some value → cap.caveats.lookup key = some value := by
  have resource :
      (cap.resource == parent.resource || startsWith cap.resource (parent.resource ++ ".")) = true ↔
      cap.resource = parent.resource ∨ (parent.resource ++ ".").toList <+: cap.resource.toList := by
    simp [startsWith]
  have action : (cap.action == parent.action) = true ↔ cap.action = parent.action := beq_iff_eq
  have caveats : (parent.caveats.entries.all fun caveat =>
      cap.caveats.lookup caveat.1 == some caveat.2) = true ↔
      ∀ key value, parent.caveats.lookup key = some value → cap.caveats.lookup key = some value := by
    simp only [all_eq_true, beq_iff_eq]
    exact ⟨fun each key value found => each ⟨key, value⟩ (AList.mem_lookup_iff.mp found),
      fun each caveat mem => each caveat.1 caveat.2 (AList.mem_lookup_iff.mpr mem)⟩
  rw [← resource, ← action, ← caveats, isSubsetOf]
  cases cap.resource == parent.resource || startsWith cap.resource (parent.resource ++ ".") <;>
    cases cap.action == parent.action <;> simp

theorem isSubsetOf_refl (cap : Capability) : cap.isSubsetOf cap = true :=
  isSubsetOf_iff.mpr ⟨.inl rfl, rfl, fun _ _ found => found⟩

theorem isSubsetOf_trans {cap middle parent : Capability} (first : cap.isSubsetOf middle = true)
    (second : middle.isSubsetOf parent = true) : cap.isSubsetOf parent = true := by
  obtain ⟨resource, action, caveats⟩ := isSubsetOf_iff.mp first
  obtain ⟨resource', action', caveats'⟩ := isSubsetOf_iff.mp second
  refine isSubsetOf_iff.mpr ⟨?_, action.trans action', fun key value found =>
    caveats key value (caveats' key value found)⟩
  rcases resource with same | below
  · rwa [same]
  · rcases resource' with same | below'
    · exact .inr (same ▸ below)
    · -- the sub-resource's name goes on after the dot of its parent
      right
      have start : middle.resource.toList <+: (middle.resource ++ ".").toList := by
        rw [String.toList_append]
        exact prefix_append _ _
      exact below'.trans (start.trans below)

/-- Capabilities by what they permit. -/
instance : Preorder Capability where
  le cap parent := cap.isSubsetOf parent = true
  le_refl := isSubsetOf_refl
  le_trans _ _ _ := isSubsetOf_trans

end Capability

theorem requireCovered_eq_ok : requireCovered caps granted problem = .ok () ↔
    ∀ cap ∈ caps, ∃ parent ∈ granted, cap.isSubsetOf parent = true := by
  unfold requireCovered
  split
  next covered => simpa [find?_eq_none] using covered
  next cap uncovered =>
    have mem := mem_of_find?_eq_some uncovered
    have fails := find?_some uncovered
    simp only [reduceCtorEq, false_iff]
    intro covered
    simp at fails
    obtain ⟨parent, granted, subset⟩ := covered cap mem
    simp [fails parent granted] at subset

namespace Ucan

theorem verify_eq_ok {token : Ucan} : token.verify prims publicKey now = .ok () ↔
    token.header.alg = ucanAlg ∧ token.header.kid = agentIdToHex (deriveAgentId prims publicKey) ∧
      prims.isPublicKey publicKey ∧ token.signature.length = mlDsa65SignatureLen ∧
      prims.verify publicKey token.signingInput token.signature ∧
      now < token.payload.exp ∧ token.payload.nbf ≤ now := by
  simp [verify, unit_bind_eq_ok]

theorem checkLink_eq_ok : checkLink child parent = .ok () ↔ parent.aud = child.iss ∧
      ∀ cap ∈ child.att, ∃ granted ∈ parent.att, cap.isSubsetOf granted = true := by
  simp [checkLink, unit_bind_eq_ok, requireCovered_eq_ok]

theorem validateProofs_eq_ok : validateProofs prims now resolver child parents = .ok () ↔
      ∀ parent ∈ parents, checkLink child parent.payload = .ok () ∧
        parent.validateChain prims now resolver = .ok () := by
  induction parents with
  | nil => simp [validateProofs]
  | cons parent parents ih => simp [validateProofs, unit_bind_eq_ok, ih, validateChain, and_assoc]

theorem validateChain_eq_ok {token : Ucan} : token.validateChain prims now resolver = .ok () ↔
    (∃ publicKey, resolver token.header.kid = some publicKey ∧ token.verify prims publicKey now = .ok ()) ∧
      ∀ parent ∈ token.payload.prf, checkLink token.payload parent.payload = .ok () ∧
        parent.validateChain prims now resolver = .ok () := by
  rw [← validateProofs_eq_ok]
  obtain ⟨⟨alg, typ, kid⟩, ⟨iss, aud, exp, nbf, prf, att, fct⟩, signature⟩ := token
  simp only [validateChain, validateChainImpl]
  cases found : resolver kid with
  | none => simp
  | some publicKey => simp [unit_bind_eq_ok]

def authority (token : Ucan) : LowerSet Capability := lowerClosure { cap | cap ∈ token.payload.att }

theorem authority_le_iff {child parent : Ucan} : child.authority ≤ parent.authority ↔
    ∀ cap ∈ child.payload.att, ∃ granted ∈ parent.payload.att, cap.isSubsetOf granted = true :=
  lowerClosure_le

/-- A token of a proof tree: the token itself, one of its proofs, one of theirs,
and so on. -/
inductive InProofTree (ancestor : Ucan) : Ucan → Prop where
  | self : InProofTree ancestor ancestor
  | above (proof : parent ∈ token.payload.prf) (further : InProofTree ancestor parent) :
      InProofTree ancestor token

theorem InProofTree.valid {token : Ucan} (within : InProofTree ancestor token)
    (valid : token.validateChain prims now resolver = .ok ()) :
    ancestor.validateChain prims now resolver = .ok () := by
  induction within with
  | self => exact valid
  | above proof _ ih => exact ih ((validateChain_eq_ok.mp valid).2 _ proof).2

theorem InProofTree.authority_le {token : Ucan} (within : InProofTree ancestor token)
    (valid : token.validateChain prims now resolver = .ok ()) : token.authority ≤ ancestor.authority := by
  induction within with
  | self => exact le_rfl
  | above proof _ ih =>
    obtain ⟨link, above⟩ := (validateChain_eq_ok.mp valid).2 _ proof
    exact (authority_le_iff.mpr (checkLink_eq_ok.mp link).2).trans (ih above)

theorem sign_eq_ok : sign prims keypair coins token = .ok signed ↔
    token.header.kid = agentIdToHex (deriveAgentId prims keypair.publicKey) ∧ prims.isSecretKey keypair.secretKey ∧
      signed = { token with signature := prims.signWith keypair.secretKey token.signingInput coins } := by
  simp only [sign]
  split
  next other => simp [other]
  next same =>
    have kid := not_not.mp same
    split
    next secret =>
      exact ⟨fun made => ⟨kid, secret, (Except.ok.inj made).symm⟩, fun ⟨_, _, made⟩ => made ▸ rfl⟩
    next secret => exact ⟨nofun, fun ⟨_, holds, _⟩ => absurd holds secret⟩

theorem verify_sign {token : Ucan} (works : Works prims keypair) (made : sign prims keypair coins token = .ok signed)
    (alg : token.header.alg = ucanAlg) (started : token.payload.nbf ≤ now)
    (notExpired : now < token.payload.exp) : signed.verify prims keypair.publicKey now = .ok () := by
  obtain ⟨kid, -, rfl⟩ := sign_eq_ok.mp made
  exact verify_eq_ok.mpr ⟨alg, kid, works.publicKey, prims.signWith_length _ _ _, works.verifies _ _,
    notExpired, started⟩

section Samples

/-- The stand-in with a hash that keeps the start of its input, so that the keys
below have different ids. -/
def keepingStart : Primitives :=
  { Primitives.standIn with
    sha256 := fun bytes => ⟨(bytes ++ replicate 32 0).take 32, by simp⟩ }

def kidOf (seed : UInt8) : String :=
  agentIdToHex (deriveAgentId keepingStart (standInKeys seed).publicKey)

def resolveSample : Resolver := fun kid =>
  ([1, 2, 3].find? fun seed => kidOf seed == kid).map fun seed => (standInKeys seed).publicKey

def unsigned (signer : UInt8) (iss aud : String) (prf : List Ucan) (resource : String) : Ucan :=
  { header := ⟨ucanAlg, ucanTyp, kidOf signer⟩
    payload := ⟨iss, aud, 100, 0, prf, [⟨resource, "invoke", ∅⟩], []⟩
    signature := [] }

def issued (signer : UInt8) (iss aud : String) (prf : List Ucan) (resource : String) : Ucan :=
  let token := unsigned signer iss aud prf resource
  { token with
    signature := keepingStart.signWith (standInKeys signer).secretKey token.signingInput [] }

theorem sign_unsigned (signer : UInt8) (iss aud : String) (prf : List Ucan) (resource : String) :
    (unsigned signer iss aud prf resource).sign keepingStart (standInKeys signer) [] =
      .ok (issued signer iss aud prf resource) :=
  sign_eq_ok.mpr ⟨rfl, (standInKeys_work signer).secretKey, rfl⟩

/-- The first agent grants the second one its compute resource. -/
def granted : Ucan := issued 1 (kidOf 1) (kidOf 2) [] "compute"

def passedOn : Ucan := issued 2 (kidOf 2) (kidOf 3) [granted] "compute.inference"

/-- The third agent passes all of it on to itself, in the name of the second. -/
def takenOver : Ucan := issued 3 (kidOf 2) (kidOf 3) [granted] "compute"

theorem passedOn_valid : passedOn.validateChain keepingStart 50 resolveSample = .ok () := by decide +kernel

end Samples

/-- A validated token carries no more authority than any token of its proof tree, all of which are
valid. -/
theorem validateChain_bounds_authority (prims : Primitives) : (∀ cap : Capability, cap.isSubsetOf cap = true) ∧
    (∀ cap middle parent : Capability, cap.isSubsetOf middle = true → middle.isSubsetOf parent = true →
      cap.isSubsetOf parent = true) ∧ ∀ (token : Ucan) (now : UInt64) (resolver : Resolver),
      token.validateChain prims now resolver = .ok () → ∀ ancestor, InProofTree ancestor token →
        (∃ publicKey, resolver ancestor.header.kid = some publicKey ∧
          ancestor.verify prims publicKey now = .ok ()) ∧
        (ancestor.payload.nbf ≤ now ∧ now < ancestor.payload.exp) ∧
        ∀ cap ∈ token.payload.att, ∃ granted ∈ ancestor.payload.att, cap.isSubsetOf granted = true := by
  refine ⟨Capability.isSubsetOf_refl, fun _ _ _ => Capability.isSubsetOf_trans, ?_⟩
  intro token now resolver valid ancestor within
  obtain ⟨publicKey, resolved, verified⟩ := (validateChain_eq_ok.mp (within.valid valid)).1
  obtain ⟨-, -, -, -, -, notExpired, started⟩ := verify_eq_ok.mp verified
  exact ⟨⟨publicKey, resolved, verified⟩, ⟨started, notExpired⟩, authority_le_iff.mp (within.authority_le valid)⟩

/-- What was passed on is covered by what was granted. -/
theorem validateChain_bounds_authority_passedOn : ∃ parent ∈ granted.payload.att,
      (⟨"compute.inference", "invoke", ∅⟩ : Capability).isSubsetOf parent = true :=
  ((validateChain_bounds_authority keepingStart).2.2 passedOn 50 resolveSample passedOn_valid granted
    (.above (mem_singleton.mpr rfl) .self)).2.2 _ (mem_singleton.mpr rfl)

/-- In a proof tree, every token that is derived from others names the key that
signed it as its issuer. -/
def SignedByIssuers (token : Ucan) : Prop :=
  ∀ child, InProofTree child token → child.payload.prf ≠ [] → child.payload.iss = child.header.kid

/-- A validated tree was delegated by the audiences alone exactly if its derived
tokens name their signers as issuers. -/
theorem validateChain_delegated_by_audience_iff {token : Ucan}
    (valid : token.validateChain prims now resolver = .ok ()) :
    (∀ child, InProofTree child token → ∀ parent ∈ child.payload.prf, ∃ publicKey,
      resolver child.header.kid = some publicKey ∧
        parent.payload.aud = agentIdToHex (deriveAgentId prims publicKey)) ↔ token.SignedByIssuers := by
  -- the link compares `aud` with `iss`, the verification `kid` with the key
  have links (child : Ucan) (within : InProofTree child token) (parent : Ucan)
      (proof : parent ∈ child.payload.prf) : ∃ publicKey, resolver child.header.kid = some publicKey ∧
        child.header.kid = agentIdToHex (deriveAgentId prims publicKey) ∧
        parent.payload.aud = child.payload.iss := by
    obtain ⟨⟨publicKey, resolved, verified⟩, proofs⟩ := validateChain_eq_ok.mp (within.valid valid)
    exact ⟨publicKey, resolved, (verify_eq_ok.mp verified).2.1, (checkLink_eq_ok.mp (proofs parent proof).1).1⟩
  constructor
  · intro delegated child within derived
    obtain ⟨parent, proof⟩ := exists_mem_of_ne_nil _ derived
    obtain ⟨publicKey, resolved, signer, linked⟩ := links child within parent proof
    obtain ⟨other, resolved', audience⟩ := delegated child within parent proof
    rw [resolved] at resolved'
    cases resolved'
    rw [← linked, audience, signer]
  · intro signed child within parent proof
    obtain ⟨publicKey, resolved, signer, linked⟩ := links child within parent proof
    refine ⟨publicKey, resolved, ?_⟩
    rw [linked, signed child within (ne_nil_of_mem proof), signer]

theorem passedOn_signedByIssuers : passedOn.SignedByIssuers := by
  intro child within derived
  cases within with
  | self => rfl
  | above proof further =>
    cases mem_singleton.mp proof
    cases further with
    | self => exact absurd rfl derived
    | above proof => cases proof

/-- The audience of the grant has signed what is passed on. -/
theorem validateChain_delegated_by_audience_passedOn :
    ∃ publicKey, resolveSample passedOn.header.kid = some publicKey ∧
      granted.payload.aud = agentIdToHex (deriveAgentId keepingStart publicKey) :=
  (validateChain_delegated_by_audience_iff passedOn_valid).mpr passedOn_signedByIssuers passedOn .self
    granted (mem_singleton.mpr rfl)

/-- An agent that is not the audience of a token signs a further delegation of it
with its own key, and the chain is accepted. -/
theorem validateChain_accepts_delegation_by_other :
    (unsigned 3 (kidOf 2) (kidOf 3) [granted] "compute").sign keepingStart (standInKeys 3) [] = .ok takenOver ∧
      takenOver.validateChain keepingStart 50 resolveSample = .ok () ∧ granted ∈ takenOver.payload.prf ∧
      resolveSample takenOver.header.kid = some (standInKeys 3).publicKey ∧
      granted.payload.aud ≠ agentIdToHex (deriveAgentId keepingStart (standInKeys 3).publicKey) :=
  ⟨sign_unsigned _ _ _ _ _, by decide +kernel, mem_singleton.mpr rfl, by decide +kernel,
    by decide +kernel⟩

end Ucan

end Aafp.Identity
