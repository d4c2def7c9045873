import Aafp.Cbor.Fields
import Aafp.Identity.UcanChain

/-! Equality of tokens. -/
namespace Aafp.Identity

open Foundation Cbor Crypto List

theorem isEqv_iff_forall₂ :
    items.isEqv others same = true ↔ List.Forall₂ (fun item other => same item other = true) items others := by
  induction items generalizing others with
  | nil => cases others <;> simp [isEqv]
  | cons item items ih => cases others <;> simp [isEqv, ih]

theorem isEmpty_eq_of_forall₂ (alike : List.Forall₂ Relates items others) : items.isEmpty = others.isEmpty := by
  cases alike <;> rfl

theorem map_eq_of_forall₂ (alike : List.Forall₂ Relates items others)
    (same : ∀ item ∈ items, ∀ other, Relates item other → f item = f other) : items.map f = others.map f := by
  induction alike with
  | nil => rfl
  | cons here _ ih =>
    rw [forall_mem_cons] at same
    rw [map_cons, map_cons, same.1 _ here, ih same.2]

namespace Capability

/-- `==` on capabilities. -/
def sameAs (cap other : Capability) : Bool :=
  cap.resource == other.resource && cap.action == other.action && mapEq cap.caveats other.caveats

theorem sameAs_iff {cap other : Capability} : cap.sameAs other = true ↔
    cap.resource = other.resource ∧ cap.action = other.action ∧
      ∀ key, cap.caveats.lookup key = other.caveats.lookup key := by
  simp only [sameAs, Bool.and_eq_true, beq_iff_eq, mapEq_iff, and_assoc]

end Capability

mutual

def UcanPayload.sameAs : UcanPayload → UcanPayload → Bool
  | ⟨iss, aud, exp, nbf, prf, att, fct⟩, ⟨iss', aud', exp', nbf', prf', att', fct'⟩ =>
    iss == iss' && aud == aud' && exp == exp' && nbf == nbf' && Ucan.sameAsAll prf prf' &&
      att.isEqv att' Capability.sameAs && fct.isEqv fct' mapEq

def Ucan.sameAs : Ucan → Ucan → Bool
  | ⟨header, payload, signature⟩, ⟨header', payload', signature'⟩ =>
    header == header' && payload.sameAs payload' && signature == signature'

def Ucan.sameAsAll : List Ucan → List Ucan → Bool
  | [], [] => true
  | token :: tokens, other :: others => token.sameAs other && Ucan.sameAsAll tokens others
  | _, _ => false

end

theorem Ucan.sameAsAll_iff : Ucan.sameAsAll tokens others = true ↔
    List.Forall₂ (fun token other => token.sameAs other = true) tokens others := by
  induction tokens generalizing others with
  | nil => cases others <;> simp [Ucan.sameAsAll]
  | cons token tokens ih => cases others <;> simp [Ucan.sameAsAll, ih]

structure UcanPayload.Alike (payload other : UcanPayload) : Prop where
  iss : payload.iss = other.iss
  aud : payload.aud = other.aud
  exp : payload.exp = other.exp
  nbf : payload.nbf = other.nbf
  prf : List.Forall₂ (fun token other => token.sameAs other = true) payload.prf other.prf
  att : List.Forall₂ (fun cap other => cap.sameAs other = true) payload.att other.att
  fct : List.Forall₂ (fun fact other => mapEq fact other = true) payload.fct other.fct

theorem UcanPayload.sameAs_iff {payload other : UcanPayload} :
    payload.sameAs other = true ↔ payload.Alike other := by
  obtain ⟨iss, aud, exp, nbf, prf, att, fct⟩ := payload
  obtain ⟨iss', aud', exp', nbf', prf', att', fct'⟩ := other
  simp only [UcanPayload.sameAs, Bool.and_eq_true, beq_iff_eq, Ucan.sameAsAll_iff, isEqv_iff_forall₂]
  constructor
  · intro ⟨⟨⟨⟨⟨⟨issues, audiences⟩, expires⟩, starts⟩, proofs⟩, capabilities⟩, facts⟩
    exact ⟨issues, audiences, expires, starts, proofs, capabilities, facts⟩
  · intro alike
    exact ⟨⟨⟨⟨⟨⟨alike.iss, alike.aud⟩, alike.exp⟩, alike.nbf⟩, alike.prf⟩, alike.att⟩, alike.fct⟩

variable {first second : StringMap} {token other : Ucan}

theorem Ucan.sameAs_iff : token.sameAs other = true ↔
    token.header = other.header ∧ token.payload.Alike other.payload ∧ token.signature = other.signature := by
  obtain ⟨header, payload, signature⟩ := token
  obtain ⟨header', payload', signature'⟩ := other
  simp only [Ucan.sameAs, Bool.and_eq_true, beq_iff_eq, UcanPayload.sameAs_iff, and_assoc]

@[elab_as_elim]
theorem Ucan.proofInduction {motive : Ucan → Prop}
    (token : ∀ token : Ucan, (∀ parent ∈ token.payload.prf, motive parent) → motive token)
    (start : Ucan) : motive start := by
  refine @Ucan.rec (fun payload => ∀ parent ∈ payload.prf, motive parent) motive
    (fun tokens => ∀ parent ∈ tokens, motive parent) ?_ ?_ ?_ ?_ start
  · intro _ _ _ _ _ _ _ proofs
    exact proofs
  · intro header payload signature proofs
    exact token ⟨header, payload, signature⟩ proofs
  · simp
  · intro first rest here later
    exact forall_mem_cons.mpr ⟨here, later⟩

theorem Ucan.toCborAll_eq (tokens : List Ucan) : Ucan.toCborAll tokens = tokens.map Ucan.toCbor := by
  induction tokens with
  | nil => rfl
  | cons token tokens ih => rw [Ucan.toCborAll, ih, map_cons]

theorem perm_of_mapEq (same : mapEq first second = true) : first.entries.Perm second.entries := by
  refine lookup_ext first.nodupKeys second.nodupKeys fun key value => ?_
  have found : first.entries.dlookup key = second.entries.dlookup key := mapEq_iff.mp same key
  rw [found]

theorem encodeValue_stringsToCbor_congr (same : mapEq first second = true) :
    encodeValue (stringsToCbor first) = encodeValue (stringsToCbor second) :=
  encodeValue_stringsToCbor_perm (perm_of_mapEq same)

private theorem optionalField_congr {key : Int64} {omitted : Bool}
    (same : items.map encodeValue = others.map encodeValue) :
    (if omitted then [] else [(key, Value.array items)]).map
        (fun entry : Int64 × Value => (entry.1, encodeValue entry.2)) =
      (if omitted then [] else [(key, Value.array others)]).map
        fun entry : Int64 × Value => (entry.1, encodeValue entry.2) := by
  cases omitted
  · simp [encodeValue_array_congr same]
  · rfl

theorem Capability.encodeValue_congr {cap other : Capability} (same : cap.sameAs other = true) :
    encodeValue cap.toCbor = encodeValue other.toCbor := by
  obtain ⟨resource, action, caveats⟩ := Capability.sameAs_iff.mp same
  have maps : mapEq cap.caveats other.caveats = true := mapEq_iff.mpr caveats
  have empty : cap.caveats.entries.isEmpty = other.caveats.entries.isEmpty :=
    (perm_of_mapEq maps).isEmpty_eq
  apply encodeValue_intMap_congr
  rw [resource, action, empty, map_append, map_append]
  split
  · rfl
  · simp only [map_cons, map_nil, encodeValue_stringsToCbor_congr maps]

theorem UcanPayload.encodeValue_congr {payload other : UcanPayload} (alike : payload.Alike other)
    (proofs : payload.prf.map (fun token => encodeValue token.toCbor) =
      other.prf.map fun token => encodeValue token.toCbor) :
    encodeValue payload.toCbor = encodeValue other.toCbor := by
  obtain ⟨iss, aud, exp, nbf, prf, att, fct⟩ := payload
  obtain ⟨iss', aud', exp', nbf', prf', att', fct'⟩ := other
  obtain ⟨rfl, rfl, rfl, rfl, parents, capabilities, facts⟩ := alike
  have tokens : (Ucan.toCborAll prf).map encodeValue = (Ucan.toCborAll prf').map encodeValue := by
    simpa [Ucan.toCborAll_eq, Function.comp_def] using proofs
  have caps : (att.map Capability.toCbor).map encodeValue = (att'.map Capability.toCbor).map encodeValue := by
    rw [map_map, map_map]
    exact map_eq_of_forall₂ capabilities fun _ _ _ => Capability.encodeValue_congr
  have maps : (fct.map stringsToCbor).map encodeValue = (fct'.map stringsToCbor).map encodeValue := by
    rw [map_map, map_map]
    exact map_eq_of_forall₂ facts fun _ _ _ => encodeValue_stringsToCbor_congr
  apply encodeValue_intMap_congr
  rw [isEmpty_eq_of_forall₂ parents, isEmpty_eq_of_forall₂ capabilities, isEmpty_eq_of_forall₂ facts]
  simp only [map_append, optionalField_congr tokens, optionalField_congr caps, optionalField_congr maps]

theorem Ucan.encodeValue_congr (same : token.sameAs other = true) :
    encodeValue token.toCbor = encodeValue other.toCbor := by
  induction token using Ucan.proofInduction generalizing other with
  | token token ih =>
    obtain ⟨header, alike, signature⟩ := Ucan.sameAs_iff.mp same
    have payload := UcanPayload.encodeValue_congr alike
      (map_eq_of_forall₂ alike.prf fun parent proof _ => ih parent proof)
    obtain ⟨_, _, _⟩ := token
    obtain ⟨_, _, _⟩ := other
    cases header
    cases signature
    exact encodeValue_intMap_congr (by simp [payload])

namespace Ucan

theorem signingInput_congr (same : token.sameAs other = true) : token.signingInput = other.signingInput := by
  obtain ⟨header, alike, -⟩ := sameAs_iff.mp same
  have payload := UcanPayload.encodeValue_congr alike
    (map_eq_of_forall₂ alike.prf fun _ _ _ => encodeValue_congr)
  rw [signingInput, signingInput, header, payload]

end Ucan

theorem Capability.isSubsetOf_congr {cap other parent granted : Capability} (same : cap.sameAs other = true)
    (sameParent : parent.sameAs granted = true) : cap.isSubsetOf parent = other.isSubsetOf granted := by
  obtain ⟨resource, action, caveats⟩ := sameAs_iff.mp same
  obtain ⟨resource', action', caveats'⟩ := sameAs_iff.mp sameParent
  rw [Bool.eq_iff_iff, isSubsetOf_iff, isSubsetOf_iff]
  simp only [resource, resource', action, action', caveats, caveats']

theorem any_isSubsetOf_congr {cap other : Capability} (same : cap.sameAs other = true)
    (grants : List.Forall₂ (fun parent other => Capability.sameAs parent other = true) granted others) :
    granted.any cap.isSubsetOf = others.any other.isSubsetOf := by
  induction grants with
  | nil => rfl
  | cons here _ ih => rw [any_cons, any_cons, ih, Capability.isSubsetOf_congr same here]

theorem requireCovered_congr (caps : List.Forall₂ (fun cap other => Capability.sameAs cap other = true) given others)
    (grants : List.Forall₂ (fun cap other => Capability.sameAs cap other = true) granted othersGranted)
    (problem : String) : requireCovered given granted problem = requireCovered others othersGranted problem := by
  induction caps with
  | nil => rfl
  | cons here _ ih =>
    obtain ⟨resource, action, -⟩ := Capability.sameAs_iff.mp here
    have covered := any_isSubsetOf_congr here grants
    unfold requireCovered at ih ⊢
    rw [find?_cons, find?_cons, covered]
    cases othersGranted.any (Capability.isSubsetOf _)
    · simp only [Bool.not_false, resource, action]
    · exact ih

namespace Ucan

theorem verify_congr (same : token.sameAs other = true) (prims : Primitives) (publicKey : List UInt8)
    (now : UInt64) : token.verify prims publicKey now = other.verify prims publicKey now := by
  obtain ⟨header, alike, signature⟩ := sameAs_iff.mp same
  rw [verify, verify, signingInput_congr same, header, signature, alike.exp, alike.nbf]

theorem validateProofs_congr {child other : UcanPayload} (alike : child.Alike other)
    (parents : List.Forall₂ (fun token other => token.sameAs other = true) prf others)
    (each : ∀ parent ∈ prf, ∀ other, parent.sameAs other = true →
      parent.validateChain prims now resolver = other.validateChain prims now resolver) :
    validateProofs prims now resolver child prf = validateProofs prims now resolver other others := by
  induction parents with
  | nil => rfl
  | cons here _ ih =>
    rw [forall_mem_cons] at each
    have granted := (sameAs_iff.mp here).2.1
    have valid := each.1 _ here
    rw [validateChain, validateChain] at valid
    rw [validateProofs, validateProofs, ih each.2, valid, checkLink, checkLink, alike.iss, granted.aud,
      requireCovered_congr alike.att granted.att]

theorem validateChain_congr (same : token.sameAs other = true) (prims : Primitives) (now : UInt64)
    (resolver : Resolver) : token.validateChain prims now resolver = other.validateChain prims now resolver := by
  induction token using Ucan.proofInduction generalizing other with
  | token token ih =>
    obtain ⟨header, alike, -⟩ := sameAs_iff.mp same
    have verified := fun publicKey => verify_congr same prims publicKey now
    have proofs := validateProofs_congr alike alike.prf fun parent proof _ => ih parent proof
    obtain ⟨⟨_, _, kid⟩, ⟨_, _, _, _, _, _, _⟩, _⟩ := token
    obtain ⟨⟨_, _, _⟩, ⟨_, _, _, _, _, _, _⟩, _⟩ := other
    cases header
    simp only [validateChain, validateChainImpl, verified, proofs]

end Ucan

end Aafp.Identity
