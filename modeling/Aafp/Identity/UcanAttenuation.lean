import Aafp.Identity.UcanDelegation
import Aafp.Identity.UcanEquality
import Mathlib.Order.Preorder.Finite

/-! Attenuation: a delegation that should hand on less than it has. -/
namespace Aafp.Identity

open Foundation Crypto

section Coverage

variable {α : Type} [Preorder α] {given granted : List α}

/-- Something granted is not handed on exactly if a broadest grant has no equal among
what is given. -/
theorem exists_uncovered_iff (covered : ∀ item ∈ given, ∃ grant ∈ granted, item ≤ grant) :
    (∃ grant ∈ granted, ∀ item ∈ given, ¬ grant ≤ item) ↔
      ∃ grant, Maximal (· ∈ granted) grant ∧ ∀ item ∈ given, ¬ AntisymmRel (· ≤ ·) item grant := by
  constructor
  · intro ⟨grant, mem, uncovered⟩
    -- a broadest grant above one that is not handed on is not handed on either
    obtain ⟨top, above, broadest⟩ := granted.finite_toSet.exists_le_maximal mem
    refine ⟨top, broadest, fun item handed same => ?_⟩
    exact uncovered item handed (above.trans same.2)
  · intro ⟨grant, broadest, missing⟩
    refine ⟨grant, broadest.prop, fun item handed below => ?_⟩
    obtain ⟨top, mem, above⟩ := covered item handed
    exact missing item handed ⟨above.trans (broadest.le_of_ge mem (below.trans above)), below⟩

end Coverage

namespace Capability

private theorem not_both_below (below : (other ++ ".").toList <+: cap.toList)
    (above : (cap ++ ".").toList <+: other.toList) : False := by
  have first := below.length_le
  have second := above.length_le
  simp only [String.toList_append, List.length_append] at first second
  have dot : ".".toList.length = 1 := rfl
  omega

theorem antisymmRel_iff {cap other : Capability} : AntisymmRel (· ≤ ·) cap other ↔ cap.sameAs other = true := by
  rw [sameAs_iff]
  constructor
  · intro ⟨below, above⟩
    obtain ⟨resource, action, caveats⟩ := isSubsetOf_iff.mp below
    obtain ⟨resource', -, caveats'⟩ := isSubsetOf_iff.mp above
    refine ⟨?_, action, fun key => Option.ext fun value => ⟨caveats' key value, caveats key value⟩⟩
    rcases resource with same | inside
    · exact same
    · rcases resource' with same | outside
      · exact same.symm
      · exact (not_both_below inside outside).elim
  · intro ⟨resource, action, caveats⟩
    constructor
    · exact isSubsetOf_iff.mpr ⟨.inl resource, action, fun key value => by simp [caveats key]⟩
    · exact isSubsetOf_iff.mpr ⟨.inl resource.symm, action.symm, fun key value => by simp [caveats key]⟩

end Capability

namespace Ucan

/-- `delegate`, unless there are at least as many capabilities as the parent has, and as many of
them are the parent's own. -/
def attenuate (prims : Primitives) (token : Ucan) (newIssuer : AgentKeypair) (audience : AgentId)
    (capabilities : List Capability) (expiresAt notBefore : UInt64) (coins : List UInt8) : Except Failure Ucan :=
  let duplicated :=
    if capabilities.length ≥ token.payload.att.length then
      let allEqual := capabilities.all fun cap => token.payload.att.any fun parent => cap.sameAs parent
      allEqual && capabilities.length == token.payload.att.length
    else false
  if duplicated then
    .error (.returned (.invalidField "att" "attenuate must reduce capabilities, not duplicate them"))
  else token.delegate prims newIssuer audience capabilities expiresAt notBefore coins

section attenuation

variable {prims : Primitives} {token child : Ucan} {newIssuer : AgentKeypair} {audience : AgentId}
variable {capabilities : List Capability} {expiresAt notBefore : UInt64} {coins : List UInt8}

theorem attenuate_eq_ok :
    token.attenuate prims newIssuer audience capabilities expiresAt notBefore coins = .ok child ↔
      ¬ (capabilities.length = token.payload.att.length ∧
        ∀ cap ∈ capabilities, ∃ parent ∈ token.payload.att, cap.sameAs parent = true) ∧
      token.delegate prims newIssuer audience capabilities expiresAt notBefore coins = .ok child := by
  simp only [attenuate, ite_error_eq_ok]
  refine and_congr_left' (not_congr ?_)
  constructor
  · intro duplicated
    split at duplicated
    · simpa [and_comm] using duplicated
    · cases duplicated
  · intro ⟨length, repeats⟩
    simpa [length] using repeats

/-- An attenuation hands on less exactly if one of the parent's broadest capabilities is not among
the child's. -/
theorem attenuate_reduces_iff
    (made : token.attenuate prims newIssuer audience capabilities expiresAt notBefore coins = .ok child) :
    (∀ cap ∈ child.payload.att, ∃ parent ∈ token.payload.att, cap.isSubsetOf parent = true) ∧
      ((∃ parent ∈ token.payload.att, ∀ cap ∈ child.payload.att, ¬ parent.isSubsetOf cap = true) ↔
        ∃ parent, Maximal (· ∈ token.payload.att) parent ∧ ∀ cap ∈ capabilities, ¬ cap.sameAs parent = true) := by
  obtain ⟨covered, signed⟩ := delegate_eq_ok.mp (attenuate_eq_ok.mp made).2
  have handed : child.payload.att = capabilities := by rw [(payload_of_sign signed).2, delegation]
  rw [handed]
  refine ⟨covered, (exists_uncovered_iff covered).trans ?_⟩
  simp only [Capability.antisymmRel_iff]

end attenuation

/-- All of what `granted` permits. -/
private def compute : Capability := ⟨"compute", "invoke", ∅⟩

theorem attenuate_granted : granted.attenuate keepingStart (standInKeys 2)
    (deriveAgentId keepingStart (standInKeys 3).publicKey) [⟨"compute.inference", "invoke", ∅⟩] 100 0 [] =
      .ok passedOn :=
  attenuate_eq_ok.mpr ⟨by decide +kernel, delegate_granted⟩

theorem attenuate_reduces_granted :
    (∀ cap ∈ passedOn.payload.att, ∃ parent ∈ granted.payload.att, cap.isSubsetOf parent = true) ∧
      ∃ parent ∈ granted.payload.att, ∀ cap ∈ passedOn.payload.att, ¬ parent.isSubsetOf cap = true := by
  obtain ⟨covered, reduced⟩ := attenuate_reduces_iff attenuate_granted
  have broadest : Maximal (· ∈ granted.payload.att) compute := by
    refine ⟨List.mem_singleton.mpr rfl, fun other mem _ => ?_⟩
    cases List.mem_singleton.mp mem
    exact le_rfl
  exact ⟨covered, reduced.mpr ⟨compute, broadest, by decide +kernel⟩⟩

/-- The capability of the parent given twice is not as many as the parent has, so it passes,
and nothing is reduced. -/
theorem attenuate_passes_duplicate : ∃ child, granted.attenuate keepingStart (standInKeys 2)
        (deriveAgentId keepingStart (standInKeys 3).publicKey) [compute, compute] 100 0 [] = .ok child ∧
      child.payload.att = [compute, compute] ∧
      ∀ parent ∈ granted.payload.att, ∃ cap ∈ child.payload.att, parent.isSubsetOf cap = true := by
  obtain ⟨child, signed⟩ : ∃ child, sign keepingStart (standInKeys 2) [] (delegation keepingStart granted
      (standInKeys 2) (deriveAgentId keepingStart (standInKeys 3).publicKey) [compute, compute] 100 0) =
        .ok child := ⟨_, sign_eq_ok.mpr ⟨rfl, (standInKeys_work 2).secretKey, rfl⟩⟩
  have handed : child.payload.att = [compute, compute] := by rw [(payload_of_sign signed).2, delegation]
  refine ⟨child, attenuate_eq_ok.mpr ⟨by decide +kernel, delegate_eq_ok.mpr ⟨by decide +kernel, signed⟩⟩,
    handed, ?_⟩
  rw [handed]
  decide +kernel

end Ucan

end Aafp.Identity
