import Aafp.Identity.WebOfTrust

/-! Trust over time. -/
namespace Aafp.Identity

open Foundation Crypto

theorem TrustSignature.live_earlier {sig : TrustSignature} (later : n ≤ m)
    (live : sig.isExpired m = false) : sig.isExpired n = false := by
  simp only [TrustSignature.isExpired, decide_eq_false_iff_not] at live ⊢
  exact fun expired => live (UInt64.le_trans expired later)

namespace WebOfTrust

variable {web before after : WebOfTrust} {target signer signed : AgentId} {sig : TrustSignature}
variable {n m : UInt64}

section

variable (own : before.ownAgentId = after.ownAgentId)
  (kept : ∀ signer signed sig, before.Vouches n signer signed sig → after.Vouches m signer signed sig)
include own kept

theorem TrustsDirectly.transfer
    (trusts : before.TrustsDirectly target n level) : after.TrustsDirectly target m level := by
  obtain ⟨ownId, sig, root, vouches, high⟩ := trusts
  exact ⟨ownId, sig, own ▸ root, kept _ _ _ vouches, high⟩

theorem TrustsThrough.transfer
    (trusts : before.TrustsThrough target n level) : after.TrustsThrough target m level := by
  obtain ⟨ownId, hop, sig, interSig, root, first, trusted, second, high⟩ := trusts
  exact ⟨ownId, hop, sig, interSig, own ▸ root, kept _ _ _ first, trusted, kept _ _ _ second, high⟩

end

theorem trustLevel_own (own : web.ownAgentId = some target) : web.trustLevel target n = trustLevelUltimate := by
  simp [trustLevel, own]

/-- If every live signature of one web is live in another web of the same agent,
no target is trusted less there. -/
theorem trustLevel_le_of_vouches (own : before.ownAgentId = after.ownAgentId)
    (kept : ∀ signer signed sig, before.Vouches n signer signed sig → after.Vouches m signer signed sig) :
    before.trustLevel target n ≤ after.trustLevel target m := by
  by_cases self : before.ownAgentId = some target
  · rw [trustLevel_own self, trustLevel_own (own ▸ self)]
    exact UInt8.le_refl _
  · have other : after.ownAgentId ≠ some target := own ▸ self
    by_cases positive : 0 < before.trustLevel target n
    · apply (le_trustLevel_iff other positive).mpr
      -- the level is reached on the first web; its reasons are also reasons on the second
      rcases (le_trustLevel_iff self positive).mp (UInt8.le_refl _) with ⟨direct, full⟩ | ⟨through, marginal⟩
      · exact .inl ⟨direct.transfer own kept, full⟩
      · exact .inr ⟨through.transfer own kept, marginal⟩
    · exact UInt8.le_trans (UInt8.not_lt.mp positive) UInt8.zero_le

theorem Vouches.earlier (later : n ≤ m) (vouches : web.Vouches m signer signed sig) :
    web.Vouches n signer signed sig :=
  { vouches with unexpired := TrustSignature.live_earlier later vouches.unexpired }

theorem mem_signaturesBy_addTrustSignature
    (mem : sig ∈ web.signaturesBy signer) : sig ∈ (web.addTrustSignature added).signaturesBy signer := by
  by_cases same : added.signerAgentId = signer
  · subst same
    simp only [signaturesBy, addTrustSignature, AList.lookup_insert, Option.getD_some]
    exact List.mem_append_left _ mem
  · simpa only [signaturesBy, addTrustSignature, AList.lookup_insert_ne (Ne.symm same)] using mem

theorem Vouches.addTrustSignature (vouches : web.Vouches n signer signed sig) (added : TrustSignature) :
    (web.addTrustSignature added).Vouches n signer signed sig := by
  obtain ⟨mem, live, target⟩ := vouches_iff.mp vouches
  exact vouches_iff.mpr ⟨mem_signaturesBy_addTrustSignature mem, live, target⟩

theorem signaturesBy_evictExpired (web : WebOfTrust) (now : UInt64) (signer : AgentId) :
    (web.evictExpired now).1.signaturesBy signer =
      (web.signaturesBy signer).filter fun sig => !sig.isExpired now := by
  simp only [signaturesBy, evictExpired, lookup_retain, lookup_mapValues]
  cases web.signatures.lookup signer with
  | none => rfl
  | some sigs =>
    simp only [Option.map_some, Option.getD_some]
    -- a signer without live signatures is dropped, which reads as the empty list
    cases empty : sigs.filter (fun sig => !sig.isExpired now) with
    | nil => rfl
    | cons first rest => rfl

theorem vouches_evictExpired_iff (later : n ≤ m) :
    (web.evictExpired n).1.Vouches m signer signed sig ↔ web.Vouches m signer signed sig := by
  rw [vouches_iff, vouches_iff, signaturesBy_evictExpired, List.mem_filter]
  constructor
  · intro kept
    exact ⟨kept.1.1, kept.2⟩
  · intro vouches
    have live := TrustSignature.live_earlier later vouches.2.1
    exact ⟨⟨vouches.1, by simp [live]⟩, vouches.2⟩

/-- Trust falls with time, never falls with a new signature, and is not touched by
the eviction of what has expired. -/
theorem trust_decays (web : WebOfTrust) (target : AgentId) :
    (∀ n m, n ≤ m → web.trustLevel target m ≤ web.trustLevel target n) ∧
      (∀ added now, web.trustLevel target now ≤ (web.addTrustSignature added).trustLevel target now) ∧
      (∀ n m, n ≤ m → (web.evictExpired n).1.trustLevel target m = web.trustLevel target m) := by
  refine ⟨?_, ?_, ?_⟩
  · intro n m later
    exact trustLevel_le_of_vouches rfl fun _ _ _ => Vouches.earlier later
  · intro added now
    exact trustLevel_le_of_vouches rfl fun _ _ _ vouches => vouches.addTrustSignature added
  · intro n m later
    apply UInt8.le_antisymm
    · exact trustLevel_le_of_vouches rfl fun _ _ _ => (vouches_evictExpired_iff later).mp
    · exact trustLevel_le_of_vouches rfl fun _ _ _ => (vouches_evictExpired_iff later).mpr

private def vouching : WebOfTrust :=
  (WebOfTrust.new.setOwnAgentId (Bytes32.filled 0)).addTrustSignature
    ⟨wotSigTypeV1, Bytes32.filled 0, Bytes32.filled 1, [], trustLevelFull, 2000, []⟩

/-- The signature has run out at 3000, and evicting it then changes nothing. -/
theorem trust_decays_after_expiry : vouching.trustLevel (Bytes32.filled 1) 1000 = trustLevelFull ∧
      vouching.trustLevel (Bytes32.filled 1) 3000 = trustLevelNone ∧
      vouching.trustLevel (Bytes32.filled 1) 3000 ≤ vouching.trustLevel (Bytes32.filled 1) 1000 ∧
      (vouching.evictExpired 2500).1.trustLevel (Bytes32.filled 1) 3000 =
        vouching.trustLevel (Bytes32.filled 1) 3000 := by
  obtain ⟨decays, -, invisible⟩ := trust_decays vouching (Bytes32.filled 1)
  exact ⟨by decide, by decide, decays 1000 3000 (by decide), invisible 2500 3000 (by decide)⟩

end WebOfTrust

end Aafp.Identity
