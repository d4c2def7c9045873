import Aafp.Foundation.HashMap
import Aafp.Identity.AgentId

/-! The web of trust. -/
namespace Aafp.Identity

open Foundation Crypto List

def wotSigTypeV1 : String := "aafp-wot-sig-v1"

def trustLevelNone : UInt8 := 0

def trustLevelMarginal : UInt8 := 1

def trustLevelFull : UInt8 := 2

def trustLevelUltimate : UInt8 := 3

/-- The signer trusts the key of the signed agent at a level until the expiry. -/
structure TrustSignature where
  sigType : String
  signerAgentId : AgentId
  signedAgentId : AgentId
  signedPublicKey : List UInt8
  trustLevel : UInt8
  expiry : UInt64
  signature : List UInt8
deriving DecidableEq

def TrustSignature.isExpired (sig : TrustSignature) (now : UInt64) : Bool := sig.expiry ≤ now

structure WebOfTrust where
  ownAgentId : Option AgentId
  signatures : AList fun _ : AgentId => List TrustSignature
  knownPublicKeys : AList fun _ : AgentId => List UInt8
  keyed : ∀ signer sigs, signatures.lookup signer = some sigs →
    ∀ sig ∈ sigs, sig.signerAgentId = signer

namespace WebOfTrust

def new : WebOfTrust where
  ownAgentId := none
  signatures := ∅
  knownPublicKeys := ∅
  keyed := forall_lookup_empty

variable (web : WebOfTrust)

def setOwnAgentId (agentId : AgentId) : WebOfTrust :=
  { web with ownAgentId := some agentId }

def signaturesBy (signer : AgentId) : List TrustSignature :=
  (web.signatures.lookup signer).getD []

theorem signer_of_mem_signaturesBy {web : WebOfTrust} (mem : sig ∈ web.signaturesBy signer) :
    sig.signerAgentId = signer := by
  unfold signaturesBy at mem
  cases found : web.signatures.lookup signer with
  | none => simp [found] at mem
  | some sigs => exact web.keyed signer sigs found sig (by simpa [found] using mem)

def addTrustSignature (sig : TrustSignature) : WebOfTrust where
  ownAgentId := web.ownAgentId
  signatures := web.signatures.insert sig.signerAgentId (web.signaturesBy sig.signerAgentId ++ [sig])
  knownPublicKeys := web.knownPublicKeys.insert sig.signedAgentId sig.signedPublicKey
  keyed := by
    apply forall_lookup_insert web.keyed
    intro stored mem
    rcases mem_append.mp mem with old | added
    · exact signer_of_mem_signaturesBy old
    · rw [mem_singleton.mp added]

def allSignatures (pass : IterationOrder AgentId (List TrustSignature)) : List TrustSignature :=
  (pass.iterate web.signatures).flatMap fun entry => entry.2

theorem mem_allSignatures {web : WebOfTrust} {pass : IterationOrder AgentId (List TrustSignature)} :
    sig ∈ web.allSignatures pass ↔ sig ∈ web.signaturesBy sig.signerAgentId := by
  constructor
  · intro mem
    obtain ⟨⟨signer, sigs⟩, entry, inside⟩ := mem_flatMap.mp mem
    have found := mem_iterate.mp entry
    have signed := web.keyed signer sigs found sig inside
    rw [signaturesBy, signed, found]
    exact inside
  · intro mem
    unfold signaturesBy at mem
    cases found : web.signatures.lookup sig.signerAgentId with
    | none => simp [found] at mem
    | some sigs =>
      apply mem_flatMap.mpr
      exact ⟨⟨sig.signerAgentId, sigs⟩, mem_iterate.mpr found, by simpa [found] using mem⟩

/-- The expired signatures are removed, and the signers who have none left. The
number of removed signatures is returned. -/
def evictExpired (now : UInt64) : WebOfTrust × Nat :=
  let live := fun sigs : List TrustSignature => sigs.filter fun sig => !sig.isExpired now
  let removed := (web.signatures.entries.map fun entry =>
    entry.2.length - (live entry.2).length).sum
  let signatures := retain (fun sigs => !sigs.isEmpty) (mapValues live web.signatures)
  let keyed := by
    intro signer sigs found sig mem
    obtain ⟨mapped, -⟩ := lookup_retain_eq_some.mp found
    rw [lookup_mapValues] at mapped
    obtain ⟨before, stored, rfl⟩ := Option.map_eq_some_iff.mp mapped
    exact web.keyed signer before stored sig (mem_of_mem_filter mem)
  ({ web with signatures, keyed }, removed)

/-- `if level > best { best = level }` -/
def raise (best level : UInt8) : UInt8 := if level > best then level else best

/-- The first loop: signatures of the own agent for the target, capped at full. -/
def directStep (target : AgentId) (now : UInt64) (best : UInt8) (sig : TrustSignature) : UInt8 :=
  if sig.isExpired now then best
  else if sig.signedAgentId = target then raise best (min sig.trustLevel trustLevelFull)
  else best

/-- The inner loop over the signatures of an intermediary. Their level is not read. -/
def interStep (target : AgentId) (now : UInt64) (best : UInt8) (interSig : TrustSignature) : UInt8 :=
  if interSig.isExpired now then best
  else if interSig.signedAgentId = target then raise best trustLevelMarginal
  else best

def hopStep (target : AgentId) (now : UInt64) (best : UInt8) (sig : TrustSignature) : UInt8 :=
  if sig.isExpired now then best
  else if sig.trustLevel < trustLevelMarginal then best
  else if sig.signedAgentId = target then best
  else (web.signaturesBy sig.signedAgentId).foldl (interStep target now) best

def trustLevel (target : AgentId) (now : UInt64) : UInt8 :=
  match web.ownAgentId with
  | none => trustLevelNone
  | some own =>
    if own = target then trustLevelUltimate
    else
      let best := (web.signaturesBy own).foldl (directStep target now) trustLevelNone
      if best ≥ trustLevelMarginal then best
      else (web.signaturesBy own).foldl (web.hopStep target now) best

structure Vouches (web : WebOfTrust) (now : UInt64) (signer signed : AgentId) (sig : TrustSignature) :
    Prop where
  stored : sig ∈ web.allSignatures .inOrder
  unexpired : sig.isExpired now = false
  signer : sig.signerAgentId = signer
  signed : sig.signedAgentId = signed

theorem vouches_iff {web : WebOfTrust} : web.Vouches now signer signed sig ↔
    sig ∈ web.signaturesBy signer ∧ sig.isExpired now = false ∧ sig.signedAgentId = signed := by
  constructor
  · intro vouches
    refine ⟨?_, vouches.unexpired, vouches.signed⟩
    rw [← vouches.signer]
    exact mem_allSignatures.mp vouches.stored
  · intro ⟨mem, unexpired, signed⟩
    have signer := signer_of_mem_signaturesBy mem
    refine ⟨mem_allSignatures.mpr ?_, unexpired, signer, signed⟩
    rw [signer]
    exact mem

section Levels

variable {level given : UInt8}

private theorem le_raise_iff : level ≤ raise best given ↔ level ≤ best ∨ level ≤ given := by
  unfold raise
  split <;> grind

private theorem le_min_level_iff : level ≤ min given cap ↔ level ≤ given ∧ level ≤ cap := by
  change level ≤ (if given ≤ cap then given else cap) ↔ _
  split <;> grind

private theorem le_foldl_iff {step : UInt8 → Item → UInt8} {gives : Item → Prop}
    (round : ∀ best item, level ≤ step best item ↔ level ≤ best ∨ gives item) (items : List Item) (best : UInt8) :
    level ≤ items.foldl step best ↔ level ≤ best ∨ ∃ item ∈ items, gives item := by
  induction items generalizing best with
  | nil => simp
  | cons first rest ih =>
    rw [foldl_cons, ih, round]
    simp [or_assoc]

private theorem le_signedRound_iff (best : UInt8) (sig : TrustSignature) : (level ≤ if sig.isExpired now then best
      else if sig.signedAgentId = target then raise best given else best) ↔
    level ≤ best ∨ sig.isExpired now = false ∧ sig.signedAgentId = target ∧ level ≤ given := by
  split
  case isTrue expired => simp [expired]
  case isFalse live =>
    split
    case isTrue signed => simp [live, signed, le_raise_iff]
    case isFalse other => simp [other]

private theorem le_directStep_iff (best : UInt8) (sig : TrustSignature) : level ≤ directStep target now best sig ↔
    level ≤ best ∨ sig.isExpired now = false ∧ sig.signedAgentId = target ∧
      level ≤ sig.trustLevel ∧ level ≤ trustLevelFull := by
  unfold directStep
  rw [le_signedRound_iff, le_min_level_iff]

private theorem le_interStep_iff (best : UInt8) (sig : TrustSignature) : level ≤ interStep target now best sig ↔
    level ≤ best ∨ sig.isExpired now = false ∧ sig.signedAgentId = target ∧ level ≤ trustLevelMarginal := by
  unfold interStep
  rw [le_signedRound_iff]

private theorem le_hopStep_iff {web : WebOfTrust} (best : UInt8) (sig : TrustSignature) :
    level ≤ web.hopStep target now best sig ↔ level ≤ best ∨
      (sig.isExpired now = false ∧ trustLevelMarginal ≤ sig.trustLevel ∧ sig.signedAgentId ≠ target ∧
        ∃ interSig ∈ web.signaturesBy sig.signedAgentId, interSig.isExpired now = false ∧
          interSig.signedAgentId = target ∧ level ≤ trustLevelMarginal) := by
  unfold hopStep
  split
  case isTrue expired => simp [expired]
  case isFalse live =>
    split
    case isTrue low => simp [low]
    case isFalse trusted =>
      split
      case isTrue same => simp [same]
      case isFalse other =>
        rw [le_foldl_iff le_interStep_iff]
        simp [live, UInt8.not_lt.mp trusted, other]

def TrustsDirectly (target : AgentId) (now : UInt64) (level : UInt8) : Prop :=
  ∃ own sig, web.ownAgentId = some own ∧ web.Vouches now own target sig ∧ level ≤ sig.trustLevel

/-- The own agent trusts an intermediary, who vouches for the target, at a level. -/
def TrustsThrough (target : AgentId) (now : UInt64) (level : UInt8) : Prop :=
  ∃ own intermediary sig interSig, web.ownAgentId = some own ∧
    web.Vouches now own intermediary sig ∧ trustLevelMarginal ≤ sig.trustLevel ∧
    web.Vouches now intermediary target interSig ∧ level ≤ interSig.trustLevel

variable {web : WebOfTrust} {target : AgentId} {now : UInt64} {level : UInt8}

private theorem le_direct_iff (own : web.ownAgentId = some ownId) (positive : 0 < level) :
    level ≤ (web.signaturesBy ownId).foldl (directStep target now) trustLevelNone ↔
      web.TrustsDirectly target now level ∧ level ≤ trustLevelFull := by
  rw [le_foldl_iff le_directStep_iff]
  constructor
  · intro reached
    rcases reached with start | ⟨sig, mem, live, signed, high, capped⟩
    · exact absurd positive (UInt8.not_lt.mpr start)
    · exact ⟨⟨ownId, sig, own, vouches_iff.mpr ⟨mem, live, signed⟩, high⟩, capped⟩
  · intro ⟨⟨ownId', sig, own', vouches, high⟩, capped⟩
    cases own.symm.trans own'
    obtain ⟨mem, live, signed⟩ := vouches_iff.mp vouches
    exact .inr ⟨sig, mem, live, signed, high, capped⟩

/-- What gives a target other than the own agent a level. The level that the
intermediary signed does not matter. -/
theorem le_trustLevel_iff (other : web.ownAgentId ≠ some target) (positive : 0 < level) :
    level ≤ web.trustLevel target now ↔ (web.TrustsDirectly target now level ∧ level ≤ trustLevelFull) ∨
      (web.TrustsThrough target now trustLevelNone ∧ level ≤ trustLevelMarginal) := by
  cases own : web.ownAgentId with
  | none =>
    have low : ¬ level ≤ trustLevelNone := UInt8.not_le.mpr positive
    simp [trustLevel, TrustsDirectly, TrustsThrough, own, low]
  | some ownId =>
    have different : ownId ≠ target := fun same => other (same ▸ own)
    simp only [trustLevel, own, different, if_false]
    split
    case isTrue reached =>
      rw [le_direct_iff own positive]
      constructor
      · exact .inl
      · intro trusts
        rcases trusts with direct | ⟨-, marginal⟩
        · exact direct
        · exact (le_direct_iff own positive).mp (UInt8.le_trans marginal reached)
    case isFalse missed =>
      rw [le_foldl_iff le_hopStep_iff, le_direct_iff own positive]
      constructor
      · intro trusts
        rcases trusts with direct | ⟨sig, mem, live, high, -, interSig, inter, interLive, signed, low⟩
        · exact .inl direct
        · right
          refine ⟨⟨ownId, sig.signedAgentId, sig, interSig, own, ?_, high, ?_, ?_⟩, low⟩
          · exact vouches_iff.mpr ⟨mem, live, rfl⟩
          · exact vouches_iff.mpr ⟨inter, interLive, signed⟩
          · exact UInt8.zero_le
      · intro trusts
        rcases trusts with direct | ⟨⟨ownId', hop, sig, interSig, own', first, high, second, -⟩, low⟩
        · exact .inl direct
        · right
          cases own.symm.trans own'
          -- an intermediary who is the target was found by the first loop
          have between : hop ≠ target := by
            intro same
            apply missed
            subst same
            exact (le_direct_iff own (by decide)).mpr ⟨⟨ownId, sig, own, first, high⟩, by decide⟩
          obtain ⟨mem, live, rfl⟩ := vouches_iff.mp first
          obtain ⟨inter, interLive, signed⟩ := vouches_iff.mp second
          exact ⟨sig, mem, live, high, between, interSig, inter, interLive, signed, low⟩

end Levels

structure LevelEarned (web : WebOfTrust) (target : AgentId) (now : UInt64) : Prop where
  ultimate : web.trustLevel target now = trustLevelUltimate → web.ownAgentId = some target
  earned : web.ownAgentId ≠ some target → trustLevelMarginal ≤ web.trustLevel target now →
    web.TrustsDirectly target now trustLevelMarginal ∨ web.TrustsThrough target now trustLevelMarginal
  marginal : web.ownAgentId ≠ some target → web.TrustsThrough target now trustLevelMarginal →
    ¬ web.TrustsDirectly target now trustLevelFull → web.trustLevel target now = trustLevelMarginal

/-- If trusted intermediaries have signed the target, one of them did so above level 0, or the own
agent did. -/
def SignedInEarnest (web : WebOfTrust) (target : AgentId) (now : UInt64) : Prop :=
  web.ownAgentId ≠ some target → web.TrustsThrough target now trustLevelNone →
    web.TrustsDirectly target now trustLevelMarginal ∨ web.TrustsThrough target now trustLevelMarginal

section Earned

variable {web : WebOfTrust} {target : AgentId} {now : UInt64}

private theorem own_of_ultimate (ultimate : web.trustLevel target now = trustLevelUltimate) :
    web.ownAgentId = some target := by
  by_contra other
  have reached : trustLevelUltimate ≤ web.trustLevel target now := by
    rw [ultimate]
    exact UInt8.le_refl _
  rcases (le_trustLevel_iff other (by decide)).mp reached with ⟨-, capped⟩ | ⟨-, capped⟩
  · exact absurd capped (by decide)
  · exact absurd capped (by decide)

private theorem marginal_of_through (other : web.ownAgentId ≠ some target)
    (through : web.TrustsThrough target now trustLevelMarginal)
    (most : ¬ web.TrustsDirectly target now trustLevelFull) : web.trustLevel target now = trustLevelMarginal := by
  have reached : trustLevelMarginal ≤ web.trustLevel target now := by
    obtain ⟨own, hop, sig, interSig, root, first, trusted, second, level⟩ := through
    exact (le_trustLevel_iff other (by decide)).mpr (.inr ⟨⟨own, hop, sig, interSig, root, first, trusted, second,
      UInt8.le_trans (by decide) level⟩, UInt8.le_refl _⟩)
  have bounded : ¬ trustLevelFull ≤ web.trustLevel target now := by
    intro full
    rcases (le_trustLevel_iff other (by decide)).mp full with ⟨direct, -⟩ | ⟨-, capped⟩
    · exact most direct
    · exact absurd capped (by decide)
  unfold trustLevelMarginal at reached ⊢
  unfold trustLevelFull at bounded
  grind

end Earned

/-- Trust levels are earned exactly if no target is trusted for signatures of level 0
alone. -/
theorem levelEarned_iff (web : WebOfTrust) (target : AgentId) (now : UInt64) :
    web.LevelEarned target now ↔ web.SignedInEarnest target now := by
  constructor
  · intro level other through
    apply level.earned other
    exact (le_trustLevel_iff other (by decide)).mpr (.inr ⟨through, UInt8.le_refl _⟩)
  · intro earnest
    refine ⟨own_of_ultimate, ?_, marginal_of_through⟩
    intro other reached
    rcases (le_trustLevel_iff other (by decide)).mp reached with ⟨direct, -⟩ | ⟨through, -⟩
    · exact .inl direct
    · exact earnest other through

/-- The own agent 0 trusts agent 1 fully, who distrusts agent 2: it signed level 0. -/
def distrustedWeb : WebOfTrust :=
  let vouch := fun (signer signed level : UInt8) => TrustSignature.mk wotSigTypeV1
    (Bytes32.filled signer) (Bytes32.filled signed) [] level 2000 []
  let web := WebOfTrust.new.setOwnAgentId (Bytes32.filled 0)
  (web.addTrustSignature (vouch 0 1 trustLevelFull)).addTrustSignature (vouch 1 2 trustLevelNone)

theorem distrusted_agent_is_trusted : distrustedWeb.trustLevel (Bytes32.filled 2) 1000 = trustLevelMarginal ∧
      ¬ distrustedWeb.LevelEarned (Bytes32.filled 2) 1000 := by
  have reached : distrustedWeb.trustLevel (Bytes32.filled 2) 1000 = trustLevelMarginal := by decide
  refine ⟨reached, ?_⟩
  intro level
  have distrusted : ∀ sig ∈ distrustedWeb.allSignatures .inOrder,
      sig.signedAgentId = Bytes32.filled 2 → ¬ trustLevelMarginal ≤ sig.trustLevel := by decide
  have own : distrustedWeb.ownAgentId ≠ some (Bytes32.filled 2) := by decide
  rcases level.earned own (by rw [reached]; decide) with direct | through
  · obtain ⟨_, sig, _, vouches, trusted⟩ := direct
    exact distrusted sig vouches.stored vouches.signed trusted
  · obtain ⟨_, _, _, sig, _, _, _, vouches, trusted⟩ := through
    exact distrusted sig vouches.stored vouches.signed trusted

end WebOfTrust

end Aafp.Identity
