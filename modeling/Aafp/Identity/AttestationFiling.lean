import Aafp.Foundation.Machine
import Aafp.Identity.Attestation

/-! When the attestations that are listed for an agent are about that agent, by other agents, and at
most one by each. -/
namespace Aafp.Identity

open Foundation Crypto
open List hiding after

namespace AttestationStore

inductive Call where
  | store (subject attester : AgentId) (att : Attestation) (now : UInt64)
  | evictExpired (pass : IterationOrder AttestationKey Attestation) (now : UInt64)

inductive Answer where
  | stored (outcome : Except AttestationStoreError Unit)
  | evicted (count : Nat)

def answer (prims : Primitives) (held : AttestationStore) : Call → Answer × AttestationStore
  | .store subject attester att now =>
    match held.store prims subject attester att now with
    | .ok after => (.stored (.ok ()), after)
    | .error error => (.stored (.error error), held)
  | .evictExpired pass now =>
    let evicted := held.evictExpired pass now
    (.evicted evicted.1, evicted.2)

def machine (prims : Primitives) : Machine Call Answer AttestationStore := ⟨answer prims⟩

/-- A list for an agent: the attestations are about it, by others, and at most one by each of them. -/
structure ListedFor (agent : AgentId) (atts : List Attestation) : Prop where
  about : ∀ att ∈ atts, att.subjectAgentId = agent
  byOthers : ∀ att ∈ atts, att.attesterAgentId ≠ agent
  once : (atts.map Attestation.attesterAgentId).Nodup

def Filed (held : AttestationStore) : Prop := ∀ agent, ListedFor agent (held.getForAgent agent)

/-- An attestation is about the subject and not by it, and nothing by its attester is stored or
listed for the subject yet. -/
structure Fits (prims : Primitives) (held : AttestationStore) (subject attester : AgentId) (att : Attestation) :
    Prop where
  about : att.subjectAgentId = subject
  byOther : att.attesterAgentId ≠ subject
  vacant : held.get prims subject attester = none
  first : ∀ other ∈ held.getForAgent subject, other.attesterAgentId ≠ att.attesterAgentId

/-- An attestation that is not refused fits where it is stored. -/
def FilesRight (prims : Primitives) (held : AttestationStore) : Call → Prop
  | .store subject attester att now =>
    att.verify prims now = .ok () → subject ≠ attester → Fits prims held subject attester att
  | .evictExpired _ _ => True

def Indexed (held : AttestationStore) : Prop :=
  KeyLists Attestation.subjectAgentId held.bySubject held.attestations

variable {prims : Primitives} {held : AttestationStore} {subject attester : AgentId} {att : Attestation}

theorem store_eq_ok :
    held.store prims subject attester att now = .ok after ↔ att.verify prims now = .ok () ∧ subject ≠ attester ∧
      held.file subject (attestationKey prims subject attester) att = after := by
  simp only [store, unit_bind_eq_ok, mapError_eq_ok, ensure_eq_ok, Except.ok.injEq]

theorem listedFor_concat : ListedFor agent (atts ++ [att]) ↔ ListedFor agent atts ∧ att.subjectAgentId = agent ∧
      att.attesterAgentId ≠ agent ∧ ∀ other ∈ atts, other.attesterAgentId ≠ att.attesterAgentId := by
  constructor
  · intro ⟨about, byOthers, once⟩
    rw [forall_mem_append, forall_mem_singleton] at about byOthers
    rw [map_append, nodup_append] at once
    refine ⟨⟨about.1, byOthers.1, once.1⟩, about.2, byOthers.2, ?_⟩
    intro other mem
    exact once.2.2 _ (mem_map_of_mem mem) _ (mem_singleton.mpr rfl)
  · intro ⟨listed, about, byOther, first⟩
    constructor
    · rw [forall_mem_append, forall_mem_singleton]
      exact ⟨listed.about, about⟩
    · rw [forall_mem_append, forall_mem_singleton]
      exact ⟨listed.byOthers, byOther⟩
    · rw [map_append, map_singleton, ← concat_eq_append]
      refine listed.once.concat ?_
      intro mem
      obtain ⟨other, present, same⟩ := mem_map.mp mem
      exact first other present same

theorem ListedFor.sublist (listed : ListedFor agent atts) (part : fewer.Sublist atts) : ListedFor agent fewer where
  about att mem := listed.about att (part.mem mem)
  byOthers att mem := listed.byOthers att (part.mem mem)
  once := listed.once.sublist (part.map _)

section file

variable {key : AttestationKey}

theorem getForAgent_file (agent : AgentId) : (held.file subject key att).getForAgent agent =
      listedValues held.bySubject (held.attestations.insert key att) agent ++ if agent = subject then [att] else [] :=
  listedValues_pushKey

theorem Indexed.getForAgent_file (indexed : Indexed held) (fresh : held.attestations.lookup key = none)
    (agent : AgentId) :
    (held.file subject key att).getForAgent agent =
      held.getForAgent agent ++ if agent = subject then [att] else [] := by
  rw [AttestationStore.getForAgent_file, listedValues_insert_of_notMem (KeyLists.unlisted indexed fresh agent)]
  rfl

theorem Filed.fresh (indexed : Indexed held) (filed : Filed (held.file subject key att)) :
    held.attestations.lookup key = none := by
  rw [Option.eq_none_iff_forall_ne_some]
  intro old found
  have listed : key ∈ listedKeys held.bySubject old.subjectAgentId :=
    (KeyLists.listed indexed _ key).mpr ⟨old, found, rfl⟩
  have replaced : att ∈ listedValues held.bySubject (held.attestations.insert key att) old.subjectAgentId :=
    mem_filterMap.mpr ⟨key, listed, AList.lookup_insert _⟩
  have here := filed subject
  rw [AttestationStore.getForAgent_file, if_pos rfl, listedFor_concat] at here
  obtain ⟨-, about, -, first⟩ := here
  have there := filed old.subjectAgentId
  rw [AttestationStore.getForAgent_file] at there
  have same := there.about att (mem_append_left _ replaced)
  rw [← same, about] at replaced
  exact first att replaced rfl

theorem filed_file_iff (indexed : Indexed held) (filed : Filed held) :
    Filed (held.file subject (attestationKey prims subject attester) att) ↔ Fits prims held subject attester att := by
  constructor
  · intro after
    have fresh := after.fresh indexed
    have listed := after subject
    rw [indexed.getForAgent_file fresh, if_pos rfl, listedFor_concat] at listed
    obtain ⟨-, about, byOther, first⟩ := listed
    exact ⟨about, byOther, fresh, first⟩
  · intro fits agent
    rw [indexed.getForAgent_file fits.vacant]
    split
    next same =>
      subst same
      exact listedFor_concat.mpr ⟨filed agent, fits.about, fits.byOther, fits.first⟩
    next =>
      rw [append_nil]
      exact filed agent

theorem Indexed.file (indexed : Indexed held) (fits : Fits prims held subject attester att) :
    Indexed (held.file subject (attestationKey prims subject attester) att) := by
  obtain rfl := fits.about
  exact KeyLists.push indexed fits.vacant att

end file

theorem Indexed.evict (indexed : Indexed held) (key : AttestationKey) : Indexed (held.evict key) := by
  unfold AttestationStore.evict
  split
  next att found => exact KeyLists.drop indexed found
  next => exact indexed

theorem Filed.evict (filed : Filed held) (indexed : Indexed held) (key : AttestationKey) : Filed (held.evict key) := by
  unfold AttestationStore.evict
  split
  next att found =>
    intro agent
    exact (filed agent).sublist (KeyLists.listedValues_drop indexed found agent)
  next => exact filed

theorem Indexed.foldl_evict (indexed : Indexed held) (keys : List AttestationKey) :
    Indexed (keys.foldl AttestationStore.evict held) := by
  induction keys generalizing held with
  | nil => exact indexed
  | cons key keys ih => exact ih (indexed.evict key)

theorem Filed.foldl_evict (filed : Filed held) (indexed : Indexed held) (keys : List AttestationKey) :
    Filed (keys.foldl AttestationStore.evict held) := by
  induction keys generalizing held with
  | nil => exact filed
  | cons key keys ih => exact ih (filed.evict indexed key) (indexed.evict key)

theorem answer_store (now : UInt64) : (answer prims held (.store subject attester att now)).2 =
      if att.verify prims now = .ok () ∧ subject ≠ attester then
        held.file subject (attestationKey prims subject attester) att else held := by
  rw [answer]
  split
  next after stored =>
    obtain ⟨verified, others, rfl⟩ := store_eq_ok.mp stored
    rw [if_pos ⟨verified, others⟩]
  next error refused =>
    rw [if_neg]
    intro ⟨verified, others⟩
    rw [store_eq_ok.mpr ⟨verified, others, rfl⟩] at refused
    cases refused

theorem step_filed_iff (indexed : Indexed held) (filed : Filed held) (call : Call) :
    Filed ((machine prims).step held call).2 ↔ FilesRight prims held call := by
  cases call with
  | store subject attester att now =>
    show Filed (answer prims held (.store subject attester att now)).2 ↔ _
    rw [answer_store]
    split
    next stored =>
      rw [filed_file_iff indexed filed]
      exact ⟨fun fits _ _ => fits, fun fits => fits stored.1 stored.2⟩
    next refused => exact iff_of_true filed fun verified others => absurd ⟨verified, others⟩ refused
  | evictExpired pass now => exact iff_of_true (filed.foldl_evict indexed _) trivial

theorem step_indexed (indexed : Indexed held) (call : Call) (right : FilesRight prims held call) :
    Indexed ((machine prims).step held call).2 := by
  cases call with
  | store subject attester att now =>
    show Indexed (answer prims held (.store subject attester att now)).2
    rw [answer_store]
    split
    next stored => exact indexed.file (right stored.1 stored.2)
    next => exact indexed
  | evictExpired pass now => exact indexed.foldl_evict _

/-- Attestations are filed under their subjects, once by each attester, exactly if each fits where
it is stored. -/
theorem filed_iff_filesRight (prims : Primitives) (calls : List Call) :
    (machine prims).Throughout .new (fun _ held => Filed held) calls ↔
      (machine prims).Meets .new (fun _ held call => FilesRight prims held call) calls := by
  apply @Machine.throughout_iff_meets_carrying _ _ _ (machine prims) .new (fun _ held => Indexed held) _ _ fun _ => True
  · exact fun _ _ _ => trivial
  · exact KeyLists.empty
  · intro agent
    exact ⟨nofun, nofun, nodup_nil⟩
  · exact fun _ _ call _ indexed right => step_indexed indexed call right
  · exact fun _ _ call _ indexed filed => step_filed_iff indexed filed call
  · trivial

def storedTwice (att : Attestation) : List Call :=
  [.store att.subjectAgentId att.attesterAgentId att 1, .store att.subjectAgentId att.attesterAgentId att 2]

def sampleAttestation : Attestation :=
  Attestation.sign .standIn (standInKeys 2).secretKey []
    { recordType := attestationTypeV1
      subjectAgentId := .filled 1
      attesterAgentId := deriveAgentId .standIn (standInKeys 2).publicKey
      attesterPublicKey := (standInKeys 2).publicKey
      attestedAt := 0
      expiresAt := 100
      data := ⟨none, none, 1, 50, none⟩
      signature := [] }

/-- What is stored twice is listed twice. -/
theorem storedTwice_not_filed :
    ¬ (machine .standIn).Throughout .new (fun _ held => Filed held) (storedTwice sampleAttestation) := by
  intro throughout
  have filed := throughout _ (prefix_refl _) sampleAttestation.subjectAgentId
  exact absurd filed.once (by decide +kernel)

end AttestationStore

end Aafp.Identity
