import Aafp.Foundation.Machine
import Aafp.Identity.RevocationDistribution

/-! Runs of nodes that publish revocation lists to each other and pass on what they have merged. -/
namespace Aafp.Identity

open Foundation Crypto RevocationStore

def RevocationEntry.IsSigned (prims : Primitives) (entry : RevocationEntry) : Prop :=
  ∃ publicKey, deriveAgentId prims publicKey = entry.revokingKeyId ∧ entry.verify prims publicKey = true

inductive RevocationCall (Node : Type) where
  | request (node : Node) (method : String) (params : List UInt8) (now clock : UInt64)
  | receiveCrl (node : Node) (crl : RevocationList) (now : UInt64)
  | evictExpired (node : Node) (now : UInt64)
  /-- The sender makes its current list at one time and the receiver merges it at another. -/
  | gossip (sender receiver : Node) (pass : IterationOrder AgentId Unit) (sent now : UInt64)

def RevocationCall.now {Node : Type} : RevocationCall Node → UInt64
  | request _ _ _ now _ | receiveCrl _ _ now | evictExpired _ now | gossip _ _ _ _ now => now

inductive RevocationAnswer where
  | response (result : Except RevocationDistError (List UInt8))
  | added (fresh : Bool)
  | evicted

/-- The store of each node, and all lists that have reached a node: no function
reads these. -/
structure RevocationNetwork (Node : Type) where
  store : Node → RevocationStore
  received : List (Node × RevocationList)

inductive Hearing where
  | itself
  | everyone

def Hearing.counts {Node : Type} (hearing : Hearing) (node other : Node) : Prop :=
  match hearing with
  | itself => other = node
  | everyone => True

namespace RevocationNetwork

variable {Node : Type}

def empty : RevocationNetwork Node := { store := fun _ => .new, received := [] }

def delivery (network : RevocationNetwork Node) : RevocationCall Node → Option (Node × RevocationList)
  | .request node method params _ _ =>
    (broughtBy method params).map fun crl => (node, crl)
  | .receiveCrl node crl _ => some (node, crl)
  | .evictExpired _ _ => none
  | .gossip sender receiver pass sent _ => some (receiver, (network.store sender).getCurrentCrl pass sent)

def hears (network : RevocationNetwork Node) (call : RevocationCall Node) : List (Node × RevocationList) :=
  network.received ++ (network.delivery call).toList

/-- Among the lists that count for a node, one has a signed entry for the agent. -/
def SignedIn (prims : Primitives) (hearing : Hearing) (received : List (Node × RevocationList))
    (node : Node) (agentId : AgentId) : Prop :=
  ∃ heard ∈ received, hearing.counts node heard.1 ∧
    ∃ entry ∈ heard.2.entries, entry.agentId = agentId ∧ entry.IsSigned prims

/-- A node takes an agent for revoked only if it was revoked with a signature. -/
def RevokesSigned (prims : Primitives) (hearing : Hearing) (network : RevocationNetwork Node) : Prop :=
  ∀ node agentId, (network.store node).isRevoked agentId = true →
    SignedIn prims hearing network.received node agentId

/-- A list that has not expired brings only agents that were revoked with a signature,
in this list or in one before it. -/
def BringsSigned (prims : Primitives) (hearing : Hearing) (network : RevocationNetwork Node)
    (call : RevocationCall Node) : Prop :=
  ∀ node crl, network.delivery call = some (node, crl) → crl.isExpired call.now = false →
    ∀ agentId ∈ crl.revokedIds, SignedIn prims hearing (network.hears call) node agentId

variable [DecidableEq Node]

def setStore (network : RevocationNetwork Node) (node : Node) (store : RevocationStore) : Node → RevocationStore :=
  Function.update network.store node store

def step (network : RevocationNetwork Node) (call : RevocationCall Node) :
    RevocationAnswer × RevocationNetwork Node :=
  let received := network.hears call
  match call with
  | .request node method params now clock =>
    let handled := (network.store node).handleRequest method params now clock
    (.response handled.1, { store := network.setStore node handled.2, received })
  | .receiveCrl node crl now =>
    let merged := (network.store node).receiveCrl crl now
    (.added merged.1, { store := network.setStore node merged.2, received })
  | .evictExpired node now =>
    let store := (network.store node).evictExpired now
    (.evicted, { store := network.setStore node store, received })
  | .gossip sender receiver pass sent now =>
    let crl := (network.store sender).getCurrentCrl pass sent
    let merged := (network.store receiver).receiveCrl crl now
    (.added merged.1, { store := network.setStore receiver merged.2, received })

def machine : Machine (RevocationCall Node) RevocationAnswer (RevocationNetwork Node) := ⟨step⟩

inductive Effect (network : RevocationNetwork Node) (call : RevocationCall Node) :
    (Node → RevocationStore) → Prop where
  | merged (reaches : network.delivery call = some (node, crl)) (valid : crl.isExpired call.now = false) :
      Effect network call (network.setStore node ((network.store node).addCrl crl))
  | evicted (nothing : network.delivery call = none) :
      Effect network call (network.setStore node ((network.store node).evictExpired now))
  | unchanged (none : ∀ node crl, network.delivery call = some (node, crl) →
      crl.isExpired call.now = true) : Effect network call network.store

variable (network : RevocationNetwork Node)

@[simp] theorem setStore_self (node : Node) : network.setStore node (network.store node) = network.store :=
  Function.update_eq_self node network.store

theorem step_received (call : RevocationCall Node) : (network.step call).2.received = network.hears call := by
  cases call <;> rfl

private theorem effect_receiveCrl {network : RevocationNetwork Node}
    (reaches : network.delivery call = some (node, crl)) :
    Effect network call (network.setStore node ((network.store node).receiveCrl crl call.now).2) := by
  unfold receiveCrl
  split
  case isTrue expired =>
    rw [setStore_self]
    apply Effect.unchanged
    intro other otherCrl again
    rw [reaches] at again
    cases again
    exact expired
  case isFalse valid => exact .merged reaches (Bool.eq_false_iff.mpr valid)

theorem step_effect (call : RevocationCall Node) : Effect network call (network.step call).2.store := by
  cases call with
  | receiveCrl node crl now => exact effect_receiveCrl rfl
  | evictExpired node now => exact .evicted rfl
  | gossip sender receiver pass sent now => exact effect_receiveCrl rfl
  | request node method params now clock =>
    let call := RevocationCall.request node method params now clock
    cases brought : broughtBy method params with
    | none =>
      have nothing : network.delivery call = none := by simp [call, delivery, brought]
      simp only [step, handleRequest_of_none _ brought, setStore_self]
      apply Effect.unchanged
      intro node crl reaches
      rw [nothing] at reaches
      cases reaches
    | some crl =>
      simp only [step, handleRequest_of_brought _ brought]
      have reaches : network.delivery call = some (node, crl) := by simp [call, delivery, brought]
      exact effect_receiveCrl reaches

theorem revokesSigned_step_iff {network : RevocationNetwork Node}
    (before : network.RevokesSigned prims hearing) (call : RevocationCall Node) :
    (network.step call).2.RevokesSigned prims hearing ↔ network.BringsSigned prims hearing call := by
  have earlier : ∀ node agentId, (network.store node).isRevoked agentId = true →
      SignedIn prims hearing (network.hears call) node agentId := by
    intro node agentId revoked
    obtain ⟨heard, mem, rest⟩ := before node agentId revoked
    exact ⟨heard, List.mem_append_left _ mem, rest⟩
  have effect := network.step_effect call
  simp only [RevokesSigned, step_received]
  generalize (network.step call).2.store = stores at effect ⊢
  cases effect with
  | @merged receiver list reaches valid =>
    constructor
    · intro signed node crl again _ agentId listed
      cases reaches.symm.trans again
      apply signed receiver agentId
      simp [setStore, listed]
    · intro brings node agentId revoked
      by_cases same : node = receiver
      · subst same
        simp only [setStore, Function.update_self, isRevoked_addCrl] at revoked
        rcases revoked with old | listed
        · exact earlier node agentId old
        · exact brings node list reaches valid agentId listed
      · simp only [setStore, Function.update_of_ne same] at revoked
        exact earlier node agentId revoked
  | @evicted evicting now nothing =>
    refine iff_of_true ?_ ?_
    · intro node agentId revoked
      apply earlier node agentId
      by_cases same : node = evicting
      · subst same
        simp only [setStore, Function.update_self] at revoked
        exact isRevoked_of_evictExpired revoked
      · simpa only [setStore, Function.update_of_ne same] using revoked
    · intro node crl reaches
      rw [nothing] at reaches
      cases reaches
  | unchanged rejected =>
    refine iff_of_true earlier ?_
    intro node crl reaches valid
    rw [rejected node crl reaches] at valid
    cases valid

/-- Only signed revocations revoke throughout a run exactly if every list that is merged in it
brings signed revocations. -/
theorem signed_revocations_iff (prims : Primitives) (hearing : Hearing) (calls : List (RevocationCall Node)) :
    machine.Throughout .empty (fun _ network => network.RevokesSigned prims hearing) calls ↔
      machine.Meets .empty (fun _ network call => network.BringsSigned prims hearing call) calls := by
  apply @Machine.throughout_iff_meets _ _ _ machine .empty (fun _ _ => True)
  · trivial
  · intro node agentId revoked
    simp [empty] at revoked
  · intros
    trivial
  · intro _ network call _ before
    exact revokesSigned_step_iff before call

def forgedCrl (victim : AgentId) : RevocationList :=
  { RevocationList.new 1000 defaultCrlTtlSecs with
    entries := [⟨victim, 1000, some "compromised", victim, []⟩] }

def forgedRun : List (RevocationCall Bool) :=
  [.receiveCrl false (forgedCrl (Bytes32.filled 1)) 1000, .gossip false true .inOrder 1010 1020]

theorem forged_revocation_spreads :
    ((machine.after .empty forgedRun).store true).isRevoked (Bytes32.filled 1) = true ∧
      ¬ machine.Throughout .empty (fun _ network => network.RevokesSigned .standIn .everyone) forgedRun ∧
      ¬ machine.Throughout .empty (fun _ network => network.RevokesSigned .standIn .itself) forgedRun := by
  have revoked :
      ((machine.after .empty forgedRun).store true).isRevoked (Bytes32.filled 1) = true := by decide
  have short : ∀ heard ∈ (machine.after .empty forgedRun).received, ∀ entry ∈ heard.2.entries,
      entry.signature.length ≠ mlDsa65SignatureLen := by decide
  have unsigned : ∀ hearing, ¬ machine.Throughout .empty
      (fun _ network => network.RevokesSigned .standIn hearing) forgedRun := by
    intro hearing throughout
    have last := throughout forgedRun (List.prefix_refl _)
    obtain ⟨heard, mem, -, entry, inside, -, publicKey, -, signed⟩ := last true (Bytes32.filled 1) revoked
    simp [RevocationEntry.verify, Primitives.verify, short heard mem entry inside] at signed
  exact ⟨revoked, unsigned .everyone, unsigned .itself⟩

end RevocationNetwork

end Aafp.Identity
