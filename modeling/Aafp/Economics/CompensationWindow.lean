import Aafp.Economics.CompensationRuns
import Aafp.Foundation.SlidingWindow

/-! The rate limit of the compensation protocol. -/
namespace Aafp.Economics

open Foundation

namespace CompensationProtocol

inductive Operation where
  | call (call : Call)
  | evictExpired (now : UInt64)

def Call.now? : Call → Option UInt64
  | .requestCompensation _ _ _ _ now => some now
  | .requestCompensationWithId _ _ _ _ _ now => some now
  | .approveCompensation _ => none
  | .rejectCompensation _ _ => none
  | .disputeCompensation _ _ _ now => some now
  | .assignArbiter _ _ => none
  | .resolveDispute _ _ _ => none
  | .processPayment _ now => some now
  | .processBatch _ now => some now

def Operation.now? : Operation → Option UInt64
  | .call operation => operation.now?
  | .evictExpired now => some now

structure Approval where
  comp : Compensation
  time : UInt64

def approvedAt (now : UInt64) (comps : List Compensation) : List Approval := comps.map fun comp => ⟨comp, now⟩

/-- The compensation under an id, if it is marked as approved by the policy and was not before. -/
def marked (before after : CompensationProtocol) (id : String) : List Compensation :=
  match after.compensations.lookup id with
  | none => []
  | some comp =>
    if comp.autoApproved && !(before.compensations.lookup id).any (·.autoApproved) then [comp] else []

def markedInRounds (now : UInt64) : CompensationProtocol × BatchResult → List String → List Compensation
  | _, [] => []
  | state, id :: ids =>
    marked state.1 (batchRound now state id).1 id ++ markedInRounds now (batchRound now state id) ids

/-- The compensation of a request, if the policy approved it. -/
def approvedRequest : Except Interruption Compensation → List Compensation
  | .ok comp => if comp.autoApproved then [comp] else []
  | .error _ => []

/-- The approvals that a call gives. Only requests and batches ask the policy. -/
def autoApproved (protocol : CompensationProtocol) : Call → List Approval
  | .requestCompensation taskId agentId amountMilli reason now =>
    approvedAt now (approvedRequest (protocol.requestCompensation taskId agentId amountMilli reason now).1)
  | .requestCompensationWithId id taskId agentId amountMilli reason now =>
    approvedAt now (approvedRequest (protocol.requestCompensationWithId id taskId agentId amountMilli reason now).1)
  | .processBatch pass now =>
    approvedAt now
      (markedInRounds now (protocol, ⟨0, 0, 0, 0⟩) ((pass.iterate protocol.compensations).map Sigma.fst))
  | _ => []

/-- Runs of the protocol, in which an operation answers with the approvals that it gives. -/
def approver : Machine Operation (List Approval) CompensationProtocol where
  step protocol
    | .call call => (protocol.autoApproved call, (machine.step protocol call).2)
    | .evictExpired now => ([], protocol.evictExpired now)

def started (policy : CompensationPolicy) (account : Option ResourceAccount) : CompensationProtocol :=
  { new policy with account }

def approvals (log : List (Operation × List Approval)) : List Approval := log.flatMap Prod.snd

/-- What waits for a decision was not approved by the policy. -/
def Undecided (protocol : CompensationProtocol) : Prop :=
  ∀ id comp, protocol.compensations.lookup id = some comp → comp.status = .pending → comp.autoApproved = false

inductive Decides (now : UInt64) (before after : CompensationProtocol) : List Compensation → Prop where
  | nothing (policy : after.policy = before.policy)
      (history : after.autoApprovalHistory = before.autoApprovalHistory) : Decides now before after []
  | approves (comp : Compensation) (policy : after.policy = before.policy)
      (history : after.autoApprovalHistory = (before.recordAutoApproval comp.agentId now).autoApprovalHistory)
      (allowed : before.policy.shouldAutoApprove comp.amountMilli comp.reason
        (before.countRecentAutoApprovals comp.agentId now) = true) : Decides now before after [comp]

theorem Decides.policy (decides : Decides now before after approved) : after.policy = before.policy := by
  cases decides with
  | nothing policy => exact policy
  | approves comp policy => exact policy

section undecided

variable {before after : CompensationProtocol} {id : String} {comp later : Compensation}

theorem Undecided.insert (undecided : Undecided before)
    (compensations : after.compensations = before.compensations.insert id later)
    (decided : later.status = .pending → later.autoApproved = false) : Undecided after := by
  rw [Undecided, compensations]
  exact forall_lookup_insert undecided decided

theorem marked_insert (found : before.compensations.lookup id = some comp)
    (compensations : after.compensations = before.compensations.insert id later)
    (same : later.autoApproved = comp.autoApproved) : marked before after id = [] := by
  simp [marked, compensations, found, same]

theorem marked_self (protocol : CompensationProtocol) (id : String) : marked protocol protocol id = [] := by
  unfold marked
  split
  · rfl
  next found => simp [found]

end undecided

structure Leaves (before after : CompensationProtocol) (id : String) : Prop where
  policy : after.policy = before.policy
  history : after.autoApprovalHistory = before.autoApprovalHistory
  unmarked : marked before after id = []
  undecided : Undecided before → Undecided after

section operations

variable (protocol : CompensationProtocol) (id : String) (now : UInt64)

theorem Leaves.refl : Leaves protocol protocol id := ⟨rfl, rfl, marked_self protocol id, fun undecided => undecided⟩

theorem onCompensation_leaves (expected : String) (same : ∀ comp, (change comp).autoApproved = comp.autoApproved)
    (decided : ∀ comp, comp.status ∈ allowed → (change comp).status ≠ .pending) :
    Leaves protocol (protocol.onCompensation id allowed expected change).2 id := by
  rcases protocol.onCompensation_cases id allowed expected change with ⟨error, refused⟩ | ⟨comp, found, status, done⟩
  · rw [refused]
    exact .refl protocol id
  · rw [done]
    refine ⟨rfl, rfl, marked_insert found rfl (same comp), fun undecided => undecided.insert rfl ?_⟩
    intro pending
    exact absurd pending (decided comp status)

theorem rejectCompensation_leaves (reason : String) : Leaves protocol (protocol.rejectCompensation id reason).2 id :=
  protocol.onCompensation_leaves id _ (fun _ => rfl) fun _ _ => nofun

theorem processPayment_leaves : Leaves protocol (protocol.processPayment id now).2 id := by
  have paid : Leaves protocol (protocol.onCompensation id [.approved] "Approved" fun comp =>
      { comp with
        status := .paid
        paidAt := some now }).2 id :=
    protocol.onCompensation_leaves id _ (fun _ => rfl) fun _ _ => nofun
  unfold processPayment
  split
  next refused => rwa [refused] at paid
  next done =>
    rw [done] at paid
    exact ⟨paid.policy, paid.history, paid.unmarked, paid.undecided⟩

section

variable (taskId agentId : String) (amountMilli : Int64) (reason : CompensationReason)
include taskId agentId amountMilli reason

theorem submit_decides :
    let submitted := protocol.submit (.new id taskId agentId amountMilli reason now) now
    Decides now protocol submitted.2 (approvedRequest (.ok submitted.1)) ∧
      (Undecided protocol → Undecided submitted.2) := by
  unfold submit
  simp only
  split
  next allowed =>
    refine ⟨.approves _ rfl rfl allowed, fun undecided => undecided.insert rfl ?_⟩
    exact nofun
  · exact ⟨.nothing rfl rfl, fun undecided => undecided.insert rfl fun _ => rfl⟩

theorem requestCompensation_decides :
    let requested := protocol.requestCompensation taskId agentId amountMilli reason now
    Decides now protocol requested.2 (approvedRequest requested.1) ∧ (Undecided protocol → Undecided requested.2) := by
  unfold requestCompensation nextId
  cases protocol.policy.checkAmount amountMilli with
  | error error => exact ⟨.nothing rfl rfl, fun undecided => undecided⟩
  | ok =>
    split_ifs
    · exact ⟨.nothing rfl rfl, fun undecided => undecided⟩
    · obtain ⟨decides, kept⟩ := submit_decides
        { protocol with idCounter := protocol.idCounter + 1 } protocol.nextLabel now taskId agentId
        amountMilli reason
      refine ⟨?_, kept⟩
      generalize approvedRequest _ = approved at decides
      cases decides with
      | nothing policy history => exact .nothing policy history
      | approves comp policy history allowed => exact .approves comp policy history allowed

theorem requestCompensationWithId_decides :
    let requested := protocol.requestCompensationWithId id taskId agentId amountMilli reason now
    Decides now protocol requested.2 (approvedRequest requested.1) ∧ (Undecided protocol → Undecided requested.2) := by
  unfold requestCompensationWithId
  cases protocol.policy.checkAmount amountMilli with
  | error error => exact ⟨.nothing rfl rfl, fun undecided => undecided⟩
  | ok =>
    simp only
    split
    · exact ⟨.nothing rfl rfl, fun undecided => undecided⟩
    · exact protocol.submit_decides id now taskId agentId amountMilli reason

end

end operations

/-- What a round of a batch does: it decides on the compensation under its id. -/
structure RoundDecides (now : UInt64) (id : String) (before after : CompensationProtocol) : Prop where
  decides : Decides now before after (marked before after id)
  undecided : Undecided after

section batches

variable {now : UInt64} {id : String} {before after protocol : CompensationProtocol} {comp : Compensation}

theorem Leaves.decides (leaves : Leaves before after id) (undecided : Undecided before) :
    RoundDecides now id before after := by
  refine ⟨?_, leaves.undecided undecided⟩
  rw [leaves.unmarked]
  exact .nothing leaves.policy leaves.history

theorem settle_decides (undecided : Undecided protocol) (found : protocol.compensations.lookup id = some comp)
    (pending : comp.status = .pending) (allowed : protocol.policy.shouldAutoApprove comp.amountMilli comp.reason
      (protocol.countRecentAutoApprovals comp.agentId now) = true) :
    RoundDecides now id protocol ((protocol.recordAutoApproval comp.agentId now).settle id now comp true) := by
  have unmarked := undecided id comp found pending
  constructor
  · simp only [marked, settle, AList.lookup_insert, found, Option.any_some, unmarked, Bool.not_false, Bool.and_self,
      if_true]
    exact .approves _ rfl rfl allowed
  · exact undecided.insert rfl (by rintro ⟨⟩)

theorem batchRound_decides (state : CompensationProtocol × BatchResult) (undecided : Undecided state.1) :
    RoundDecides now id state.1 (batchRound now state id).1 := by
  obtain ⟨protocol, result⟩ := state
  rw [batchRound_eq]
  split
  · exact (Leaves.refl protocol id).decides undecided
  next comp found =>
    split
    next pending =>
      split_ifs with large allowed
      · exact (protocol.rejectCompensation_leaves id _).decides undecided
      · exact settle_decides undecided found pending allowed
      · exact (Leaves.refl protocol id).decides undecided
    · refine Leaves.decides ⟨rfl, rfl, ?_, fun undecided => ?_⟩ undecided
      · exact marked_insert found rfl rfl
      · exact undecided.insert rfl nofun
    · exact (Leaves.refl protocol id).decides undecided

end batches

def approvalTimes (agent : String) (approved : List Approval) : List Nat :=
  timesOf Approval.time (approved.filter fun approval => approval.comp.agentId = agent)

def keptApprovals (protocol : CompensationProtocol) (agent : String) : List Nat :=
  timesOf id ((protocol.autoApprovalHistory.lookup agent).getD [])

def Permits (policy : CompensationPolicy) (comp : Compensation) : Prop :=
  comp.amountMilli ≤ policy.autoApproveThresholdMilli ∧ (comp.reason = .slashing → policy.autoApproveSlashing = true)

/-- At a time, the protocol knows enough of all approvals so far, which the policy permits. -/
structure Limits (policy : CompensationPolicy) (time : Nat) (protocol : CompensationProtocol)
    (approved : List Approval) : Prop where
  configured : protocol.policy = policy
  undecided : Undecided protocol
  permitted : ∀ approval ∈ approved, Permits policy approval.comp
  tracked : ∀ agent, Tracks policy.rateLimitWindowMs.toNat policy.autoApproveRateLimit.toNat time
    (protocol.keptApprovals agent) (approvalTimes agent approved)

theorem shouldAutoApprove_eq_true {policy : CompensationPolicy} {amountMilli : Int64} {reason : CompensationReason} :
    policy.shouldAutoApprove amountMilli reason recent = true ↔
      (amountMilli ≤ policy.autoApproveThresholdMilli ∧ (reason = .slashing → policy.autoApproveSlashing = true)) ∧
        ¬ policy.autoApproveRateLimit ≤ recent := by
  unfold CompensationPolicy.shouldAutoApprove
  split
  next refused => simp [refused]
  next open_ =>
    split
    next large => simp [Int64.not_le.mpr large]
    next small =>
      have slashing : reason = .slashing → policy.autoApproveSlashing = true := by
        intro same
        simpa [same] using open_
      rw [and_iff_right ⟨Int64.not_lt.mp small, slashing⟩]
      simp

section limits

variable {policy : CompensationPolicy} {time : Nat} {now : UInt64} {protocol before after : CompensationProtocol}
  {approved : List Approval} {more : List Compensation}

theorem Limits.later {time later : Nat} (limits : Limits policy time protocol approved) (passed : time ≤ later) :
    Limits policy later protocol approved :=
  ⟨limits.configured, limits.undecided, limits.permitted, fun agent => (limits.tracked agent).later passed⟩

theorem Limits.leaves {id : String} (limits : Limits policy time before approved) (leaves : Leaves before after id) :
    Limits policy time after (approved ++ []) := by
  rw [List.append_nil]
  refine ⟨leaves.policy.trans limits.configured, leaves.undecided limits.undecided, limits.permitted, fun agent => ?_⟩
  rw [keptApprovals, leaves.history]
  exact limits.tracked agent

theorem Limits.evictExpired (limits : Limits policy now.toNat protocol approved) :
    Limits policy now.toNat (protocol.evictExpired now) approved := by
  refine ⟨limits.configured, limits.undecided, limits.permitted, fun agent => ?_⟩
  have kept : (protocol.evictExpired now).keptApprovals agent =
      (protocol.keptApprovals agent).filter (within policy.rateLimitWindowMs.toNat now.toNat) := by
    rw [keptApprovals, CompensationProtocol.evictExpired, lookup_mapValues, ← limits.configured]
    rw [keptApprovals, ← timesOf_recent (limits.tracked agent).keptPast]
    cases protocol.autoApprovalHistory.lookup agent <;> rfl
  rw [kept]
  exact (limits.tracked agent).prune

theorem keptApprovals_recordAutoApproval (protocol : CompensationProtocol) (approved agent : String) (now : UInt64) :
    (protocol.recordAutoApproval approved now).keptApprovals agent =
      if approved = agent then protocol.keptApprovals agent ++ [now.toNat] else protocol.keptApprovals agent := by
  unfold keptApprovals recordAutoApproval
  rw [lookup_insert_ite]
  split
  · subst approved
    simp [timesOf]
  · rfl

theorem Limits.decides (limits : Limits policy now.toNat before approved) (decides : Decides now before after more)
    (undecided : Undecided after) : Limits policy now.toNat after (approved ++ approvedAt now more) := by
  refine ⟨decides.policy.trans limits.configured, undecided, ?_, ?_⟩
  · intro approval mem
    rcases List.mem_append.mp mem with old | own
    · exact limits.permitted approval old
    · cases decides with
      | nothing policy history => cases own
      | approves comp policy history allowed =>
        rw [List.mem_singleton.mp own, ← limits.configured]
        exact (shouldAutoApprove_eq_true.mp allowed).1
  · intro agent
    have tracks := limits.tracked agent
    cases decides with
    | nothing policy history =>
      have kept : after.keptApprovals agent = before.keptApprovals agent := by
        rw [keptApprovals, history, keptApprovals]
      rw [kept]
      simpa [approvalTimes, approvedAt, timesOf] using tracks
    | approves comp policy history allowed =>
      have kept : after.keptApprovals agent = (before.recordAutoApproval comp.agentId now).keptApprovals agent := by
        rw [keptApprovals, history, keptApprovals]
      rw [kept, keptApprovals_recordAutoApproval]
      by_cases same : comp.agentId = agent
      · subst same
        have free := (shouldAutoApprove_eq_true.mp allowed).2
        rw [countRecentAutoApprovals, limits.configured] at free
        have recorded := tracks.record (tracks.room free)
        simpa [approvalTimes, approvedAt, timesOf] using recorded
      · simpa [same, approvalTimes, approvedAt, timesOf] using tracks

theorem Limits.rounds {state : CompensationProtocol × BatchResult} (limits : Limits policy now.toNat state.1 approved)
    (ids : List String) : Limits policy now.toNat (ids.foldl (batchRound now) state).1
      (approved ++ approvedAt now (markedInRounds now state ids)) := by
  induction ids generalizing state approved with
  | nil => simpa [markedInRounds, approvedAt] using limits
  | cons id ids ih =>
    obtain ⟨decides, undecided⟩ := @batchRound_decides now id state limits.undecided
    have further := ih (limits.decides decides undecided)
    simpa [markedInRounds, approvedAt] using further

theorem Limits.step {time : UInt64} (limits : Limits policy time.toNat protocol approved) (operation : Operation)
    (current : ∀ now, operation.now? = some now → now = time) :
    Limits policy time.toNat (approver.step protocol operation).2
      (approved ++ (approver.step protocol operation).1) := by
  cases operation with
  | evictExpired now =>
    cases current now rfl
    simpa [approver] using limits.evictExpired
  | call call =>
    cases call with
    | requestCompensation taskId agentId amountMilli reason now =>
      cases current now rfl
      obtain ⟨decides, undecided⟩ := protocol.requestCompensation_decides time taskId agentId amountMilli reason
      exact limits.decides decides (undecided limits.undecided)
    | requestCompensationWithId id taskId agentId amountMilli reason now =>
      cases current now rfl
      obtain ⟨decides, undecided⟩ :=
        protocol.requestCompensationWithId_decides id time taskId agentId amountMilli reason
      exact limits.decides decides (undecided limits.undecided)
    | approveCompensation id | rejectCompensation id | disputeCompensation id =>
      exact limits.leaves (protocol.onCompensation_leaves id _ (fun _ => rfl) fun _ _ => nofun)
    | assignArbiter id =>
      refine limits.leaves (protocol.onCompensation_leaves id _ (fun _ => rfl) fun comp disputed => ?_)
      simp only [List.mem_singleton] at disputed
      simp [disputed]
    | resolveDispute id approve =>
      refine limits.leaves (protocol.onCompensation_leaves id _ (fun _ => rfl) fun _ _ => ?_)
      cases approve <;> exact nofun
    | processPayment id now => exact limits.leaves (protocol.processPayment_leaves id now)
    | processBatch pass now =>
      cases current now rfl
      exact @Limits.rounds policy time approved (protocol, ⟨0, 0, 0, 0⟩) limits _

end limits

/-- If the clock never goes back, no window of a run holds more approvals for an agent than allowed.
-/
theorem countP_approvals_le (policy : CompensationPolicy) (account : Option ResourceAccount)
    (operations : List Operation) (ordered : (operations.filterMap Operation.now?).Pairwise (· ≤ ·)) :
    (∀ agent time, (approvals (approver.log (started policy account) operations)).countP (fun approval =>
      approval.comp.agentId = agent && within policy.rateLimitWindowMs.toNat time approval.time.toNat) ≤
        policy.autoApproveRateLimit.toNat) ∧
    ∀ approval ∈ approvals (approver.log (started policy account) operations),
      approval.comp.amountMilli ≤ policy.autoApproveThresholdMilli ∧
        (approval.comp.reason = .slashing → policy.autoApproveSlashing = true) := by
  have held := @Machine.invariant_clocked _ _ _ approver (started policy account) UInt64 _ Operation.now?
    fun time past protocol => Limits policy time.toNat protocol (approvals past)
  have limits := held ?_ ?_ ?_ operations ordered u64Max fun now _ => le_u64Max now
  · refine ⟨fun agent time => ?_, limits.permitted⟩
    have few := (limits.tracked agent).limited time
    rw [approvalTimes, timesOf, List.countP_map, List.countP_filter] at few
    simpa [Function.comp_def, Bool.and_comm] using few
  · exact fun time => ⟨rfl, forall_lookup_empty, by simp [approvals], fun agent => tracks_nil _ _ _⟩
  · intro time after past protocol passed limits
    exact limits.later (UInt64.le_iff_toNat_le.mp passed)
  · intro time past protocol operation current limits
    have gathered : approvals (past ++ [(operation, (approver.step protocol operation).1)]) =
        approvals past ++ (approver.step protocol operation).1 := by simp [approvals]
    rw [gathered]
    exact limits.step operation current

def approvingRun : List Operation :=
  [.call (.requestCompensation "first" "alice" 5000 .taskFailure 0),
    .call (.requestCompensation "second" "alice" 20000 .timeout 1), .call (.processBatch .inOrder 2), .evictExpired 3]

theorem countP_approvals_le_approvingRun : (approvingRun.filterMap Operation.now?).Pairwise (· ≤ ·) ∧
      (approvals (approver.log (started .default none) approvingRun)).countP (fun approval =>
        approval.comp.agentId = "alice" &&
          within CompensationPolicy.default.rateLimitWindowMs.toNat 2 approval.time.toNat) ≤ 10 :=
  have ordered : (approvingRun.filterMap Operation.now?).Pairwise (· ≤ ·) := by decide
  ⟨ordered, (countP_approvals_le .default none approvingRun ordered).1 "alice" 2⟩

end CompensationProtocol

end Aafp.Economics
