import Aafp.Routing.Router
import Aafp.Routing.CircuitRuns

/-! What a request for a routing slot costs, and where a probe is lost. -/
namespace Aafp.Routing

open Foundation Identity AList

namespace CircuitEntry

def usedProbes (entry : CircuitEntry) : Nat :=
  if entry.state = .halfOpen then entry.halfOpenProbes.toNat else 0

def letThrough (entry : CircuitEntry) : CircuitEntry :=
  if entry.state = .halfOpen then { entry with halfOpenProbes := entry.halfOpenProbes + 1 } else entry

/-- A request is let through in Closed, and in HalfOpen while there are probes. -/
def LetsThrough (entry : CircuitEntry) (config : CircuitBreakerConfig) : Prop :=
  entry.state = .closed ∨ entry.state = .halfOpen ∧ entry.halfOpenProbes < config.halfOpenMaxProbes

variable {entry : CircuitEntry} {config : CircuitBreakerConfig} {now : Instant}

theorem usedProbes_maybeHalfOpen (entry : CircuitEntry) (config : CircuitBreakerConfig) (now : Instant) :
    (entry.maybeHalfOpen config now).usedProbes = entry.usedProbes := by
  unfold maybeHalfOpen
  split
  next due => simp [usedProbes, due.1]
  · rfl

theorem letThrough_state (entry : CircuitEntry) : entry.letThrough.state = entry.state := by
  rw [letThrough]
  split <;> rfl

theorem usedProbes_letThrough (letsThrough : entry.LetsThrough config) (halfOpen : entry.state = .halfOpen) :
    entry.letThrough.usedProbes = entry.usedProbes + 1 := by
  obtain closed | ⟨_, free⟩ := letsThrough
  · cases halfOpen.symm.trans closed
  · rw [usedProbes, usedProbes, letThrough_state, if_pos halfOpen, if_pos halfOpen, letThrough, if_pos halfOpen]
    exact toNat_succ_of_lt free

theorem acquire_of_letsThrough (letsThrough : (entry.maybeHalfOpen config now).LetsThrough config) :
    entry.acquire config now =
      (((entry.maybeHalfOpen config now).state, true), (entry.maybeHalfOpen config now).letThrough) := by
  rw [acquire]
  obtain closed | ⟨halfOpen, free⟩ := letsThrough
  · simp [letThrough, closed]
  · simp [letThrough, halfOpen, free]

theorem acquire_of_not_letsThrough (refused : ¬ (entry.maybeHalfOpen config now).LetsThrough config) :
    entry.acquire config now = (((entry.maybeHalfOpen config now).state, false), entry.maybeHalfOpen config now) ∧
        (entry.maybeHalfOpen config now).state ≠ .closed := by
  rw [LetsThrough, not_or, not_and] at refused
  obtain ⟨notClosed, used⟩ := refused
  refine ⟨?_, notClosed⟩
  rw [acquire]
  cases state : (entry.maybeHalfOpen config now).state with
  | closed => exact absurd state notClosed
  | opened => rfl
  | halfOpen => simp [used state]

end CircuitEntry

namespace AdaptiveRouter

variable {router : AdaptiveRouter} {now : Instant} {agentId : AgentId}

def circuitAt (router : AdaptiveRouter) (now : Instant) (agentId : AgentId) : CircuitEntry :=
  (router.circuits.entry now agentId).maybeHalfOpen router.circuits.config now

/-- The probes that the circuit of a peer still allows: what is left of the present HalfOpen
period, or all of the next one. -/
def remainingProbes (router : AdaptiveRouter) (now : Instant) (agentId : AgentId) : Nat :=
  router.circuits.config.halfOpenMaxProbes.toNat - (router.circuitAt now agentId).usedProbes

/-- The `in_flight` metric of a peer, which is zero until the peer has metrics. -/
def inFlight (router : AdaptiveRouter) (agentId : AgentId) : UInt32 :=
  ((router.metrics.peers.lookup agentId).map PeerMetrics.inFlight).getD 0

structure Standing where
  probes : Nat
  bulkhead : UInt32
  inFlight : UInt32

def standing (router : AdaptiveRouter) (now : Instant) (agentId : AgentId) : Standing :=
  ⟨router.remainingProbes now agentId, router.bulkhead.inFlight agentId, router.inFlight agentId⟩

/-- A refused request changes nothing. A granted one is counted in the bulkhead and in the metrics,
until its slot is dropped. -/
def Standing.Fair (before : Standing) (now : Instant) (agentId : AgentId) :
    Except SdkError RoutingSlot × AdaptiveRouter → Prop
  | (.error _, after) => after.standing now agentId = before
  | (.ok slot, after) =>
    (after.bulkhead.inFlight agentId).toNat = before.bulkhead.toNat + 1 ∧
      (after.inFlight agentId).toNat = before.inFlight.toNat + 1 ∧
      (after.dropSlot slot).bulkhead.inFlight agentId = before.bulkhead ∧
      (after.dropSlot slot).inFlight agentId = before.inFlight

def BulkheadFull (router : AdaptiveRouter) (agentId : AgentId) : Prop :=
  router.bulkhead.inFlight agentId ≥ router.bulkhead.maxPerPeer

instance : Decidable (router.BulkheadFull agentId) := inferInstanceAs (Decidable (_ ≥ _))

/-- A request takes a probe, and finds no place in the bulkhead. -/
def ProbeLost (router : AdaptiveRouter) (now : Instant) (agentId : AgentId) : Prop :=
  (router.circuitAt now agentId).state = .halfOpen ∧
    (router.circuitAt now agentId).LetsThrough router.circuits.config ∧ router.BulkheadFull agentId

/-- A request finds a place in the bulkhead, and the metric can count no further. -/
def MetricFull (router : AdaptiveRouter) (now : Instant) (agentId : AgentId) : Prop :=
  (router.circuitAt now agentId).LetsThrough router.circuits.config ∧ ¬ router.BulkheadFull agentId ∧
    (router.inFlight agentId).toNat + 1 = UInt32.size

/-- Of the circuits only one was entered anew. -/
def Enters (router : AdaptiveRouter) (other : AgentId) (entry : CircuitEntry) (after : AdaptiveRouter) : Prop :=
  after.circuits = router.circuits.setEntry other entry

theorem Enters.remainingProbes (enters : Enters router agentId entry after) : after.remainingProbes now agentId =
      router.circuits.config.halfOpenMaxProbes.toNat - entry.usedProbes := by
  rw [AdaptiveRouter.remainingProbes, circuitAt, CircuitEntry.usedProbes_maybeHalfOpen, enters]
  simp [CircuitBreakerRegistry.entry, CircuitBreakerRegistry.setEntry]

theorem inflight_inc_dec (router : AdaptiveRouter) (now : Instant) (agentId : AgentId) :
    let counted := { router with metrics := router.metrics.inflightInc now agentId }
    counted.inFlight agentId = saturatingSucc (router.inFlight agentId) ∧
      { counted with metrics := counted.metrics.inflightDec agentId }.inFlight agentId =
        saturatingPred (saturatingSucc (router.inFlight agentId)) := by
  have present : (router.metrics.getOrCreate now agentId).inFlight = router.inFlight agentId := by
    rw [PeerMetricsRegistry.getOrCreate, inFlight]
    cases router.metrics.peers.lookup agentId <;> rfl
  rw [← present]
  constructor
  · simp [inFlight, PeerMetricsRegistry.inflightInc]
  · simp [inFlight, PeerMetricsRegistry.inflightInc, PeerMetricsRegistry.inflightDec]

/-- How a request for a slot can end, and what it changes for its peer. -/
inductive Acquired (router : AdaptiveRouter) (now : Instant) (agentId : AgentId) :
    Except SdkError RoutingSlot × AdaptiveRouter → Prop where
  | circuitOpen (refused : ¬ (router.circuitAt now agentId).LetsThrough router.circuits.config)
      (enters : Enters router agentId (router.circuitAt now agentId) after)
      (bulkhead : after.bulkhead = router.bulkhead) (metrics : after.metrics = router.metrics) :
      Acquired router now agentId (.error (.circuitOpen agentId), after)
  | full (letsThrough : (router.circuitAt now agentId).LetsThrough router.circuits.config)
      (full : router.BulkheadFull agentId)
      (enters : Enters router agentId (router.circuitAt now agentId).letThrough after)
      (bulkhead : after.bulkhead.inFlight agentId = router.bulkhead.inFlight agentId)
      (metric : after.inFlight agentId = router.inFlight agentId) :
      Acquired router now agentId (.error (.concurrencyLimit agentId), after)
  | granted (letsThrough : (router.circuitAt now agentId).LetsThrough router.circuits.config)
      (room : ¬ router.BulkheadFull agentId)
      (enters : Enters router agentId (router.circuitAt now agentId).letThrough after)
      (bulkhead : (after.bulkhead.inFlight agentId).toNat = (router.bulkhead.inFlight agentId).toNat + 1)
      (metric : after.inFlight agentId = saturatingSucc (router.inFlight agentId))
      (released : (after.dropSlot ⟨agentId⟩).bulkhead.inFlight agentId = router.bulkhead.inFlight agentId)
      (back : (after.dropSlot ⟨agentId⟩).inFlight agentId = saturatingPred (saturatingSucc (router.inFlight agentId))) :
      Acquired router now agentId (.ok ⟨agentId⟩, after)

theorem acquired_of_letsThrough (letsThrough : (router.circuitAt now agentId).LetsThrough router.circuits.config) :
    Acquired router now agentId (router.acquire now agentId) := by
  have answer := CircuitEntry.acquire_of_letsThrough letsThrough
  let entered := { router with circuits := router.circuits.setEntry agentId (router.circuitAt now agentId).letThrough }
  have enters : router.acquire now agentId = entered.enterBulkhead now agentId := by
    generalize CircuitEntry.state _ = state at answer
    rw [acquire, CircuitBreakerRegistry.acquire, answer]
    cases state <;> rfl
  rw [enters, enterBulkhead, BulkheadRegistry.tryAcquire]
  by_cases full : entered.BulkheadFull agentId
  · rw [if_pos (by exact full)]
    refine .full letsThrough full rfl ?_ rfl
    rw [BulkheadRegistry.inFlight, lookup_insert, Option.getD_some]
  · rw [if_neg (by exact full)]
    have more := toNat_succ_of_lt (UInt32.not_le.mp full)
    obtain ⟨counted, back⟩ := router.inflight_inc_dec now agentId
    refine .granted letsThrough full rfl ?_ counted ?_ back
    · rw [BulkheadRegistry.inFlight, lookup_insert]
      exact more
    · simp only [dropSlot, BulkheadRegistry.release, BulkheadRegistry.inFlight, lookup_insert, Option.getD_some]
      exact saturatingPred_succ more

theorem acquire_acquired (router : AdaptiveRouter) (now : Instant) (agentId : AgentId) :
    Acquired router now agentId (router.acquire now agentId) := by
  by_cases letsThrough : (router.circuitAt now agentId).LetsThrough router.circuits.config
  · exact acquired_of_letsThrough letsThrough
  · obtain ⟨answer, notClosed⟩ := CircuitEntry.acquire_of_not_letsThrough letsThrough
    generalize CircuitEntry.state _ = state at answer notClosed
    rw [acquire, CircuitBreakerRegistry.acquire, answer]
    cases state with
    | closed => exact absurd rfl notClosed
    | opened => exact .circuitOpen letsThrough rfl rfl rfl
    | halfOpen => exact .circuitOpen letsThrough rfl rfl rfl

theorem remainingProbes_letThrough
    (letsThrough : (router.circuitAt now agentId).LetsThrough router.circuits.config)
    (enters : Enters router agentId (router.circuitAt now agentId).letThrough after) :
    after.remainingProbes now agentId = router.remainingProbes now agentId ↔
      (router.circuitAt now agentId).state ≠ .halfOpen := by
  rw [enters.remainingProbes, remainingProbes]
  by_cases halfOpen : (router.circuitAt now agentId).state = .halfOpen
  · rw [CircuitEntry.usedProbes_letThrough letsThrough halfOpen]
    obtain closed | ⟨_, free⟩ := letsThrough
    · cases halfOpen.symm.trans closed
    · rw [UInt32.lt_iff_toNat_lt] at free
      rw [CircuitEntry.usedProbes, if_pos halfOpen]
      refine iff_of_false ?_ (not_not.mpr halfOpen)
      omega
  · rw [CircuitEntry.letThrough, if_neg halfOpen]
    exact iff_of_true rfl halfOpen

theorem fair_acquire_iff (router : AdaptiveRouter) (now : Instant) (agentId : AgentId) :
    (router.standing now agentId).Fair now agentId (router.acquire now agentId) ↔
      ¬ router.ProbeLost now agentId ∧ ¬ router.MetricFull now agentId := by
  have acquired := router.acquire_acquired now agentId
  generalize router.acquire now agentId = outcome at acquired
  cases acquired with
  | @circuitOpen after refused enters bulkhead metrics =>
    have same : after.standing now agentId = router.standing now agentId := by
      rw [standing, enters.remainingProbes, bulkhead, inFlight, metrics]
      rfl
    exact iff_of_true same ⟨fun lost => refused lost.2.1, fun full => refused full.1⟩
  | full letsThrough full enters bulkhead metric =>
    simp [Standing.Fair, standing, bulkhead, metric, remainingProbes_letThrough letsThrough enters, ProbeLost,
      MetricFull, letsThrough, full]
  | granted letsThrough room enters bulkhead metric released back =>
    simp only [Standing.Fair, standing, bulkhead, metric, released, back, true_and, ProbeLost, MetricFull,
      letsThrough, room, and_false, not_false_eq_true]
    exact saturatingSucc_counts_iff

/-- The calls on a router. Selections and snapshots look at the circuits. -/
inductive Call where
  | acquire (now : Instant) (agentId : AgentId)
  | drop (slot : RoutingSlot)
  | recordSuccess (now : Instant) (agentId : AgentId)
  | recordFailure (now : Instant) (agentId : AgentId)
  | recordTimeout (now : Instant) (agentId : AgentId)
  | look (now : Instant) (agentId : AgentId)

def machine : Machine Call (Option (Except SdkError RoutingSlot)) AdaptiveRouter where
  step router
    | .acquire now agentId => (router.acquire now agentId).map some id
    | .drop slot => (none, router.dropSlot slot)
    | .recordSuccess now agentId => (none, router.recordSuccess now agentId)
    | .recordFailure now agentId => (none, router.recordFailure now agentId)
    | .recordTimeout now agentId => (none, router.recordTimeout now agentId)
    | .look now agentId => (none, { router with circuits := (router.circuits.state now agentId).2 })

/-- The circuit of a peer, if there is one. -/
def cell (router : AdaptiveRouter) (agentId : AgentId) : Option CircuitEntry :=
  router.circuits.circuits.lookup agentId

def HalfOpen (router : AdaptiveRouter) (agentId : AgentId) : Prop :=
  stateOf (router.cell agentId) = .halfOpen

instance : Decidable (router.HalfOpen agentId) := inferInstanceAs (Decidable (_ = _))

def usedProbes (router : AdaptiveRouter) (agentId : AgentId) : Nat :=
  ((router.cell agentId).map CircuitEntry.usedProbes).getD 0

def HalfOpenThroughout (agentId : AgentId) : AdaptiveRouter → List Call → Prop
  | _, [] => True
  | router, call :: calls =>
    (machine.step router call).2.HalfOpen agentId ∧ HalfOpenThroughout agentId (machine.step router call).2 calls

def slotsIn (agentId : AgentId) (router : AdaptiveRouter) (calls : List Call) : Nat :=
  ((machine.log router calls).filter fun entry => entry.2 = some (.ok ⟨agentId⟩)).length

def LosesProbe (agentId : AgentId) (router : AdaptiveRouter) : Call → Prop
  | .acquire now other => other = agentId ∧ router.ProbeLost now agentId
  | _ => False

/-- A call either hands out a slot for a probe, or loses a probe, or uses none. -/
def Charged (agentId : AgentId) (router : AdaptiveRouter) (call : Call) : Prop :=
  let granted := (machine.step router call).1 = some (.ok ⟨agentId⟩)
  let used := (machine.step router call).2.usedProbes agentId
  granted ∧ ¬ LosesProbe agentId router call ∧ used = router.usedProbes agentId + 1 ∨
    ¬ granted ∧ LosesProbe agentId router call ∧ used = router.usedProbes agentId + 1 ∨
    ¬ granted ∧ ¬ LosesProbe agentId router call ∧ used = router.usedProbes agentId

theorem usedProbes_eq_circuitAt (router : AdaptiveRouter) (now : Instant) (agentId : AgentId) :
    router.usedProbes agentId = (router.circuitAt now agentId).usedProbes := by
  rw [circuitAt, CircuitEntry.usedProbes_maybeHalfOpen, CircuitBreakerRegistry.entry, usedProbes, cell]
  cases router.circuits.circuits.lookup agentId <;> rfl

section Enters

variable {after : AdaptiveRouter} {other : AgentId} {entry : CircuitEntry}

section

variable (enters : Enters router agentId entry after)
include enters

theorem Enters.own : after.cell agentId = some entry := by
  rw [cell, enters]
  exact lookup_insert _

theorem Enters.usedProbes_own : after.usedProbes agentId = entry.usedProbes := by
  rw [usedProbes, enters.own]
  rfl

theorem Enters.state_own (halfOpen : after.HalfOpen agentId) : entry.state = .halfOpen := by
  rw [HalfOpen, enters.own] at halfOpen
  exact halfOpen

end

theorem Enters.usedProbes_other (enters : Enters router other entry after) (different : agentId ≠ other) :
    after.usedProbes agentId = router.usedProbes agentId := by
  rw [usedProbes, usedProbes, cell, cell, enters, CircuitBreakerRegistry.setEntry, lookup_insert_ne different]

theorem Enters.usedProbes_eq (enters : Enters router other entry after) (halfOpen : after.HalfOpen agentId)
    (kept : entry.state = .halfOpen → entry.usedProbes = router.usedProbes other) :
    after.usedProbes agentId = router.usedProbes agentId := by
  by_cases own : agentId = other
  · subst own
    rw [enters.usedProbes_own]
    exact kept (enters.state_own halfOpen)
  · exact enters.usedProbes_other own

end Enters

theorem Enters.usedProbes_letThrough
    (enters : Enters router agentId (router.circuitAt now agentId).letThrough after)
    (letsThrough : (router.circuitAt now agentId).LetsThrough router.circuits.config)
    (halfOpen : after.HalfOpen agentId) : (router.circuitAt now agentId).state = .halfOpen ∧
      after.usedProbes agentId = router.usedProbes agentId + 1 := by
  have state := (CircuitEntry.letThrough_state _).symm.trans (enters.state_own halfOpen)
  refine ⟨state, ?_⟩
  rw [enters.usedProbes_own, CircuitEntry.usedProbes_letThrough letsThrough state,
    router.usedProbes_eq_circuitAt now agentId]

theorem charged_acquire_own (halfOpen : (machine.step router (.acquire now agentId)).2.HalfOpen agentId) :
    Charged agentId router (.acquire now agentId) := by
  have acquired := router.acquire_acquired now agentId
  simp only [Charged, machine, Prod.map_fst, Prod.map_snd, id_eq] at halfOpen ⊢
  generalize router.acquire now agentId = outcome at acquired halfOpen
  cases acquired with
  | circuitOpen refused enters =>
    refine .inr (.inr ⟨by simp, fun lost => refused lost.2.2.1, ?_⟩)
    exact enters.usedProbes_eq halfOpen fun _ => (router.usedProbes_eq_circuitAt now agentId).symm
  | full letsThrough full enters =>
    obtain ⟨state, more⟩ := enters.usedProbes_letThrough letsThrough halfOpen
    exact .inr (.inl ⟨by simp, ⟨rfl, state, letsThrough, full⟩, more⟩)
  | granted letsThrough room enters =>
    obtain ⟨_, more⟩ := enters.usedProbes_letThrough letsThrough halfOpen
    exact .inl ⟨rfl, fun lost => room lost.2.2.2, more⟩

theorem charged_acquire_other (different : agentId ≠ other) : Charged agentId router (.acquire now other) := by
  have acquired := router.acquire_acquired now other
  refine .inr (.inr ?_)
  simp only [LosesProbe, machine, Prod.map_fst, Prod.map_snd, id_eq, different.symm, false_and, not_false_eq_true,
    true_and]
  generalize router.acquire now other = outcome at acquired
  cases acquired with
  | circuitOpen _ enters => exact ⟨by simp, enters.usedProbes_other different⟩
  | full _ _ enters => exact ⟨by simp, enters.usedProbes_other different⟩
  | granted _ _ enters => exact ⟨by simp [different.symm], enters.usedProbes_other different⟩

theorem charged_of_enters (other : AgentId) (enters : Enters router other entry (machine.step router call).2)
    (answer : (machine.step router call).1 = none) (harmless : ¬ LosesProbe agentId router call)
    (halfOpen : (machine.step router call).2.HalfOpen agentId)
    (kept : entry.state = .halfOpen → entry.usedProbes = router.usedProbes other) : Charged agentId router call := by
  refine .inr (.inr ⟨?_, harmless, enters.usedProbes_eq halfOpen kept⟩)
  rw [answer]
  exact nofun

theorem charged_of_halfOpen (halfOpen : (machine.step router call).2.HalfOpen agentId) :
    Charged agentId router call := by
  cases call with
  | acquire now other =>
    by_cases own : agentId = other
    · subst own
      exact charged_acquire_own halfOpen
    · exact charged_acquire_other own
  | drop slot => exact .inr (.inr ⟨nofun, id, rfl⟩)
  | recordSuccess now other =>
    refine charged_of_enters other rfl rfl id halfOpen fun state => ?_
    rw [(CircuitEntry.recordSuccess_state _).2] at state
    split at state <;> contradiction
  | recordFailure now other | recordTimeout now other =>
    refine charged_of_enters other rfl rfl id halfOpen fun state => ?_
    rw [(CircuitEntry.recordFailure_state _ _ _).2] at state
    repeat' split at state
    all_goals contradiction
  | look now other =>
    exact charged_of_enters other rfl rfl id halfOpen fun _ => (router.usedProbes_eq_circuitAt now other).symm

theorem usedProbes_after (halfOpen : HalfOpenThroughout agentId router calls) :
    router.usedProbes agentId + slotsIn agentId router calls ≤ (machine.after router calls).usedProbes agentId ∧
      ((machine.after router calls).usedProbes agentId ≤ router.usedProbes agentId + slotsIn agentId router calls ↔
        ∀ entry ∈ machine.met router calls, ¬ LosesProbe agentId entry.1 entry.2) := by
  induction calls generalizing router with
  | nil => simp [Machine.after, Machine.met, slotsIn, Machine.log]
  | cons call calls ih =>
    obtain ⟨least, exactly⟩ := ih halfOpen.2
    rw [Machine.after, Machine.met, slotsIn, Machine.length_filter_log_cons, List.forall_mem_cons, ← exactly]
    simp only [decide_eq_true_eq]
    change _ + (_ + slotsIn agentId _ calls) ≤ _ ∧ (_ ≤ _ + (_ + slotsIn agentId _ calls) ↔ _)
    obtain ⟨granted, harmless, used⟩ | ⟨refused, lost, used⟩ | ⟨refused, harmless, used⟩ :=
      charged_of_halfOpen halfOpen.1
    · rw [if_pos granted]
      simp only [harmless, not_false_eq_true, true_and]
      omega
    · rw [if_neg refused]
      refine ⟨by omega, iff_of_false (by omega) fun none => none.1 lost⟩
    · rw [if_neg refused]
      simp only [harmless, not_false_eq_true, true_and]
      omega

theorem usedProbes_of_not_halfOpen (before : ¬ router.HalfOpen agentId) : router.usedProbes agentId = 0 := by
  rw [HalfOpen] at before
  rw [usedProbes]
  cases circuit : router.cell agentId with
  | none => rfl
  | some entry =>
    rw [circuit] at before
    exact if_neg before

/-- A refused request costs nothing, and a granted one is counted until its slot is dropped, exactly
if it takes no probe while the bulkhead is full, and finds room in the metric. -/
theorem slot_requests_fair_iff (router : AdaptiveRouter) (now : Instant) (agentId : AgentId) :
    ((router.standing now agentId).Fair now agentId (router.acquire now agentId) ↔
      ¬ router.ProbeLost now agentId ∧ ¬ router.MetricFull now agentId) ∧
    ∀ period, ¬ router.HalfOpen agentId → HalfOpenThroughout agentId router period →
      ((machine.after router period).usedProbes agentId ≤ slotsIn agentId router period ↔
        ∀ entry ∈ machine.met router period, ¬ LosesProbe agentId entry.1 entry.2) := by
  refine ⟨router.fair_acquire_iff now agentId, ?_⟩
  intro period before halfOpen
  have exactly := (usedProbes_after halfOpen).2
  rw [usedProbes_of_not_halfOpen before, Nat.zero_add] at exactly
  exact exactly

theorem acquire_of_used (halfOpen : router.HalfOpen agentId)
    (used : router.circuits.config.halfOpenMaxProbes.toNat ≤ router.usedProbes agentId) (now : Instant) :
    (router.acquire now agentId).1 = .error (.circuitOpen agentId) := by
  have state : (router.circuits.entry now agentId).state = .halfOpen :=
    (stateOf_eq (router.cell agentId) now).symm.trans halfOpen
  have same : router.circuitAt now agentId = router.circuits.entry now agentId :=
    CircuitEntry.maybeHalfOpen_of_ne (by rw [state]; decide)
  rw [router.usedProbes_eq_circuitAt now, same, CircuitEntry.usedProbes, if_pos state] at used
  have refused : ¬ (router.circuitAt now agentId).LetsThrough router.circuits.config := by
    rw [same]
    rintro (closed | ⟨_, free⟩)
    · cases state.symm.trans closed
    · exact absurd (UInt32.lt_iff_toNat_lt.mp free) (Nat.not_lt.mpr used)
  have acquired := router.acquire_acquired now agentId
  generalize router.acquire now agentId = outcome at acquired
  cases acquired with
  | circuitOpen => rfl
  | full letsThrough => exact absurd letsThrough refused
  | granted letsThrough => exact absurd letsThrough refused

def busyPeer : AgentId := .filled 1

/-- A router with the default settings, while eight requests to a peer are under way and five
others have failed. -/
def busyRouter : AdaptiveRouter :=
  machine.after (new .default 8)
    (List.replicate 8 (.acquire 0 busyPeer) ++ List.replicate 5 (.recordFailure 0 busyPeer))

/-- The probe is taken by a request that finds the bulkhead full. Then no request to the peer is let
through at any time. -/
theorem probe_lost_in_full_bulkhead :
    let now := Duration.fromSecs 10
    let after := (busyRouter.acquire now busyPeer).2
    let idle := machine.after after (List.replicate 8 (.drop ⟨busyPeer⟩))
    (busyRouter.acquire now busyPeer).1 = .error (.concurrencyLimit busyPeer) ∧
      busyRouter.remainingProbes now busyPeer = 1 ∧ after.remainingProbes now busyPeer = 0 ∧
      ¬ (busyRouter.standing now busyPeer).Fair now busyPeer (busyRouter.acquire now busyPeer) ∧
      ¬ busyRouter.HalfOpen busyPeer ∧ after.HalfOpen busyPeer ∧ after.usedProbes busyPeer = 1 ∧
      slotsIn busyPeer busyRouter [.acquire now busyPeer] = 0 ∧
      idle.bulkhead.inFlight busyPeer = 0 ∧
      ∀ later, (idle.acquire later busyPeer).1 = .error (.circuitOpen busyPeer) := by
  intro now after idle
  have refused : (busyRouter.acquire now busyPeer).1 = .error (.concurrencyLimit busyPeer) := by decide +kernel
  have before : busyRouter.remainingProbes now busyPeer = 1 := by decide +kernel
  have left : after.remainingProbes now busyPeer = 0 := by decide +kernel
  refine ⟨refused, before, left, ?_, by decide +kernel, by decide +kernel, by decide +kernel, by decide +kernel,
    by decide +kernel, ?_⟩
  · intro fair
    have outcome : busyRouter.acquire now busyPeer = (.error (.concurrencyLimit busyPeer), after) :=
      Prod.ext refused rfl
    have same : after.remainingProbes now busyPeer = busyRouter.remainingProbes now busyPeer :=
      congrArg Standing.probes fair
    rw [left] at same
    cases same
  · intro later
    exact acquire_of_used (by decide +kernel) (by decide +kernel) later

end AdaptiveRouter

end Aafp.Routing
