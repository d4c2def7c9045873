import Aafp.Execution.Scheduler
import Aafp.Routing.SelectRuns

/-! In which order tasks are started. -/
namespace Aafp.Execution

open Foundation Crypto Identity Routing Duration
open List hiding after

namespace ExecutionPlan

variable (plan : ExecutionPlan)

def PendingAt (taskIdx : Nat) : Prop :=
  ∃ task, plan.tasks[taskIdx]? = some task ∧ task.status = .pending

def Preceded (kind : DependencyType) (taskIdx : Nat) : Prop :=
  ∀ edge ∈ plan.edges, edge.target = taskIdx → edge.kind = kind → plan.CompletedAt edge.source

/-- What the source calls ready. -/
def Ready (taskIdx : Nat) : Prop :=
  plan.PendingAt taskIdx ∧ plan.Preceded .dataDependency taskIdx

/-- Only pending tasks are assigned, after their predecessors by data and by control. -/
def StartsInOrder (assigned : List (Nat × AgentId)) : Prop :=
  ∀ entry ∈ assigned, plan.PendingAt entry.1 ∧ plan.Preceded .dataDependency entry.1 ∧
    plan.Preceded .controlDependency entry.1

/-- No ready task has a predecessor by control that is not completed. -/
def ControlMet : Prop :=
  ∀ taskIdx, plan.Ready taskIdx → plan.Preceded .controlDependency taskIdx

variable {plan : ExecutionPlan}

theorem isReady_iff (inBounds : plan.InBounds) (inside : taskIdx < plan.tasks.length) :
    ∃ answer, plan.isReady taskIdx = some answer ∧ (answer = true ↔ plan.Ready taskIdx) := by
  have found := getElem?_eq_getElem inside
  rw [isReady, found, Option.bind_eq_bind, Option.bind_some]
  by_cases pending : plan.tasks[taskIdx].status = .pending
  · obtain ⟨answer, same, exactly⟩ := dependenciesMet_iff inBounds taskIdx
    refine ⟨answer, by rw [if_pos pending, same], ?_⟩
    rw [exactly, Ready, and_iff_right ⟨_, found, pending⟩]
    rfl
  · refine ⟨false, if_neg pending, iff_of_false nofun ?_⟩
    rintro ⟨⟨task, here, waiting⟩, -⟩
    rw [found] at here
    cases here
    exact pending waiting

theorem readyAmong_eq_some (inBounds : plan.InBounds) (inside : ∀ taskIdx ∈ indices, taskIdx < plan.tasks.length) :
    ∃ ready, plan.readyAmong indices = some ready ∧ ready.Sublist indices ∧
      ∀ taskIdx, taskIdx ∈ ready ↔ taskIdx ∈ indices ∧ plan.Ready taskIdx := by
  induction indices with
  | nil => exact ⟨[], rfl, .slnil, by simp⟩
  | cons first indices ih =>
    rw [forall_mem_cons] at inside
    obtain ⟨answer, same, exactly⟩ := isReady_iff inBounds inside.1
    obtain ⟨ready, found, sublist, members⟩ := ih inside.2
    rw [readyAmong, same, found]
    cases answer with
    | true =>
      refine ⟨first :: ready, rfl, sublist.cons_cons first, fun taskIdx => ?_⟩
      rw [mem_cons, mem_cons, members]
      constructor
      · rintro (rfl | ⟨member, isReady⟩)
        · exact ⟨.inl rfl, exactly.mp rfl⟩
        · exact ⟨.inr member, isReady⟩
      · rintro ⟨rfl | member, isReady⟩
        · exact .inl rfl
        · exact .inr ⟨member, isReady⟩
    | false =>
      refine ⟨ready, rfl, sublist.cons first, fun taskIdx => ?_⟩
      rw [mem_cons, members]
      constructor
      · rintro ⟨member, isReady⟩
        exact ⟨.inr member, isReady⟩
      · rintro ⟨rfl | member, isReady⟩
        · cases exactly.mpr isReady
        · exact ⟨member, isReady⟩

theorem readyIndices_eq_some (inBounds : plan.InBounds) :
    ∃ ready, plan.readyIndices = some ready ∧ ready.Pairwise (· < ·) ∧
      ∀ taskIdx, taskIdx ∈ ready ↔ plan.Ready taskIdx := by
  obtain ⟨ready, found, sublist, members⟩ := readyAmong_eq_some inBounds fun taskIdx mem =>
    mem_range.mp mem
  refine ⟨ready, found, pairwise_lt_range.sublist sublist, fun taskIdx => ?_⟩
  rw [members, and_iff_right_iff_imp]
  rintro ⟨⟨task, here, -⟩, -⟩
  exact mem_range.mpr (List.getElem?_eq_some_iff.mp here).1

end ExecutionPlan

namespace TaskScheduler

variable {plan : ExecutionPlan} {inputs : Nat → Instant × Draws} {candidates : List LegacyRecord}

theorem mem_of_assigned
    (mem : entry ∈ (assignAll inputs plan candidates scheduler indices).assigned) : entry.1 ∈ indices := by
  induction indices generalizing scheduler with
  | nil => cases mem
  | cons taskIdx indices ih =>
    rw [assignAll] at mem
    split at mem
    · rcases mem_cons.mp mem with rfl | later
      · exact mem_cons_self
      · exact mem_cons_of_mem _ (ih later)
    · exact mem_cons_of_mem _ (ih mem)
    · cases mem

theorem ready_of_assigned (inBounds : plan.InBounds) {scheduler : TaskScheduler}
    (mem : entry ∈ (scheduler.readyProgress inputs plan candidates).assigned) : plan.Ready entry.1 := by
  obtain ⟨ready, found, -, members⟩ := ExecutionPlan.readyIndices_eq_some inBounds
  rw [readyProgress, found] at mem
  split at mem
  · cases mem
  · exact (members entry.1).mp (mem_of_assigned mem)

/-! ## A scheduler that assigns a given task first

Its only candidate has an open circuit until the turn of the task comes. -/

def lateRecord : LegacyRecord := ⟨.filled 1, [], [], [], 0, 0, []⟩

def lateBreaker : CircuitBreakerConfig := ⟨1, fromSecs 10, 1⟩

def openedEntry : CircuitEntry := ⟨.opened, 1, 0, 0⟩

def lateScheduler : TaskScheduler :=
  .new ((RoutingEngine.new { circuitBreaker := lateBreaker }).recordFailure 0 lateRecord.agentId 0.0) .new ∅ {}

def lateInputs (turn taskIdx : Nat) : Instant × Draws :=
  (if taskIdx < turn then 0 else fromSecs 10, ⟨0, 0, fun bound => bound, fun _ => false⟩)

/-- Nothing was assigned yet, and the circuit is still open. -/
structure Waiting (scheduler : TaskScheduler) : Prop where
  timeout : scheduler.config.assignmentTimeoutMs ≠ 0
  room : scheduler.viable [lateRecord] = [lateRecord]
  strategy : scheduler.engine.config.strategy = .p2c
  breaker : scheduler.engine.router.circuits.config = lateBreaker
  circuit : scheduler.engine.router.circuits.circuits.lookup lateRecord.agentId = some openedEntry
  metrics : ∀ now, ¬ scheduler.engine.router.metrics.IsOpen now lateRecord.agentId

theorem waiting_lateScheduler : Waiting lateScheduler where
  timeout := by decide
  room := by rfl
  strategy := by rfl
  breaker := by rfl
  circuit := by rfl
  metrics := by
    intro now opened
    obtain ⟨entry, found, circuit⟩ := PeerMetricsRegistry.isOpen_iff.mp opened
    cases found
    cases circuit

variable {scheduler : TaskScheduler}

section

variable (waiting : Waiting scheduler)
include waiting

theorem Waiting.ask_early (draws : Draws) :
    (scheduler.ask 0 draws [lateRecord]).1 = .error .noViableCandidate ∧
      Waiting (scheduler.ask 0 draws [lateRecord]).2 := by
  have looked : scheduler.engine.router.circuits.state 0 lateRecord.agentId =
      (.opened, scheduler.engine.router.circuits.setEntry lateRecord.agentId openedEntry) := by
    simp [CircuitBreakerRegistry.state, CircuitBreakerRegistry.entry, waiting.circuit, waiting.breaker,
      CircuitEntry.maybeHalfOpen, openedEntry, lateBreaker, fromSecs]
  have selected : ∀ score, scheduler.engine.select 0 draws [lateRecord] [score] = (.error .noViableCandidate,
      (scheduler.engine.withRouter { scheduler.engine.router with
        circuits := scheduler.engine.router.circuits.setEntry lateRecord.agentId openedEntry }).recordNoCandidate) := by
    intro score
    simp [RoutingEngine.select, filterCandidates, looked]
  rw [ask, map_singleton, selected]
  refine ⟨rfl, waiting.timeout, waiting.room, waiting.strategy, waiting.breaker, ?_, waiting.metrics⟩
  exact AList.lookup_insert _

theorem Waiting.ask_late (draws : Draws) :
    ∃ agentId, (scheduler.ask (fromSecs 10) draws [lateRecord]).1 = .ok agentId := by
  have closed : ¬ scheduler.engine.router.circuits.IsOpen (fromSecs 10) lateRecord.agentId := by
    simp [CircuitBreakerRegistry.IsOpen, CircuitBreakerRegistry.state, CircuitBreakerRegistry.entry,
      waiting.circuit, waiting.breaker, CircuitEntry.maybeHalfOpen, openedEntry, lateBreaker, fromSecs]
  have viable : scheduler.engine.viable (fromSecs 10) [lateRecord] ≠ [] := by
    rw [Ne, RoutingEngine.viable_eq_nil_iff]
    intro refused
    rcases refused lateRecord mem_cons_self with opened | opened
    · exact closed opened
    · exact waiting.metrics _ opened
  rcases @RoutingEngine.select_cases scheduler.engine (fromSecs 10) draws [lateRecord]
    ([lateRecord].map fun candidate => scheduler.computeStaticScore (fromSecs 10) candidate.agentId)
    rfl with ⟨empty, -⟩ | ⟨-, ⟨⟨epsilon, greedy⟩, -⟩ | ⟨agentId, -, selected⟩⟩
  · exact absurd empty viable
  · rw [waiting.strategy] at greedy
    cases greedy
  · exact ⟨agentId, selected⟩

theorem Waiting.assignTask_early (inside : taskIdx < plan.tasks.length)
    (draws : Draws) : (scheduler.assignTask 0 draws plan taskIdx [lateRecord]).1 = .error .noViableCandidate ∧
      Waiting (scheduler.assignTask 0 draws plan taskIdx [lateRecord]).2 := by
  obtain ⟨refused, still⟩ := waiting.ask_early draws
  rw [assignTask, if_neg waiting.timeout, getElem?_eq_getElem inside]
  simp only [waiting.room, cons_ne_nil, if_false, refused]
  exact ⟨rfl, still⟩

theorem Waiting.assignTask_late (inside : taskIdx < plan.tasks.length) (draws : Draws) :
    ∃ agentId, (scheduler.assignTask (fromSecs 10) draws plan taskIdx [lateRecord]).1 = .ok agentId := by
  obtain ⟨agentId, selected⟩ := waiting.ask_late draws
  refine ⟨agentId, ?_⟩
  rw [assignTask, if_neg waiting.timeout, getElem?_eq_getElem inside]
  simp only [waiting.room, cons_ne_nil, if_false, selected]

theorem Waiting.assigns (earlier : ∀ taskIdx ∈ before, taskIdx < turn)
    (inside : ∀ taskIdx ∈ before ++ turn :: after, taskIdx < plan.tasks.length) : ∃ agentId, (turn, agentId) ∈
      (assignAll (lateInputs turn) plan [lateRecord] scheduler (before ++ turn :: after)).assigned := by
  induction before generalizing scheduler with
  | nil =>
    have now : (lateInputs turn turn).1 = fromSecs 10 := if_neg (Nat.lt_irrefl turn)
    obtain ⟨agentId, selected⟩ :=
      waiting.assignTask_late (inside turn mem_cons_self) (lateInputs turn turn).2
    refine ⟨agentId, ?_⟩
    simp only [nil_append, assignAll, now, selected]
    exact mem_cons_self
  | cons taskIdx before ih =>
    rw [forall_mem_cons] at earlier
    rw [cons_append, forall_mem_cons] at inside
    have now : (lateInputs turn taskIdx).1 = 0 := if_pos earlier.1
    obtain ⟨refused, still⟩ := waiting.assignTask_early inside.1 (lateInputs turn taskIdx).2
    obtain ⟨agentId, mem⟩ := ih still earlier.2 inside.2
    refine ⟨agentId, ?_⟩
    simp only [cons_append, assignAll, now, refused]
    exact mem

end

theorem exists_assigned (inBounds : plan.InBounds) (ready : plan.Ready taskIdx) : ∃ agentId, (taskIdx, agentId) ∈
      (lateScheduler.readyProgress (lateInputs taskIdx) plan [lateRecord]).assigned := by
  obtain ⟨indices, found, sorted, members⟩ := ExecutionPlan.readyIndices_eq_some inBounds
  obtain ⟨before, after, rfl⟩ := append_of_mem ((members taskIdx).mpr ready)
  rw [readyProgress, found]
  apply waiting_lateScheduler.assigns
  · intro earlier mem
    exact (pairwise_append.mp sorted).2.2 earlier mem taskIdx mem_cons_self
  · intro other mem
    obtain ⟨⟨task, here, -⟩, -⟩ := (members other).mp mem
    exact (List.getElem?_eq_some_iff.mp here).1

/-- The ready tasks of a plan are assigned after all their predecessors exactly if none has an
uncompleted predecessor by control. -/
theorem starts_in_order_iff (plan : ExecutionPlan) (inBounds : plan.InBounds) :
    (∀ (scheduler : TaskScheduler) (inputs : Nat → Instant × Draws) (candidates : List LegacyRecord),
      candidates ≠ [] → plan.StartsInOrder (scheduler.readyProgress inputs plan candidates).assigned) ↔
      plan.ControlMet := by
  constructor
  · intro inOrder taskIdx ready
    obtain ⟨agentId, mem⟩ := exists_assigned inBounds ready
    exact (inOrder lateScheduler (lateInputs taskIdx) [lateRecord] (cons_ne_nil _ _) _ mem).2.2
  · intro met scheduler inputs candidates _ entry mem
    have ready := ready_of_assigned inBounds mem
    exact ⟨ready.1, ready.2, met entry.1 ready⟩

def controlledPlan (first : TaskStatus) : ExecutionPlan :=
  let task := TaskNode.new (fun _ => .filled 0)
  { id := .filled 0, goal := "", tasks := [{ task "gather" [] 100 with status := first }, task "report" [] 100]
    edges := [⟨0, 1, .controlDependency⟩], estimatedCost := 200, estimatedLatencyMs := 200
    resourceRequirements := {}, createdAt := 0, version := 1 }

theorem controlledPlan_starts_in_order :
    (controlledPlan (.completed [])).InBounds ∧ ∀ (scheduler : TaskScheduler) (inputs : Nat → Instant × Draws)
      (candidates : List LegacyRecord), candidates ≠ [] → (controlledPlan (.completed [])).StartsInOrder
        (scheduler.readyProgress inputs (controlledPlan (.completed [])) candidates).assigned := by
  refine ⟨by decide, (starts_in_order_iff (controlledPlan (.completed [])) (by decide)).mpr ?_⟩
  intro taskIdx _ edge mem _ _
  cases mem_singleton.mp mem
  exact ⟨_, rfl, rfl⟩

/-- Both tasks are assigned at once, by a fresh scheduler. -/
theorem controlledPlan_not_in_order :
    ¬ (controlledPlan .pending).StartsInOrder ((TaskScheduler.new (.new {}) .new ∅ {}).readyProgress (lateInputs 0)
      (controlledPlan .pending) [lateRecord]).assigned := by
  intro inOrder
  obtain ⟨task, found, completed⟩ := (inOrder (1, lateRecord.agentId) (by decide)).2.2 ⟨0, 1, .controlDependency⟩
    (by decide) rfl rfl
  cases found
  cases completed

end TaskScheduler

end Aafp.Execution
