import Aafp.Execution.Plan
import Aafp.Routing.Select

/-! The task scheduler. -/
namespace Aafp.Execution

open Foundation Crypto Identity Routing

structure SchedulerConfig where
  maxTasksPerAgent : UInt32 := 10
  reputationWeight : Float := 0.3
  loadWeight : Float := 0.3
  costWeight : Float := 0.2
  latencyWeight : Float := 0.2
  assignmentTimeoutMs : UInt64 := 5000

/-- The metrics for the static scores are in a registry of the scheduler's own. -/
structure TaskScheduler where
  engine : RoutingEngine
  metrics : PeerMetricsRegistry
  measures : AList fun _ : AgentId => Measures
  assignments : AList fun _ : TaskId => AgentId
  config : SchedulerConfig

def SdkError.ofSelect : SelectError → SdkError
  | .messaging text => .messaging text
  | .noViableCandidate => .noViableCandidate
  | .panicked => .panicked

namespace ExecutionPlan

/-- A task that is not pending is not asked for its dependencies. -/
def isReady (plan : ExecutionPlan) (taskIdx : Nat) : Option Bool := do
  let task ← plan.tasks[taskIdx]?
  if task.status = .pending then plan.dependenciesMet taskIdx else some false

def readyAmong (plan : ExecutionPlan) : List Nat → Option (List Nat)
  | [] => some []
  | taskIdx :: indices => do
    let ready ← plan.isReady taskIdx
    let later ← plan.readyAmong indices
    some (if ready then taskIdx :: later else later)

def readyIndices (plan : ExecutionPlan) : Option (List Nat) := plan.readyAmong (List.range plan.tasks.length)

end ExecutionPlan

namespace TaskScheduler

def new (engine : RoutingEngine) (metrics : PeerMetricsRegistry) (measures : AList fun _ : AgentId => Measures)
    (config : SchedulerConfig) : TaskScheduler :=
  ⟨engine, metrics, measures, ∅, config⟩

def agentLoad (scheduler : TaskScheduler) (agentId : AgentId) : UInt32 :=
  .ofNat (scheduler.assignments.entries.countP fun entry => entry.2 = agentId)

def computeStaticScore (scheduler : TaskScheduler) (now : Instant) (agentId : AgentId) : Float :=
  let latencyEwmaMs := ((scheduler.measures.lookup agentId).getD .new).latencyEwmaMs
  let reputation := 1.0
  let assignedLoad := (scheduler.agentLoad agentId).toFloat
  let routingLoad := (scheduler.metrics.getOrCreate now agentId).inFlight.toFloat
  let load := 1.0 / (1.0 + (assignedLoad + routingLoad))
  let cost := 0.0
  let latency :=
    if latencyEwmaMs.initialized && latencyEwmaMs.value > 0.0 then 1.0 / (1.0 + latencyEwmaMs.value) else 1.0
  scheduler.config.reputationWeight * reputation + scheduler.config.loadWeight * load +
    scheduler.config.costWeight * cost + scheduler.config.latencyWeight * latency

def viable (scheduler : TaskScheduler) (candidates : List LegacyRecord) : List LegacyRecord :=
  candidates.filter fun candidate => scheduler.agentLoad candidate.agentId < scheduler.config.maxTasksPerAgent

/-- The router is asked for one of the candidates, whose metrics are entered for their scores. -/
def ask (scheduler : TaskScheduler) (now : Instant) (draws : Draws) (candidates : List LegacyRecord) :
    Except SelectError AgentId × TaskScheduler :=
  let selected := scheduler.engine.select now draws candidates
    (candidates.map fun candidate => scheduler.computeStaticScore now candidate.agentId)
  (selected.1, { scheduler with
    engine := selected.2
    metrics := candidates.foldl (fun metrics candidate => metrics.enter now candidate.agentId) scheduler.metrics })

/-- Assign a single task to the best available agent. -/
def assignTask (scheduler : TaskScheduler) (now : Instant) (draws : Draws) (plan : ExecutionPlan) (taskIdx : Nat)
    (candidates : List LegacyRecord) : Except SdkError AgentId × TaskScheduler :=
  if scheduler.config.assignmentTimeoutMs = 0 then (.error .timeout, scheduler)
  else
    match plan.tasks[taskIdx]? with
    | none =>
      let count := plan.tasks.length
      (.error (.messaging s!"assign_task: task_idx {taskIdx} out of bounds (tasks={count})"), scheduler)
    | some task =>
      if candidates = [] then (.error .noViableCandidate, scheduler)
      else if scheduler.viable candidates = [] then (.error .noViableCandidate, scheduler)
      else
        let asked := scheduler.ask now draws (scheduler.viable candidates)
        match asked.1 with
        | .error error => (.error (.ofSelect error), asked.2)
        | .ok agentId =>
          (.ok agentId, { asked.2 with assignments := asked.2.assignments.insert task.id agentId })

/-- The tasks that were assigned, by index, and the error that ended the loop early. -/
structure Progress where
  assigned : List (Nat × AgentId)
  failed : Option SdkError
  scheduler : TaskScheduler

/-- `inputs` are the readings of the clock and the draws for the tasks. A task for which there is no
candidate is skipped. -/
def assignAll (inputs : Nat → Instant × Draws) (plan : ExecutionPlan) (candidates : List LegacyRecord) :
    TaskScheduler → List Nat → Progress
  | scheduler, [] => ⟨[], none, scheduler⟩
  | scheduler, taskIdx :: indices =>
    let attempt := scheduler.assignTask (inputs taskIdx).1 (inputs taskIdx).2 plan taskIdx candidates
    match attempt.1 with
    | .ok agentId =>
      let later := assignAll inputs plan candidates attempt.2 indices
      { later with assigned := (taskIdx, agentId) :: later.assigned }
    | .error .noViableCandidate => assignAll inputs plan candidates attempt.2 indices
    | .error error => ⟨[], some error, attempt.2⟩

/-- What a call of `assign_ready_tasks` has done when it ends. -/
def readyProgress (scheduler : TaskScheduler) (inputs : Nat → Instant × Draws) (plan : ExecutionPlan)
    (candidates : List LegacyRecord) : Progress :=
  if candidates = [] then ⟨[], some .noViableCandidate, scheduler⟩
  else
    match plan.readyIndices with
    | none => ⟨[], some .panicked, scheduler⟩
    | some indices => assignAll inputs plan candidates scheduler indices

/-- Assign all ready tasks in a plan. -/
def assignReadyTasks (scheduler : TaskScheduler) (inputs : Nat → Instant × Draws) (plan : ExecutionPlan)
    (candidates : List LegacyRecord) : Except SdkError (List (TaskId × AgentId)) × TaskScheduler :=
  let progress := scheduler.readyProgress inputs plan candidates
  match progress.failed with
  | some error => (.error error, progress.scheduler)
  | none =>
    (.ok (progress.assigned.filterMap fun entry =>
      plan.tasks[entry.1]?.map fun task => (task.id, entry.2)), progress.scheduler)

end TaskScheduler

end Aafp.Execution
