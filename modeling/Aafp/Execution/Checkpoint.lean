import Aafp.Execution.Plan
import Aafp.Foundation.Ledger

/-! Checkpoints. -/
namespace Aafp.Execution

open Foundation Cbor Crypto List

def checkpointVersion : UInt32 := 1

structure Checkpoint where
  planId : PlanId
  completedTasks : List (TaskId × TaskStatus)
  createdAt : UInt64
  version : UInt32

namespace Checkpoint

/-- `now` is the Unix time in seconds. -/
def fromPlan (plan : ExecutionPlan) (now : UInt64) : Checkpoint where
  planId := plan.id
  completedTasks :=
    (plan.tasks.filter fun task => task.status.isTerminal).map fun task => (task.id, task.status)
  createdAt := now
  version := checkpointVersion

def statusMap (checkpoint : Checkpoint) : AList fun _ : TaskId => TaskStatus :=
  checkpoint.completedTasks.foldl (fun map entry => map.insert entry.1 entry.2) ∅

def applyStatuses (statusMap : AList fun _ : TaskId => TaskStatus) : List TaskNode → List TaskNode × Nat
  | [] => ([], 0)
  | task :: tasks =>
    match statusMap.lookup task.id with
    | some status =>
      ({ task with status } :: (applyStatuses statusMap tasks).1, (applyStatuses statusMap tasks).2 + 1)
    | none => (task :: (applyStatuses statusMap tasks).1, (applyStatuses statusMap tasks).2)

def applyToPlan (checkpoint : Checkpoint) (plan : ExecutionPlan) : ExecutionPlan × Nat :=
  let applied := applyStatuses checkpoint.statusMap plan.tasks
  ({ plan with tasks := applied.1 }, applied.2)

def taskToCbor (entry : TaskId × TaskStatus) : Value :=
  .intMap [(1, .byteString entry.1.1), (2, entry.2.toCbor)]

def toCbor (checkpoint : Checkpoint) : Value :=
  .intMap [ (1, .byteString checkpoint.planId.1), (2, .array (checkpoint.completedTasks.map taskToCbor)),
    (3, .unsigned checkpoint.createdAt), (4, .unsigned checkpoint.version.toUInt64)]

def expectId (val : Option Value) (field : String) : Except SdkError Bytes32 :=
  match val with
  | some (.byteString bytes) =>
    let len := bytes.length
    if whole : bytes.length = 32 then .ok ⟨bytes, whole⟩
    else .error (.messaging s!"Checkpoint: {field} must be 32 bytes, got {len}")
  | _ => .error (.messaging s!"Checkpoint: missing {field}")

def taskFromCbor (item : Value) : Except SdkError (TaskId × TaskStatus) := do
  let id ← expectId (intMapGet item 1) "task id"
  let status ← match intMapGet item 2 with
    | some val => TaskStatus.fromCbor val
    | none => .error (.messaging "Checkpoint: missing task status")
  .ok (id, status)

def tasksFromCbor (val : Option Value) : Except SdkError (List (TaskId × TaskStatus)) :=
  match val with
  | some (.array items) => items.mapM taskFromCbor
  | _ => .error (.messaging "Checkpoint: missing completed_tasks")

def createdAtFromCbor (val : Option Value) : Except SdkError UInt64 :=
  match val with
  | some (.unsigned n) => .ok n
  | none => .ok 0
  | _ => .error (.messaging "Checkpoint: created_at not uint")

def versionFromCbor (val : Option Value) : Except SdkError UInt32 :=
  match val with
  | some (.unsigned n) =>
    if n > 0xFFFFFFFF then .error (.messaging "Checkpoint: version overflow") else .ok n.toUInt32
  | none => .ok checkpointVersion
  | _ => .error (.messaging "Checkpoint: version not uint")

def fromCbor (val : Value) : Except SdkError Checkpoint := do
  let planId ← expectId (intMapGet val 1) "plan_id"
  let completedTasks ← tasksFromCbor (intMapGet val 2)
  let createdAt ← createdAtFromCbor (intMapGet val 3)
  let version ← versionFromCbor (intMapGet val 4)
  .ok { planId, completedTasks, createdAt, version }

def toBytes (checkpoint : Checkpoint) : Except SdkError (List UInt8) :=
  (encode checkpoint.toCbor).mapError fun error => .messaging s!"cbor encode: {error}"

def fromBytes (data : List UInt8) : Except SdkError Checkpoint := do
  let (val, consumed) ← (decode data).mapError fun error => .messaging s!"cbor decode: {error}"
  if consumed ≠ data.length then
    let trailing := data.length - consumed
    .error (.messaging s!"Checkpoint: {trailing} trailing bytes after decode")
  else fromCbor val

def bytes (checkpoint : Checkpoint) : List UInt8 := encodeValue checkpoint.toCbor

section

variable (entry : TaskId × TaskStatus) (checkpoint : Checkpoint)

theorem toBytes_eq : checkpoint.toBytes = .ok checkpoint.bytes := rfl

theorem taskToCbor_embeds : (taskToCbor entry).WellFormed ∧ (taskToCbor entry).height ≤ 3 := by
  obtain ⟨formed, shallow⟩ := entry.2.toCbor_embeds
  constructor
  · refine .intMap (by simp) ?_
    simp only [forall_mem_cons]
    exact ⟨.byteString, formed, nofun⟩
  · apply height_intMap_le
    simp only [forall_mem_cons]
    exact ⟨by simp [Value.height], shallow, nofun⟩

theorem toCbor_embeds : checkpoint.toCbor.WellFormed ∧ checkpoint.toCbor.height ≤ maxDecodeDepth := by
  constructor
  · refine .intMap (by simp) ?_
    simp only [forall_mem_cons]
    refine ⟨.byteString, .array ?_, .unsigned, .unsigned, nofun⟩
    intro item mem
    obtain ⟨entry, -, rfl⟩ := mem_map.mp mem
    exact (taskToCbor_embeds entry).1
  · have tasks : (Value.array (checkpoint.completedTasks.map taskToCbor)).height ≤ 4 := by
      apply height_array_le
      intro item mem
      obtain ⟨entry, -, rfl⟩ := mem_map.mp mem
      exact (taskToCbor_embeds entry).2
    have whole : checkpoint.toCbor.height ≤ 5 := by
      apply height_intMap_le
      simp only [forall_mem_cons]
      exact ⟨by simp [Value.height], tasks, by simp [Value.height], by simp [Value.height], nofun⟩
    exact Nat.le_trans whole (by decide)

theorem expectId_val (id : Bytes32) (field : String) : expectId (some (.byteString id.1)) field = .ok id :=
  dif_pos id.2

theorem taskFromCbor_norm : taskFromCbor (taskToCbor entry).norm = .ok entry := by
  simp [taskFromCbor, taskToCbor, expectId_val, TaskStatus.fromCbor_norm]

theorem versionFromCbor_val (version : UInt32) :
    versionFromCbor (some (.unsigned version.toUInt64)) = .ok version := by
  have small : ¬ version.toUInt64 > 0xFFFFFFFF := by
    rw [gt_iff_lt, UInt64.lt_iff_toNat_lt, Nat.not_lt]
    have bound := version.toNat_lt
    exact Nat.le_of_lt_succ bound
  unfold versionFromCbor
  simp only [small, if_false, UInt32.toUInt32_toUInt64]

theorem fromCbor_norm : fromCbor checkpoint.toCbor.norm = .ok checkpoint := by
  have tasks : tasksFromCbor (some (.array (checkpoint.completedTasks.map (Value.norm ∘ taskToCbor)))) =
      .ok checkpoint.completedTasks := by
    rw [tasksFromCbor, mapM_map]
    have each := mapM_ok (fun entry => taskFromCbor_norm entry) checkpoint.completedTasks
    rwa [map_id'] at each
  simp [fromCbor, toCbor, expectId_val, tasks, versionFromCbor_val]
  rfl

end

theorem fromBytes_bytes (bounded : checkpoint.bytes.length ≤ isizeMax) :
    fromBytes checkpoint.bytes = .ok checkpoint := by
  have read := decode_encodeValue [] checkpoint.toCbor_embeds.1 checkpoint.toCbor_embeds.2
    (by simpa [bytes] using bounded)
  rw [append_nil] at read
  have decoded : decode checkpoint.bytes = .ok (checkpoint.toCbor.norm, checkpoint.bytes.length) := read
  simp only [fromBytes, decoded, Except.mapError, ok_bind, ne_eq, not_true_eq_false, if_false, fromCbor_norm]

end Checkpoint

def ExecutionPlan.reset (plan : ExecutionPlan) : ExecutionPlan :=
  { plan with tasks := plan.tasks.map fun task => { task with status := .pending } }

/-- Each finished task has its status, every other task is pending, and the finished tasks were
counted. -/
structure Captures (plan restored : ExecutionPlan) (updated : Nat) : Prop where
  finished : ∀ (i : Nat) (task : TaskNode), plan.tasks[i]? = some task → task.status.isTerminal →
    restored.tasks[i]?.map TaskNode.status = some task.status
  others : ∀ (i : Nat) (task : TaskNode), plan.tasks[i]? = some task → ¬ task.status.isTerminal →
    restored.tasks[i]?.map TaskNode.status = some .pending
  counted : updated = plan.tasks.countP fun task : TaskNode => task.status.isTerminal

def ExecutionPlan.FinishedAlike (plan : ExecutionPlan) : Prop :=
  ∀ first ∈ plan.tasks, ∀ second ∈ plan.tasks, first.id = second.id →
    second.status.isTerminal → first.status = second.status

variable (statusMap : AList fun _ : TaskId => TaskStatus) (tasks : List TaskNode)

namespace Checkpoint

theorem applyStatuses_tasks : (applyStatuses statusMap tasks).1 =
      tasks.map fun task => { task with status := (statusMap.lookup task.id).getD task.status } := by
  induction tasks with
  | nil => rfl
  | cons task tasks ih => cases found : statusMap.lookup task.id <;> simp [applyStatuses, found, ih]

theorem applyStatuses_count :
    (applyStatuses statusMap tasks).2 = tasks.countP fun task => (statusMap.lookup task.id).isSome := by
  induction tasks with
  | nil => rfl
  | cons task tasks ih => cases found : statusMap.lookup task.id <;> simp [applyStatuses, found, ih]

variable {plan : ExecutionPlan} {now : UInt64}

theorem finished_of_lookup {id : TaskId} (found : (fromPlan plan now).statusMap.lookup id = some status) :
    ∃ task ∈ plan.tasks, task.id = id ∧ task.status = status ∧ status.isTerminal := by
  rw [statusMap, lookup_foldl_insert] at found
  obtain ⟨entry, last, rfl⟩ := Option.map_eq_some_iff.mp found
  obtain ⟨mem, same⟩ := mem_of_lastWith last
  obtain ⟨task, inside, rfl⟩ := mem_map.mp mem
  obtain ⟨listed, terminal⟩ := mem_filter.mp inside
  exact ⟨task, listed, same, rfl, terminal⟩

theorem lookup_of_finished (now : UInt64) (mem : task ∈ plan.tasks) (terminal : task.status.isTerminal) :
    ∃ status, (fromPlan plan now).statusMap.lookup task.id = some status := by
  have recorded : (task.id, task.status) ∈ (fromPlan plan now).completedTasks :=
    mem_map.mpr ⟨task, mem_filter.mpr ⟨mem, terminal⟩, rfl⟩
  obtain ⟨last, found⟩ := exists_lastWith Prod.fst recorded
  refine ⟨last.2, ?_⟩
  rw [statusMap, lookup_foldl_insert, found, Option.map_some]

theorem restored_status (now : UInt64) {i : Nat} (here : plan.tasks[i]? = some task) :
    ((fromPlan plan now).applyToPlan plan.reset).1.tasks[i]?.map TaskNode.status =
      some (((fromPlan plan now).statusMap.lookup task.id).getD .pending) := by
  simp [applyToPlan, applyStatuses_tasks, ExecutionPlan.reset, here]

theorem lookup_of_finishedAlike (alike : plan.FinishedAlike) {task : TaskNode}
    (mem : task ∈ plan.tasks) : (fromPlan plan now).statusMap.lookup task.id =
      if task.status.isTerminal then some task.status else none := by
  cases found : (fromPlan plan now).statusMap.lookup task.id with
  | some status =>
    obtain ⟨other, listed, same, rfl, terminal⟩ := finished_of_lookup found
    have equal := alike task mem other listed same.symm terminal
    rw [equal, if_pos terminal]
  | none =>
    split
    next terminal =>
      obtain ⟨status, recorded⟩ := lookup_of_finished now mem terminal
      rw [recorded] at found
      cases found
    · rfl

/-- A checkpoint captures the finished work of exactly the plans in which tasks with one id
have come equally far. -/
theorem captures_iff (plan : ExecutionPlan) (now : UInt64) :
    Captures plan ((fromPlan plan now).applyToPlan plan.reset).1
      ((fromPlan plan now).applyToPlan plan.reset).2 ↔ plan.FinishedAlike := by
  constructor
  · intro captures first mem second listed same terminal
    obtain ⟨status, found⟩ := lookup_of_finished now listed terminal
    obtain ⟨-, -, -, -, ends⟩ := finished_of_lookup found
    -- both tasks get the status that is recorded under their id
    have each : ∀ task ∈ plan.tasks, task.id = second.id → task.status = status := by
      intro task inside shared
      obtain ⟨i, here⟩ := mem_iff_getElem?.mp inside
      have gets := restored_status now here
      rw [shared, found] at gets
      by_cases done : task.status.isTerminal
      · rw [captures.finished i task here done] at gets
        exact Option.some.inj gets
      · rw [captures.others i task here done] at gets
        cases Option.some.inj gets
        cases ends
    rw [each first mem same, each second listed rfl]
  · intro alike
    constructor
    · intro i task here terminal
      rw [restored_status now here, lookup_of_finishedAlike alike (mem_of_getElem? here), if_pos terminal]
      rfl
    · intro i task here unfinished
      rw [restored_status now here, lookup_of_finishedAlike alike (mem_of_getElem? here), if_neg unfinished]
      rfl
    · rw [applyToPlan, applyStatuses_count, ExecutionPlan.reset, countP_map]
      apply countP_congr
      intro task mem
      rw [Function.comp_apply, lookup_of_finishedAlike alike mem]
      split <;> simp_all

/-- Two tasks of the same content, only one of which is done. -/
def twinPlan : ExecutionPlan :=
  let task := TaskNode.new (fun _ => .filled 0) "translate" [] 100
  { id := .filled 0, goal := "", tasks := [task, { task with status := .completed [1] }], edges := []
    estimatedCost := 200, estimatedLatencyMs := 100, resourceRequirements := {}, createdAt := 0, version := 1 }

/-- The other one is taken for done as well. -/
theorem twinPlan_not_captured : ¬ Captures twinPlan ((fromPlan twinPlan 0).applyToPlan twinPlan.reset).1
      ((fromPlan twinPlan 0).applyToPlan twinPlan.reset).2 := by
  intro captures
  have pending := captures.others 0 _ rfl (by decide)
  exact absurd pending (by decide +kernel)

end Checkpoint

end Aafp.Execution
