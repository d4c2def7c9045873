import Aafp.Cbor.Fields
import Aafp.Identity.AgentId

/-! Execution plans. -/
namespace Aafp.Execution

open Foundation Cbor Crypto List

/-- The errors of the execution fabric, and the panics of what it calls. -/
inductive SdkError where
  | messaging (text : String)
  | io
  | timeout
  | noViableCandidate
  | panicked
deriving DecidableEq

abbrev PlanId := Bytes32

abbrev TaskId := Bytes32

namespace TaskId

def fromSeed (sha256 : List UInt8 → Bytes32) (seed : List UInt8) : TaskId := sha256 seed

end TaskId

inductive TaskStatus where
  | pending
  | assigned
  | running
  | completed (output : List UInt8)
  | failed (message : String)
  | cancelled
deriving DecidableEq

namespace TaskStatus

def isTerminal : TaskStatus → Bool
  | completed _ | failed _ | cancelled => true
  | _ => false

def isCompleted : TaskStatus → Bool
  | completed _ => true
  | _ => false

def variantTag : TaskStatus → UInt64
  | pending => 0
  | assigned => 1
  | running => 2
  | completed _ => 3
  | failed _ => 4
  | cancelled => 5

def payload : TaskStatus → List (Int64 × Value)
  | completed output => [(2, .byteString output)]
  | failed message => [(2, .textString message)]
  | _ => []

def toCbor (status : TaskStatus) : Value :=
  .intMap ((1, .unsigned status.variantTag) :: status.payload)

def fromCbor (val : Value) : Except SdkError TaskStatus :=
  match intMapGet val 1 with
  | some (.unsigned tag) =>
    match tag with
    | 0 => .ok pending
    | 1 => .ok assigned
    | 2 => .ok running
    | 3 =>
      match intMapGet val 2 with
      | some (.byteString output) => .ok (completed output)
      | _ => .error (.messaging "TaskStatus::Completed: missing output")
    | 4 =>
      match intMapGet val 2 with
      | some (.textString message) => .ok (failed message)
      | _ => .error (.messaging "TaskStatus::Failed: missing message")
    | 5 => .ok cancelled
    | tag => .error (.messaging s!"TaskStatus: unknown variant {tag}")
  | _ => .error (.messaging "TaskStatus: missing variant tag")

theorem toCbor_embeds (status : TaskStatus) : status.toCbor.WellFormed ∧ status.toCbor.height ≤ 2 := by
  constructor
  · cases status <;>
      exact .intMap (by simp [payload]) (by simp [payload, Value.WellFormed.unsigned,
        Value.WellFormed.byteString, Value.WellFormed.textString])
  · apply height_intMap_le
    cases status <;> simp [payload, Value.height]

theorem fromCbor_norm (status : TaskStatus) : fromCbor status.toCbor.norm = .ok status := by
  cases status <;> simp [fromCbor, toCbor, payload, variantTag]

end TaskStatus

inductive DependencyType where
  | dataDependency
  | controlDependency
  | resourceDependency
deriving DecidableEq

structure GpuRequirement where
  minVramMb : UInt32
  computeCapability : Option String
deriving DecidableEq

structure ResourceRequirements where
  cpuCores : Option UInt32 := none
  memoryMb : Option UInt32 := none
  gpu : Option GpuRequirement := none
  diskMb : Option UInt64 := none
  network : Bool := false
deriving DecidableEq

structure TaskNode where
  id : TaskId
  capability : String
  input : List UInt8
  estimatedDurationMs : UInt64
  resources : ResourceRequirements
  assignedAgent : Option Identity.AgentId
  status : TaskStatus
  retryCount : UInt32
deriving DecidableEq

/-- What the id of a task is the hash of. -/
def TaskNode.seed (capability : String) (input : List UInt8) (durationMs : UInt64) : List UInt8 :=
  asBytes capability ++ input ++ bigEndian 8 durationMs.toNat

/-- A pending task. Its id is the hash of its capability, input and duration. -/
def TaskNode.new (sha256 : List UInt8 → Bytes32) (capability : String) (input : List UInt8)
    (estimatedDurationMs : UInt64) : TaskNode where
  id := .fromSeed sha256 (seed capability input estimatedDurationMs)
  capability := capability
  input := input
  estimatedDurationMs := estimatedDurationMs
  resources := {}
  assignedAgent := none
  status := .pending
  retryCount := 0

namespace TaskNode

theorem seed_eq_iff {capability : String} {input : List UInt8} {duration otherDuration : UInt64} :
    seed capability input duration = seed other otherInput otherDuration ↔
      asBytes capability ++ input = asBytes other ++ otherInput ∧ duration = otherDuration := by
  constructor
  · intro same
    obtain ⟨content, last⟩ := append_inj' same (by simp)
    have read := congrArg ofBigEndian last
    rw [ofBigEndian_bigEndian_of_lt duration.toNat_lt, ofBigEndian_bigEndian_of_lt otherDuration.toNat_lt] at read
    exact ⟨content, UInt64.toNat_inj.mp read⟩
  · rintro ⟨content, rfl⟩
    rw [seed, seed, content]

/-- Tasks are told apart by their ids, unless they differ only in where their bytes are cut into the
capability and the input. -/
theorem id_identifies_iff (sha256 : List UInt8 → Bytes32) (capability other : String) (input otherInput : List UInt8)
    (duration otherDuration : UInt64)
    (noCollision : sha256 (seed capability input duration) = sha256 (seed other otherInput otherDuration) →
      seed capability input duration = seed other otherInput otherDuration) :
    ((new sha256 capability input duration).id = (new sha256 other otherInput otherDuration).id →
      capability = other ∧ input = otherInput ∧ duration = otherDuration) ↔
    (asBytes capability ++ input = asBytes other ++ otherInput → duration = otherDuration → capability = other) := by
  constructor
  · intro identifies content sameDuration
    have same := seed_eq_iff.mpr ⟨content, sameDuration⟩
    exact (identifies (congrArg sha256 same)).1
  · intro uncut same
    obtain ⟨content, sameDuration⟩ := seed_eq_iff.mp (noCollision same)
    obtain rfl := uncut content sameDuration
    exact ⟨rfl, append_cancel_left content, sameDuration⟩

theorem id_identifies_first_byte :
    "a" ≠ "b" ∧ (new (fun seed => .filled (seed.headD 0)) "a" [] 1).id ≠
      (new (fun seed => .filled (seed.headD 0)) "b" [] 1).id := by
  refine ⟨by decide, fun same => ?_⟩
  have identifies := (id_identifies_iff (fun seed => .filled (seed.headD 0)) "a" "b" [] [] 1 1 (by decide)).mpr
    (by decide)
  exact absurd (identifies same).1 (by decide)

/-- Whatever the hash, two tasks with different capabilities and inputs have the same id. -/
theorem id_ignores_cut : (fun sha256 : List UInt8 → Bytes32 => (new sha256 "a" [98] 1).id) =
    (fun sha256 => (new sha256 "ab" [] 1).id) ∧ "a" ≠ "ab" := by
  refine ⟨funext fun sha256 => ?_, by decide⟩
  exact congrArg sha256 (seed_eq_iff.mpr ⟨by decide, rfl⟩)

end TaskNode

structure Edge where
  source : Nat
  target : Nat
  kind : DependencyType
deriving DecidableEq

structure ExecutionPlan where
  id : PlanId
  goal : String
  tasks : List TaskNode
  edges : List Edge
  estimatedCost : UInt64
  estimatedLatencyMs : UInt64
  resourceRequirements : ResourceRequirements
  createdAt : UInt64
  version : UInt32

namespace ExecutionPlan

def dataDependencies (plan : ExecutionPlan) (taskIdx : Nat) : List Nat :=
  (plan.edges.filter fun edge => edge.target = taskIdx ∧ edge.kind = .dataDependency).map Edge.source

/-- The search stops at the first task that is not completed. An index out of bounds that it meets
is a panic. -/
def allCompleted (plan : ExecutionPlan) : List Nat → Option Bool
  | [] => some true
  | dep :: deps => do
    let task ← plan.tasks[dep]?
    if task.status.isCompleted then plan.allCompleted deps else some false

def dependenciesMet (plan : ExecutionPlan) (taskIdx : Nat) : Option Bool :=
  plan.allCompleted (plan.dataDependencies taskIdx)

def InBounds (plan : ExecutionPlan) : Prop :=
  ∀ edge ∈ plan.edges, edge.source < plan.tasks.length ∧ edge.target < plan.tasks.length

instance (plan : ExecutionPlan) : Decidable plan.InBounds := inferInstanceAs (Decidable (∀ _ ∈ _, _))

def CompletedAt (plan : ExecutionPlan) (taskIdx : Nat) : Prop :=
  ∃ task, plan.tasks[taskIdx]? = some task ∧ task.status.isCompleted

theorem allCompleted_eq_some {plan : ExecutionPlan} {deps : List Nat}
    (inBounds : ∀ dep ∈ deps, dep < plan.tasks.length) :
    ∃ answer, plan.allCompleted deps = some answer ∧ (answer = true ↔ ∀ dep ∈ deps, plan.CompletedAt dep) := by
  induction deps with
  | nil => exact ⟨true, rfl, by simp⟩
  | cons dep deps ih =>
    rw [forall_mem_cons] at inBounds
    have found := getElem?_eq_getElem inBounds.1
    obtain ⟨answer, same, exactly⟩ := ih inBounds.2
    rw [allCompleted, found, Option.bind_eq_bind, Option.bind_some]
    by_cases completed : plan.tasks[dep].status.isCompleted
    · refine ⟨answer, by rw [if_pos completed, same], ?_⟩
      rw [exactly, forall_mem_cons, and_iff_right ⟨_, found, completed⟩]
    · refine ⟨false, if_neg completed, iff_of_false nofun ?_⟩
      intro each
      obtain ⟨task, here, done⟩ := each dep mem_cons_self
      rw [found] at here
      cases here
      exact completed done

/-- With edges in bounds, the data dependencies of a task are met exactly if the tasks that it has
its data from are completed. -/
theorem dependenciesMet_iff {plan : ExecutionPlan} (inBounds : plan.InBounds) (taskIdx : Nat) :
    ∃ answer, plan.dependenciesMet taskIdx = some answer ∧ (answer = true ↔
      ∀ edge ∈ plan.edges, edge.target = taskIdx → edge.kind = .dataDependency → plan.CompletedAt edge.source) := by
  obtain ⟨answer, same, exactly⟩ := @allCompleted_eq_some plan (plan.dataDependencies taskIdx) (by
    intro dep mem
    obtain ⟨edge, listed, rfl⟩ := mem_map.mp mem
    exact (inBounds edge (mem_of_mem_filter listed)).1)
  refine ⟨answer, same, exactly.trans ?_⟩
  rw [dataDependencies, forall_mem_map]
  simp only [mem_filter, decide_eq_true_eq, and_imp]

end ExecutionPlan

end Aafp.Execution
