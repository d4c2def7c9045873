import Aafp.Foundation.HashMap
import Aafp.Identity.AgentId

/-! The planner of capability chains. -/
namespace Aafp.Discovery

open Foundation Identity

/-- The floating-point arithmetic of latencies and weights. Of its laws, only one is used. -/
structure Arithmetic (F : Type) where
  zero : F
  one : F
  infinity : F
  add : F → F → F
  sub : F → F → F
  mul : F → F → F
  min : F → F → F
  ofNat : Nat → F
  less : F → F → Bool
  less_trans : ∀ first second third, less first second = true → less second third = true →
    less first third = true

structure Requirement where
  kind : String
deriving DecidableEq

/-- The attributes are in the order in which they are iterated, their values in debug form. -/
structure OutputSpec where
  kind : String
  attributes : List (String × String)
deriving DecidableEq

structure SemanticCapability (F : Type) where
  name : String
  avgLatencyMs : F
  perInvocationMicroUsd : UInt64
  requirements : List Requirement
  provides : List OutputSpec
deriving DecidableEq

structure CapabilityQuery (F : Type) where
  name : String
  matching : SemanticCapability F → Bool

structure Precondition where
  kind : String
  attributes : List (String × String)
deriving DecidableEq

structure Effect where
  kind : String
  attributes : List (String × String)
deriving DecidableEq

structure PlannedStep (F : Type) where
  index : Nat
  capability : SemanticCapability F
  agentId : AgentId
  dependsOn : List Nat
  preconditions : List Precondition
  effects : List Effect
  estimatedLatencyMs : F
  estimatedCostMicroUsd : UInt64
deriving DecidableEq

structure ExecutionPlan (F : Type) where
  steps : List (PlannedStep F)
  estimatedTotalLatencyMs : F
  estimatedTotalCostMicroUsd : UInt64
  agentCount : Nat
  complete : Bool
deriving DecidableEq

inductive PlanningError where
  | noSolution (goal : String)
  | missingCapability (kind : String)
  | complexityExceeded (maxSteps : Nat)
  | costExceeded (budgetMicroUsd : UInt64)
  | cycleDetected (node : String)
deriving DecidableEq

structure HeuristicPlanner (F : Type) where
  maxSteps : Nat
  maxCostMicroUsd : UInt64
  latencyWeight : F

def outputToEffect (output : OutputSpec) : Effect := ⟨output.kind, output.attributes⟩

def requirementToPrecondition (requirement : Requirement) : Precondition := ⟨requirement.kind, []⟩

def effectMatches (provided needed : Effect) : Bool := provided.kind = needed.kind

def Precondition.toEffect (needed : Precondition) : Effect := ⟨needed.kind, needed.attributes⟩

def Effect.toPrecondition (effect : Effect) : Precondition := ⟨effect.kind, effect.attributes⟩

variable {F : Type}

def SemanticCapability.provided (cap : SemanticCapability F) (needed : Effect) : Bool :=
  cap.provides.any fun output => effectMatches (outputToEffect output) needed

def goalToOutputEffects (goal : CapabilityQuery F) (available : List (SemanticCapability F)) : List Effect :=
  let effects := (available.filter fun cap => cap.name = goal.name ∧ goal.matching cap).flatMap
    fun cap => cap.provides.map outputToEffect
  if effects.isEmpty then [⟨goal.name, []⟩] else effects

/-- The default id of an agent: the planner does not choose one. -/
def unchosenAgent : AgentId := .filled 0

def plannedStep (index : Nat) (cap : SemanticCapability F) (dependsOn : List Nat) : PlannedStep F where
  index
  capability := cap
  agentId := unchosenAgent
  dependsOn
  preconditions := cap.requirements.map requirementToPrecondition
  effects := cap.provides.map outputToEffect
  estimatedLatencyMs := cap.avgLatencyMs
  estimatedCostMicroUsd := cap.perInvocationMicroUsd

/-- `min_by_key`: the first of those with the least cost. -/
def cheapest (candidates : List (SemanticCapability F)) : Option (SemanticCapability F) :=
  candidates.foldl (fun best cap => match best with
    | none => some cap
    | some least => if cap.perInvocationMicroUsd < least.perInvocationMicroUsd then some cap else some least)
    none

def chosen (available : List (SemanticCapability F)) (needed : Effect) : Option (SemanticCapability F) :=
  cheapest (available.filter fun cap => cap.provided needed)

structure Draft (F : Type) where
  steps : List (PlannedStep F)
  satisfied : HashSet Effect

def Draft.push (draft : Draft F) (step : PlannedStep F) : Draft F where
  steps := draft.steps ++ [step]
  satisfied := draft.satisfied.insertAll step.effects

section Greedy

variable (available : List (SemanticCapability F))

/-- Satisfy one requirement after the other. The capability depends on all steps that are
added on the way. -/
def satisfyAll (satisfy : Precondition → Draft F → Except PlanningError (Draft F)) :
    List Requirement → List Nat × Draft F → Except PlanningError (List Nat × Draft F)
  | [], chain => .ok chain
  | requirement :: requirements, (depends, draft) => do
    let extended ← satisfy (requirementToPrecondition requirement) draft
    satisfyAll satisfy requirements
      (depends ++ List.range' draft.steps.length (extended.steps.length - draft.steps.length), extended)

/-- The body of the recursion of `satisfy`; the names in `visiting` are taken out of it again
when a call returns. -/
def satisfyBy (deeper : List String → Precondition → Draft F → Except PlanningError (Draft F))
    (visiting : List String) (needed : Precondition) (draft : Draft F) : Except PlanningError (Draft F) :=
  if needed.toEffect ∈ draft.satisfied then .ok draft
  else match chosen available needed.toEffect with
    | none => .error (.missingCapability needed.kind)
    | some cap =>
      if cap.name ∈ visiting then .error (.cycleDetected cap.name)
      else do
        let (depends, extended) ← satisfyAll (deeper (cap.name :: visiting)) cap.requirements ([], draft)
        .ok (extended.push (plannedStep extended.steps.length cap depends))

/-- No name is visited twice on one path, so calls nest at most as deep as there are names. -/
def satisfy : (depth : Nat) → (visiting : List String) → Precondition → Draft F →
    Except PlanningError (Draft F)
  | 0 => satisfyBy available fun _ needed _ => .error (.cycleDetected needed.kind)
  | depth + 1 => satisfyBy available (satisfy depth)

def satisfyGoals (goalEffects : List Effect) : Except PlanningError (Draft F) :=
  goalEffects.foldlM (fun draft effect => satisfy available available.length [] effect.toPrecondition draft)
    ⟨[], ∅⟩

end Greedy

variable (arith : Arithmetic F)

def finalize (steps : List (PlannedStep F)) : ExecutionPlan F where
  steps
  estimatedTotalLatencyMs := (steps.map PlannedStep.estimatedLatencyMs).foldl arith.add arith.zero
  estimatedTotalCostMicroUsd := (steps.map PlannedStep.estimatedCostMicroUsd).foldl (· + ·) 0
  agentCount := (steps.map PlannedStep.agentId).dedup.length
  complete := true

/-- A node of the search: the steps committed so far, the effects they have, the cost so far
and the estimate of the rest. -/
structure SearchNode (F : Type) where
  steps : List (PlannedStep F)
  satisfied : HashSet Effect
  g : F
  h : F

structure PopOrder (F : Type) where
  pop : List (SearchNode F) → Option (SearchNode F × List (SearchNode F))
  perm : ∀ nodes node rest, pop nodes = some (node, rest) → (node :: rest).Perm nodes

namespace HeuristicPlanner

def heuristic (goal : List Effect) (available : List (SemanticCapability F)) : F :=
  let minLat := (available.map SemanticCapability.avgLatencyMs).foldl arith.min arith.infinity
  arith.mul (arith.ofNat goal.length) minLat

variable (planner : HeuristicPlanner F)

def objective (plan : ExecutionPlan F) : F :=
  arith.add (arith.mul planner.latencyWeight plan.estimatedTotalLatencyMs)
    (arith.mul (arith.sub arith.one planner.latencyWeight)
      (arith.ofNat plan.estimatedTotalCostMicroUsd.toNat))

def greedyPlan (goal : CapabilityQuery F) (available : List (SemanticCapability F)) :
    Except PlanningError (ExecutionPlan F) := do
  let draft ← satisfyGoals available (goalToOutputEffects goal available)
  .ok (finalize arith draft.steps)

/-- The effects that are not satisfied yet: of the goal, then the preconditions of the steps. -/
def openEffects (goalEffects : List Effect) (node : SearchNode F) : List Effect :=
  (goalEffects ++ node.steps.flatMap fun step => step.preconditions.map Precondition.toEffect).filter
    fun effect => effect ∉ node.satisfied

def extend (goalEffects : List Effect) (available : List (SemanticCapability F)) (node : SearchNode F)
    (cap : SemanticCapability F) : SearchNode F :=
  let index := node.steps.length
  let steps := node.steps ++ [plannedStep index cap (List.range index)]
  { steps
    satisfied := node.satisfied.insertAll (cap.provides.map outputToEffect)
    g := planner.objective arith (finalize arith steps)
    h := heuristic arith goalEffects available }

def expand (goalEffects : List Effect) (available : List (SemanticCapability F)) (node : SearchNode F) :
    List (SearchNode F) :=
  (openEffects goalEffects node).flatMap fun effect =>
    (available.filter fun cap => cap.provided effect).map (planner.extend arith goalEffects available node)

def preconditionsMet (node : SearchNode F) : Bool :=
  node.steps.all fun step => step.preconditions.all fun needed => needed.toEffect ∈ node.satisfied

/-- The plan of a node that reaches the goal replaces the best one if it is better. -/
def improve (best : ExecutionPlan F) (node : SearchNode F) : ExecutionPlan F :=
  let plan := finalize arith node.steps
  if preconditionsMet node ∧ arith.less (planner.objective arith plan) (planner.objective arith best) then plan
  else best

/-- The rest of the loop. A node that reaches the goal is not extended, whether its preconditions
are met or not. -/
def refineLoop (order : PopOrder F) (goalEffects : List Effect) (available : List (SemanticCapability F)) :
    (iterations : Nat) → (opened : List (SearchNode F)) → (best : ExecutionPlan F) → ExecutionPlan F
  | 0, _, best => best
  | iterations + 1, opened, best =>
    match order.pop opened with
    | none => best
    | some (node, rest) =>
      if node.steps.length > planner.maxSteps then
        refineLoop order goalEffects available iterations rest best
      else if goalEffects.all fun effect => effect ∈ node.satisfied then
        refineLoop order goalEffects available iterations rest (planner.improve arith best node)
      else
        refineLoop order goalEffects available iterations
          (rest ++ planner.expand arith goalEffects available node) best

/-- A* over the graph to optimize the greedy plan. -/
def astarRefine (order : PopOrder F) (goal : CapabilityQuery F) (available : List (SemanticCapability F))
    (greedy : ExecutionPlan F) : ExecutionPlan F :=
  let goalEffects := goalToOutputEffects goal available
  let root : SearchNode F := ⟨[], ∅, arith.zero, heuristic arith goalEffects available⟩
  planner.refineLoop arith order goalEffects available 10000 [root] greedy

/-- Find an execution plan that achieves the goal. -/
def plan (order : PopOrder F) (goal : CapabilityQuery F) (available : List (SemanticCapability F)) :
    Except PlanningError (ExecutionPlan F) := do
  let greedy ← greedyPlan arith goal available
  if greedy.steps.length > planner.maxSteps then .error (.complexityExceeded planner.maxSteps)
  else if greedy.estimatedTotalCostMicroUsd > planner.maxCostMicroUsd then
    .error (.costExceeded planner.maxCostMicroUsd)
  else .ok (planner.astarRefine arith order goal available greedy)

end HeuristicPlanner

end Aafp.Discovery
