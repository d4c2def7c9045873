import Aafp.Execution.Plan
import Aafp.Foundation.ChainLabels

/-! What the edges of a plan say about its tasks. -/
namespace Aafp.Execution

open Foundation Relation List

/-- Edges that are out of range are skipped, and an edge that is listed twice counts twice. -/
def taskGraph (n : Nat) (edges : List Edge) : Graph Nat where
  nodes := range n
  links := (edges.filter fun edge => edge.source < n ∧ edge.target < n).map fun edge => (edge.source, edge.target)
  distinct := nodup_range
  inside := by
    intro link listed
    obtain ⟨edge, found, rfl⟩ := mem_map.mp listed
    simpa using (mem_filter.mp found).2

/-- A task's duration. The index is always one of a task. -/
def durationOf (tasks : List TaskNode) (node : Nat) : Nat :=
  (tasks[node]?.map fun task => task.estimatedDurationMs.toNat).getD 0

/-- The finish of a task from that of its predecessors, with `saturating_add`. -/
def finishOf (tasks : List TaskNode) (node start : Nat) : Nat := min (start + durationOf tasks node) (2 ^ 64 - 1)

namespace ExecutionPlan

/-- `earliest_finish` and the number of tasks that were processed. -/
structure Durations where
  earliestFinish : Nat → Nat
  processed : Nat

namespace Durations

def visit (tasks : List TaskNode) (node : Nat) (durations : Durations) : Durations where
  earliestFinish := Function.update durations.earliestFinish node
    (finishOf tasks node (durations.earliestFinish node))
  processed := durations.processed + 1

def relax (node succ : Nat) (durations : Durations) : Durations :=
  if durations.earliestFinish node > durations.earliestFinish succ then
    { durations with
      earliestFinish := Function.update durations.earliestFinish succ (durations.earliestFinish node) }
  else durations

end Durations

/-- With a cycle, the sum of all durations. -/
def computeCriticalPathDuration (tasks : List TaskNode) (edges : List Edge) : Nat :=
  let n := tasks.length
  if n = 0 then 0
  else
    let final := ((taskGraph n edges).run (Durations.visit tasks) Durations.relax ⟨fun _ => 0, 0⟩).2
    if final.processed < n then
      tasks.foldl (fun sum task => min (sum + task.estimatedDurationMs.toNat) (2 ^ 64 - 1)) 0
    else ((range n).map final.earliestFinish).max?.getD 0

structure Levels where
  level : Nat → Nat
  maxLevel : Nat

namespace Levels

def visit (node : Nat) (levels : Levels) : Levels :=
  if levels.level node > levels.maxLevel then { levels with maxLevel := levels.level node } else levels

def relax (node succ : Nat) (levels : Levels) : Levels :=
  { levels with level := Function.update levels.level succ (max (levels.level succ) (levels.level node + 1)) }

end Levels

variable (plan : ExecutionPlan)

def graph : Graph Nat := taskGraph plan.tasks.length plan.edges

def topologicalSort : List Nat := plan.graph.order

/-- `earliest_finish` and the predecessor of each task. -/
def finishes : Graph.Labels Nat Unit :=
  plan.topologicalSort.foldl (plan.graph.process (Graph.Labels.visit (finishOf plan.tasks) fun _ tally => tally)
    (Graph.Labels.relax fun finish => finish)) (.blank ())

/-- The critical path, going back for a number of steps at most. -/
def criticalPathWithin (steps : Nat) : List Nat :=
  let n := plan.tasks.length
  if n = 0 then []
  else if plan.topologicalSort.length < n then plan.topologicalSort
  else
    let endNode := (maxBy (compareOn plan.finishes.value) (range n)).getD 0
    (Graph.backtrack plan.finishes.predecessor steps (some endNode)).reverse

/-- Without a cycle, more steps than tasks are never needed (`critical_path_longest`). -/
def criticalPath : List Nat := plan.criticalPathWithin plan.tasks.length

/-- Tasks by their level; a level without tasks is left out. -/
def parallelGroups : List (List Nat) :=
  let n := plan.tasks.length
  if n = 0 then []
  else
    let final := (plan.graph.run Levels.visit Levels.relax ⟨fun _ => 0, 0⟩).2
    ((range (final.maxLevel + 1)).map fun level =>
      (range n).filter fun node => final.level node = level).filter fun group => !group.isEmpty

def checkEdges (n : Nat) : List Edge → Except SdkError Unit
  | [] => .ok ()
  | edge :: edges =>
    if edge.source ≥ n then
      .error (.messaging s!"ExecutionPlan: edge from index {edge.source} out of bounds (tasks={n})")
    else if edge.target ≥ n then
      .error (.messaging s!"ExecutionPlan: edge to index {edge.target} out of bounds (tasks={n})")
    else checkEdges n edges

def validate : Except SdkError Unit := do
  let n := plan.tasks.length
  checkEdges n plan.edges
  let topo := plan.topologicalSort
  if topo.length ≠ n then
    .error (.messaging s!"ExecutionPlan: cycle detected ({topo.length} of {n} tasks in topological order)")
  else .ok ()

/-- The first task is before each of the two others. -/
def forkedPlan : ExecutionPlan where
  id := .filled 0
  goal := ""
  tasks := [2, 3, 1].map (TaskNode.new (fun _ => .filled 0) "" [])
  edges := [⟨0, 1, .dataDependency⟩, ⟨0, 2, .dataDependency⟩]
  estimatedCost := 0
  estimatedLatencyMs := 0
  resourceRequirements := {}
  createdAt := 0
  version := 1

def Linked (source target : Nat) : Prop := ∃ edge ∈ plan.edges, edge.source = source ∧ edge.target = target

def LinkedWithin (source target : Nat) : Prop :=
  plan.Linked source target ∧ source < plan.tasks.length ∧ target < plan.tasks.length

variable {plan}

theorem graph_linked : plan.graph.Linked = plan.LinkedWithin := by
  funext source target
  simp only [Graph.Linked, graph, taskGraph, LinkedWithin, Linked, mem_map, mem_filter,
    decide_eq_true_eq, Prod.mk.injEq, eq_iff_iff]
  constructor
  · rintro ⟨edge, ⟨listed, within⟩, rfl, rfl⟩
    exact ⟨⟨edge, listed, rfl, rfl⟩, within⟩
  · rintro ⟨⟨edge, listed, rfl, rfl⟩, within⟩
    exact ⟨edge, ⟨listed, within⟩, rfl, rfl⟩

theorem InBounds.linkedWithin_eq (inBounds : plan.InBounds) : plan.LinkedWithin = plan.Linked := by
  funext source target
  refine propext (and_iff_left_of_imp ?_)
  rintro ⟨edge, listed, rfl, rfl⟩
  exact inBounds edge listed

theorem mem_nodes : node ∈ plan.graph.nodes ↔ node < plan.tasks.length := mem_range

theorem length_nodes : plan.graph.nodes.length = plan.tasks.length := length_range

theorem length_topologicalSort_iff :
    plan.topologicalSort.length = plan.tasks.length ↔ ∀ task, ¬ TransGen plan.LinkedWithin task task := by
  rw [← graph_linked, ← length_nodes]
  exact plan.graph.length_order_iff

theorem checkEdges_eq_ok {edges : List Edge} :
    checkEdges n edges = .ok () ↔ ∀ edge ∈ edges, edge.source < n ∧ edge.target < n := by
  induction edges with
  | nil => simp [checkEdges]
  | cons edge edges ih =>
    rw [checkEdges, ite_error_eq_ok, ite_error_eq_ok, ih, forall_mem_cons]
    simp only [not_le, and_assoc]

theorem validate_eq_ok : plan.validate = .ok () ↔
    plan.InBounds ∧ plan.topologicalSort.length = plan.tasks.length := by
  simp only [validate, unit_bind_eq_ok, checkEdges_eq_ok, ite_error_eq_ok, not_not, and_true, InBounds]

/-- The topological order has each task at most once, after all tasks with an edge to it, and all
tasks exactly if there is no cycle. -/
theorem validation_exact (plan : ExecutionPlan) :
    plan.topologicalSort.Nodup ∧ (∀ task ∈ plan.topologicalSort, task < plan.tasks.length) ∧
    (∀ source target, plan.LinkedWithin source target → target ∈ plan.topologicalSort →
      ∃ front back, plan.topologicalSort = front ++ target :: back ∧ source ∈ front) ∧
    (plan.topologicalSort.length = plan.tasks.length ↔ ∀ task, ¬ TransGen plan.LinkedWithin task task) ∧
    (plan.validate = .ok () ↔ plan.InBounds ∧ ∀ task, ¬ TransGen plan.Linked task task) := by
  refine ⟨plan.graph.nodup_order, fun task taken => mem_nodes.mp (Graph.mem_nodes_of_order taken), ?_,
    length_topologicalSort_iff, ?_⟩
  · intro source target linked taken
    rw [← graph_linked] at linked
    exact Graph.order_preceded linked taken
  · rw [validate_eq_ok, length_topologicalSort_iff]
    exact and_congr_right fun inBounds => by rw [inBounds.linkedWithin_eq]

end ExecutionPlan

end Aafp.Execution
