import Aafp.Execution.CriticalPath

/-! The parallel groups of a valid plan: a task's group is the longest chain of edges into it. -/
namespace Aafp.Execution.ExecutionPlan

open Foundation Relation List

variable {plan : ExecutionPlan}

def InGroup (groups : List (List Nat)) (task group : Nat) : Prop :=
  ∃ members, groups[group]? = some members ∧ task ∈ members

/-- The groups have each task once, and each edge leads to a later group. -/
structure Respects (plan : ExecutionPlan) (groups : List (List Nat)) : Prop where
  partition : groups.flatten.Perm (range plan.tasks.length)
  forward : ∀ source target, plan.Linked source target → ∀ before after,
    InGroup groups source before → InGroup groups target after → before < after

theorem foldl_greater (value : α → Nat) (nodes : List α) (init : Nat) :
    let greatest := nodes.foldl (fun most node => if value node > most then value node else most) init
    init ≤ greatest ∧ (∀ node ∈ nodes, value node ≤ greatest) ∧
      (greatest = init ∨ ∃ node ∈ nodes, value node = greatest) := by
  induction nodes generalizing init with
  | nil => simp
  | cons node nodes ih =>
    obtain ⟨least, all, attained⟩ := ih (if value node > init then value node else init)
    have bounds : init ≤ (if value node > init then value node else init) ∧
        value node ≤ (if value node > init then value node else init) := by
      split <;> omega
    refine ⟨bounds.1.trans least, ?_, ?_⟩
    · rw [forall_mem_cons]
      exact ⟨bounds.2.trans least, all⟩
    · rw [foldl_cons]
      rcases attained with same | ⟨other, mem, same⟩
      · rw [same]
        split
        · exact .inr ⟨node, mem_cons_self, rfl⟩
        · exact .inl rfl
      · exact .inr ⟨other, mem_cons_of_mem _ mem, same⟩

def levels (plan : ExecutionPlan) : Levels := (plan.graph.run Levels.visit Levels.relax ⟨fun _ => 0, 0⟩).2

/-- Each level is that of the longest chain into the task, the greatest is one of them, and
there is a task at each level below. -/
structure Levelled (plan : ExecutionPlan) : Prop where
  dominates : plan.graph.Dominates (fun _ => 1) fun node => plan.levels.level node + 1
  chain : ∀ task < plan.tasks.length, ∃ path, List.IsChain plan.Linked (path ++ [task]) ∧
    path.length = plan.levels.level task
  below : ∀ task < plan.tasks.length, plan.levels.level task ≤ plan.levels.maxLevel
  inhabited : plan.tasks ≠ [] → ∀ level ≤ plan.levels.maxLevel, ∃ task < plan.tasks.length,
    plan.levels.level task = level

theorem levels_eq (plan : ExecutionPlan) : ∃ predecessor, (plan.graph.labels (fun _ best => best) (· + 1)
    (fun level most => if level > most then level else most) 0) =
      ⟨plan.levels.level, predecessor, plan.levels.maxLevel⟩ := by
  let part (labels : Graph.Labels Nat Nat) : Levels := ⟨labels.value, labels.tally⟩
  have visits (node : Nat) (labels : Graph.Labels Nat Nat) : (part labels).visit node =
      part (labels.visit (fun _ best => best) (fun level most => if level > most then level else most) node) := by
    simp only [Levels.visit, Graph.Labels.visit, part, Function.update_eq_self]
    split <;> rfl
  have relaxes (node succ : Nat) (labels : Graph.Labels Nat Nat) :
      (part labels).relax node succ = part (labels.relax (· + 1) node succ) := by
    simp only [Levels.relax, Graph.Labels.relax, part]
    split
    case isTrue better => rw [Nat.max_eq_right (Nat.le_of_lt better)]
    case isFalse same => rw [Nat.max_eq_left (Nat.le_of_not_lt same), Function.update_eq_self]
  have final : plan.levels = part (plan.graph.labels (fun _ best => best) (· + 1)
      (fun level most => if level > most then level else most) 0) := by
    rw [levels, Graph.run_eq_foldl]
    exact Graph.foldl_process_hom part visits relaxes plan.graph.order (.blank 0)
  exact ⟨_, by rw [final]⟩

theorem levelled (valid : plan.validate = .ok ()) : plan.Levelled := by
  have complete := complete_of_validate valid
  obtain ⟨predecessor, final⟩ := levels_eq plan
  obtain ⟨best, labelled⟩ := complete.labelled (fun _ best => best) (· + 1)
    (fun level most => if level > most then level else most) 0
  rw [final] at labelled
  have same (node : Nat) : plan.levels.level node = best node := (labelled.value node).trans (ite_self _)
  have start (node : Nat) (here : predecessor node = none) : plan.levels.level node = 0 :=
    (same node).trans (labelled.unchosen here)
  have chosen (node source : Nat) (here : predecessor node = some source) :
      plan.graph.Linked source node ∧ plan.levels.level node = plan.levels.level source + 1 :=
    ⟨(labelled.chosen here).1, (same node).trans (labelled.chosen here).2⟩
  have longest : plan.graph.Longest (fun _ => 1) (fun node => plan.levels.level node + 1) predecessor := by
    refine ⟨⟨by simp, fun source target linked => ?_⟩, fun node here => by simp [start node here],
      fun node source here => ⟨(chosen node source here).1, by simp [(chosen node source here).2]⟩⟩
    have bound := labelled.bound source (complete source (plan.graph.inside _ linked).1) target linked
    rw [← same] at bound
    exact Nat.add_le_add_right bound 1
  obtain ⟨-, most, attained⟩ := foldl_greater plan.levels.level plan.graph.order 0
  have noted : plan.levels.maxLevel = _ := labelled.noted
  rw [← noted] at most attained
  have descends (gap : Nat) : ∀ task < plan.tasks.length, ∀ level, plan.levels.level task = level + gap →
      ∃ lower < plan.tasks.length, plan.levels.level lower = level := by
    induction gap with
    | zero => exact fun task within level here => ⟨task, within, here⟩
    | succ gap ih =>
      intro task within level here
      cases found : predecessor task with
      | none =>
        rw [start task found] at here
        omega
      | some source =>
        obtain ⟨linked, next⟩ := chosen task source found
        exact ih source (mem_nodes.mp (plan.graph.inside _ linked).1) level (by omega)
  constructor
  case dominates => exact longest.toDominates
  case chain =>
    intro task within
    obtain ⟨path, -, -, chain, sum⟩ := longest.exists_chain complete (mem_nodes.mpr within)
    rw [graph_linked.trans (validate_eq_ok.mp valid).1.linkedWithin_eq] at chain
    exact ⟨path, chain, by simpa using sum⟩
  case below => exact fun task within => most task (complete task (mem_nodes.mpr within))
  case inhabited =>
    intro nonempty level bound
    have top : ∃ task < plan.tasks.length, plan.levels.level task = plan.levels.maxLevel := by
      rcases attained with zero | ⟨task, taken, reached⟩
      · have first := length_pos_iff.mpr nonempty
        have none := most 0 (complete 0 (mem_nodes.mpr first))
        exact ⟨0, first, by omega⟩
      · exact ⟨task, mem_nodes.mp (Graph.mem_nodes_of_order taken), reached⟩
    obtain ⟨task, within, reached⟩ := top
    exact descends (plan.levels.maxLevel - level) task within level (by omega)

def tasksAt (plan : ExecutionPlan) (level : Nat) : List Nat :=
  (range plan.tasks.length).filter fun node => plan.levels.level node = level

theorem mem_tasksAt : task ∈ plan.tasksAt level ↔ task < plan.tasks.length ∧ plan.levels.level task = level := by
  simp [tasksAt]

theorem Levelled.parallelGroups_eq (levelled : plan.Levelled) (nonempty : plan.tasks ≠ []) :
    plan.parallelGroups = (range (plan.levels.maxLevel + 1)).map plan.tasksAt := by
  have keeps : ∀ group ∈ (range (plan.levels.maxLevel + 1)).map plan.tasksAt, (!group.isEmpty) = true := by
    rw [forall_mem_map]
    intro level bound
    obtain ⟨task, within, here⟩ := levelled.inhabited nonempty level (Nat.le_of_lt_succ (mem_range.mp bound))
    have some_task := ne_nil_of_mem (mem_tasksAt.mpr ⟨within, here⟩)
    simpa using some_task
  rw [parallelGroups, if_neg (by simpa using nonempty)]
  exact filter_eq_self.mpr keeps

theorem Levelled.inGroup_iff (levelled : plan.Levelled) :
    InGroup plan.parallelGroups task group ↔ task < plan.tasks.length ∧ plan.levels.level task = group := by
  by_cases empty : plan.tasks = []
  · simp [InGroup, parallelGroups, empty]
  rw [levelled.parallelGroups_eq empty]
  constructor
  · rintro ⟨members, found, mem⟩
    rw [getElem?_map, Option.map_eq_some_iff] at found
    obtain ⟨level, at_, rfl⟩ := found
    obtain ⟨bound, rfl⟩ := List.getElem?_eq_some_iff.mp at_
    rw [getElem_range] at mem
    exact mem_tasksAt.mp mem
  · rintro ⟨within, rfl⟩
    have bound := levelled.below task within
    refine ⟨plan.tasksAt (plan.levels.level task), ?_, mem_tasksAt.mpr ⟨within, rfl⟩⟩
    rw [getElem?_map, getElem?_range (by omega), Option.map_some]

theorem Levelled.partition (levelled : plan.Levelled) :
    plan.parallelGroups.flatten.Perm (range plan.tasks.length) := by
  by_cases empty : plan.tasks = []
  · simp [parallelGroups, empty]
  rw [levelled.parallelGroups_eq empty, ← flatMap_def, perm_ext_iff_of_nodup _ nodup_range]
  · intro task
    simp only [mem_flatMap, mem_tasksAt, mem_range]
    constructor
    · rintro ⟨level, -, within, -⟩
      exact within
    · intro within
      exact ⟨_, Nat.lt_succ_of_le (levelled.below task within), within, rfl⟩
  · rw [nodup_flatMap]
    refine ⟨fun level _ => nodup_range.filter _, nodup_range.imp fun apart task left right => apart ?_⟩
    rw [← (mem_tasksAt.mp left).2, ← (mem_tasksAt.mp right).2]

/-- Whatever the grouping, a task's group has at least as many groups before it as a chain into
the task has edges. -/
theorem Respects.chain_le {groups : List (List Nat)} (respects : plan.Respects groups) (inBounds : plan.InBounds)
    (within : task < plan.tasks.length) (chain : List.IsChain plan.Linked (path ++ [task])) :
    path.length < groups.length := by
  have placed (node : Nat) : ∃ group, node < plan.tasks.length → InGroup groups node group := by
    by_cases known : node < plan.tasks.length
    · obtain ⟨members, listed, mem⟩ := mem_flatten.mp
        (respects.partition.mem_iff.mpr (mem_range.mpr known))
      obtain ⟨group, found⟩ := mem_iff_getElem?.mp listed
      exact ⟨group, fun _ => ⟨members, found, mem⟩⟩
    · exact ⟨0, fun known' => absurd known' known⟩
  choose groupOf placed using placed
  have dominates : plan.graph.Dominates (fun _ => 1) fun node => groupOf node + 1 := by
    refine ⟨by simp, fun source target linked => ?_⟩
    rw [graph_linked] at linked
    have before := respects.forward source target linked.1 _ _ (placed source linked.2.1) (placed target linked.2.2)
    exact Nat.add_le_add_right before 1
  rw [← inBounds.linkedWithin_eq, ← graph_linked] at chain
  have bound : path.length ≤ groupOf task := by simpa using dominates.sum_le path task chain
  obtain ⟨members, found, -⟩ := placed task within
  have last := (List.getElem?_eq_some_iff.mp found).1
  omega

/-- The groups of a valid plan have each task once, and each edge leads to a later group. No
grouping that respects the edges has fewer groups. -/
theorem parallel_groups_least (plan : ExecutionPlan) (valid : plan.validate = .ok ()) :
    plan.Respects plan.parallelGroups ∧ [] ∉ plan.parallelGroups ∧
    (∀ source target, TransGen plan.Linked source target → ∀ before after,
      InGroup plan.parallelGroups source before → InGroup plan.parallelGroups target after → before < after) ∧
    (∀ task group, InGroup plan.parallelGroups task group →
      (∃ path, List.IsChain plan.Linked (path ++ [task]) ∧ path.length = group) ∧
      ∀ path, List.IsChain plan.Linked (path ++ [task]) → path.length ≤ group) ∧
    ∀ groups, plan.Respects groups → plan.parallelGroups.length ≤ groups.length := by
  have levelled := levelled valid
  have inBounds := (validate_eq_ok.mp valid).1
  have linked : plan.graph.Linked = plan.Linked := graph_linked.trans inBounds.linkedWithin_eq
  have grows {source target : Nat} (edge : plan.Linked source target) :
      plan.levels.level source < plan.levels.level target := by
    rw [← linked] at edge
    exact Nat.lt_of_add_lt_add_right (levelled.dominates.grows source target edge)
  refine ⟨⟨levelled.partition, ?_⟩, by simp [parallelGroups], ?_, ?_, ?_⟩
  · intro source target edge before after first second
    rw [levelled.inGroup_iff] at first second
    rw [← first.2, ← second.2]
    exact grows edge
  · intro source target chain before after first second
    rw [levelled.inGroup_iff] at first second
    rw [← first.2, ← second.2]
    exact lt_of_transGen plan.levels.level grows chain
  · intro task group mem
    rw [levelled.inGroup_iff] at mem
    obtain ⟨within, rfl⟩ := mem
    refine ⟨levelled.chain task within, fun path chain => ?_⟩
    rw [← linked] at chain
    simpa using levelled.dominates.sum_le path task chain
  · intro groups respects
    by_cases empty : plan.tasks = []
    · simp [parallelGroups, empty]
    · obtain ⟨task, within, top⟩ := levelled.inhabited empty _ (Nat.le_refl _)
      obtain ⟨path, chain, length⟩ := levelled.chain task within
      have bound := respects.chain_le inBounds within chain
      rw [levelled.parallelGroups_eq empty, length_map, length_range]
      omega

theorem forked_groups_least : forkedPlan.parallelGroups = [[0], [1, 2]] ∧
    forkedPlan.Respects forkedPlan.parallelGroups :=
  ⟨by decide +kernel, (parallel_groups_least forkedPlan (by decide +kernel)).1⟩

end Aafp.Execution.ExecutionPlan
