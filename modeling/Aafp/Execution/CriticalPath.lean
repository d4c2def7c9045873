import Aafp.Execution.PlanOrder

/-! The critical path of a valid plan is a chain of edges of the longest duration. -/
namespace Aafp.Execution.ExecutionPlan

open Foundation List

variable {plan : ExecutionPlan}

theorem complete_of_validate (valid : plan.validate = .ok ()) : plan.graph.Complete := by
  rw [Graph.complete_iff_acyclic, ← Graph.length_order_iff, length_nodes]
  exact (validate_eq_ok.mp valid).2

theorem map_durationOf (tasks : List TaskNode) :
    (range tasks.length).map (durationOf tasks) = tasks.map fun task => task.estimatedDurationMs.toNat := by
  apply ext_getElem
  · simp
  · intro index _ within
    rw [length_map] at within
    simp [durationOf, within]

/-- If the durations fit into 64 bits together, no addition saturates, and the values are those
of the longest chains. -/
theorem longest_finishes (complete : plan.graph.Complete)
    (fits : (plan.tasks.map fun task => task.estimatedDurationMs.toNat).sum < 2 ^ 64) :
    plan.graph.Longest (durationOf plan.tasks) plan.finishes.value plan.finishes.predecessor := by
  obtain ⟨best, labelled⟩ := complete.labelled (finishOf plan.tasks) (fun finish => finish) (fun _ tally => tally) ()
  change Graph.Labelled _ _ _ _ _ _ _ plan.finishes at labelled
  have value_le (node : Nat) : plan.finishes.value node ≤ best node + durationOf plan.tasks node := by
    rw [labelled.value]
    split
    · exact Nat.min_le_left _ _
    · exact Nat.le_add_right _ _
  have unsaturated (node : Nat) (known : node ∈ plan.graph.nodes) :
      plan.finishes.value node = best node + durationOf plan.tasks node := by
    have first (node : Nat) (here : plan.finishes.predecessor node = none) :
        best node + durationOf plan.tasks node ≤ durationOf plan.tasks node := by
      rw [labelled.unchosen here, Nat.zero_add]
    have next (node source : Nat) (here : plan.finishes.predecessor node = some source) :
        best node + durationOf plan.tasks node ≤
          best source + durationOf plan.tasks source + durationOf plan.tasks node := by
      rw [(labelled.chosen here).2]
      exact Nat.add_le_add_right (value_le source) _
    obtain ⟨path, -, within, chain, sum⟩ := complete.backtrack (fun _ _ here => (labelled.chosen here).1)
      first next node _ (complete.idxOf_lt_length known)
    have total := complete.sum_chain_le (by simpa [or_imp, forall_and] using ⟨within, known⟩) chain
      (durationOf plan.tasks)
    have whole : (plan.graph.nodes.map (durationOf plan.tasks)).sum =
        (plan.tasks.map fun task => task.estimatedDurationMs.toNat).sum := congrArg _ (map_durationOf _)
    rw [labelled.value, if_pos (complete node known), finishOf]
    omega
  refine ⟨⟨fun node => ?_, fun source target linked => ?_⟩, fun node here => ?_, fun node source here => ?_⟩
  · by_cases known : node ∈ plan.graph.nodes
    · rw [unsaturated node known]
      exact Nat.le_add_left _ _
    · rw [mem_nodes] at known
      simp [durationOf, known]
  · have inside := plan.graph.inside _ linked
    rw [unsaturated target inside.2]
    exact Nat.add_le_add_right (labelled.bound source (complete source inside.1) target linked) _
  · have bound := value_le node
    rwa [labelled.unchosen here, Nat.zero_add] at bound
  · have bound := value_le node
    rw [(labelled.chosen here).2] at bound
    exact ⟨(labelled.chosen here).1, bound⟩

theorem computeCriticalPathDuration_eq (valid : plan.validate = .ok ()) (nonempty : plan.tasks ≠ []) :
    computeCriticalPathDuration plan.tasks plan.edges =
      ((range plan.tasks.length).map plan.finishes.value).max?.getD 0 := by
  let part (labels : Graph.Labels Nat Nat) : Durations := ⟨labels.value, labels.tally⟩
  have relaxes (node succ : Nat) (labels : Graph.Labels Nat Nat) :
      (part labels).relax node succ = part (labels.relax (fun finish => finish) node succ) := by
    unfold Durations.relax Graph.Labels.relax
    split <;> rfl
  have final : (plan.graph.run (Durations.visit plan.tasks) Durations.relax ⟨fun _ => 0, 0⟩).2 =
      part (plan.graph.labels (finishOf plan.tasks) (fun finish => finish) (fun _ count => count + 1) 0) := by
    rw [Graph.run_eq_foldl]
    exact Graph.foldl_process_hom part (fun _ _ => rfl) relaxes plan.graph.order (.blank 0)
  obtain ⟨best, labelled⟩ := (complete_of_validate valid).labelled (finishOf plan.tasks) (fun finish => finish)
    (fun _ count => count + 1) 0
  have all : (part (plan.graph.labels (finishOf plan.tasks) (fun finish => finish) (fun _ count => count + 1)
      0)).processed = plan.tasks.length := by
    rw [← (validate_eq_ok.mp valid).2]
    simpa [part, topologicalSort] using labelled.noted
  unfold computeCriticalPathDuration
  simp only [length_eq_zero_iff, if_neg nonempty]
  rw [← graph, final, all, if_neg (Nat.lt_irrefl _)]
  simp only [part, Graph.labels_value]
  rfl

/-- The critical path of a valid plan is a chain of edges with the critical path duration, and no
chain has more. -/
theorem critical_path_longest (plan : ExecutionPlan) (nonempty : plan.tasks ≠ []) (valid : plan.validate = .ok ())
    (fits : (plan.tasks.map fun task => task.estimatedDurationMs.toNat).sum < 2 ^ 64) :
    (∀ more, plan.criticalPathWithin (plan.tasks.length + more) = plan.criticalPath) ∧
    (∀ task ∈ plan.criticalPath, task < plan.tasks.length) ∧ List.IsChain plan.Linked plan.criticalPath ∧
    (plan.criticalPath.map (durationOf plan.tasks)).sum = computeCriticalPathDuration plan.tasks plan.edges ∧
    ∀ chain, (∀ task ∈ chain, task < plan.tasks.length) → List.IsChain plan.Linked chain →
      (chain.map (durationOf plan.tasks)).sum ≤ (plan.criticalPath.map (durationOf plan.tasks)).sum := by
  have complete := complete_of_validate valid
  have linked : plan.graph.Linked = plan.Linked :=
    graph_linked.trans (validate_eq_ok.mp valid).1.linkedWithin_eq
  have longest := longest_finishes complete fits
  have some_task : range plan.tasks.length ≠ [] := by simpa using nonempty
  obtain ⟨last, mem, greatest⟩ := exists_maxBy (compareOn plan.finishes.value) some_task
  have above (task : Nat) (within : task < plan.tasks.length) :
      plan.finishes.value task ≤ plan.finishes.value last := by
    have least := isLE_maxBy greatest (mem_range.mpr within)
    exact Nat.isLE_compare.mp least
  obtain ⟨path, ends, within, chain, sum⟩ := longest.exists_chain complete mem
  rw [linked] at chain
  have walked (more : Nat) : plan.criticalPathWithin (plan.tasks.length + more) = path ++ [last] := by
    have ended := ends more
    rw [length_nodes] at ended
    simp only [criticalPathWithin, length_eq_zero_iff, if_neg nonempty, (validate_eq_ok.mp valid).2,
      Nat.lt_irrefl, if_false, greatest, Option.getD_some, ended, reverse_reverse]
  have here : plan.criticalPath = path ++ [last] := walked 0
  rw [here]
  refine ⟨walked, ?_, chain, ?_, ?_⟩
  · simpa [or_imp, forall_and] using
      ⟨fun task listed => mem_nodes.mp (within task listed), mem_range.mp mem⟩
  · have most : ((range plan.tasks.length).map plan.finishes.value).max? = some (plan.finishes.value last) := by
      rw [max?_eq_some_iff]
      exact ⟨mem_map_of_mem mem, by simpa using above⟩
    rw [sum, computeCriticalPathDuration_eq valid nonempty, most, Option.getD_some]
  · intro other bounded isChain
    rw [sum]
    rcases eq_nil_or_concat other with rfl | ⟨front, final, rfl⟩
    · simp
    · rw [concat_eq_append] at *
      rw [← linked] at isChain
      exact (longest.toDominates.sum_le front final isChain).trans (above final (bounded final (by simp)))

theorem forked_path_longest : forkedPlan.criticalPath = [0, 1] ∧
    computeCriticalPathDuration forkedPlan.tasks forkedPlan.edges = 5 ∧ List.IsChain forkedPlan.Linked [0, 1] := by
  have path : forkedPlan.criticalPath = [0, 1] := by decide +kernel
  have chain := (critical_path_longest forkedPlan (by decide) (by decide +kernel) (by decide)).2.2.1
  exact ⟨path, by decide +kernel, path ▸ chain⟩

end Aafp.Execution.ExecutionPlan
