import Aafp.Execution.CriticalPath
import Aafp.Execution.SchedulerOrder

/-! When no task of a plan is ready. -/

namespace Aafp.Execution.ExecutionPlan

open Foundation Relation List

variable {plan : ExecutionPlan}

/-- A task has its data from another one that is not completed. -/
def HoldsUp (plan : ExecutionPlan) (source target : Nat) : Prop :=
  ¬ plan.CompletedAt source ∧
    ∃ edge ∈ plan.edges, edge.source = source ∧ edge.target = target ∧ edge.kind = .dataDependency

theorem HoldsUp.idxOf_lt (valid : plan.validate = .ok ()) (holds : plan.HoldsUp source target) :
    plan.graph.order.idxOf source < plan.graph.order.idxOf target := by
  obtain ⟨-, edge, listed, rfl, rfl, -⟩ := holds
  refine (complete_of_validate valid).idxOf_lt ?_
  rw [graph_linked, (validate_eq_ok.mp valid).1.linkedWithin_eq]
  exact ⟨edge, listed, rfl, rfl⟩

theorem ready_iff_not_heldUp : plan.Ready task ↔ plan.PendingAt task ∧ ∀ source, ¬ plan.HoldsUp source task := by
  refine and_congr_right fun _ => ⟨?_, ?_⟩
  · rintro preceded source ⟨unfinished, edge, listed, rfl, target, kind⟩
    exact unfinished (preceded edge listed target kind)
  · intro free edge listed target kind
    by_contra unfinished
    exact free edge.source ⟨unfinished, edge, listed, rfl, target, kind⟩

/-- No task of a valid plan is ready exactly if every pending task waits, through tasks that are
not completed, for one that is neither completed nor pending. -/
theorem readyIndices_empty_iff (plan : ExecutionPlan) (valid : plan.validate = .ok ()) :
    plan.readyIndices = some [] ↔ ∀ task, plan.PendingAt task →
      ∃ source, ¬ plan.PendingAt source ∧ TransGen plan.HoldsUp source task := by
  obtain ⟨ready, found, -, members⟩ := readyIndices_eq_some (validate_eq_ok.mp valid).1
  have none : plan.readyIndices = some [] ↔ ∀ task, ¬ plan.Ready task := by
    rw [found, Option.some.injEq, eq_nil_iff_forall_not_mem]
    exact forall_congr' fun task => not_congr (members task)
  rw [none]
  constructor
  · intro idle task
    -- the tasks that are waited for come earlier in the topological order
    induction rank : plan.graph.order.idxOf task using Nat.strong_induction_on generalizing task with
    | _ rank ih =>
      intro pending
      have held := mt (fun free => ready_iff_not_heldUp.mpr ⟨pending, free⟩) (idle task)
      obtain ⟨source, holds⟩ := not_forall_not.mp held
      by_cases waits : plan.PendingAt source
      · obtain ⟨first, other, chain⟩ := ih _ (rank ▸ holds.idxOf_lt valid) source rfl waits
        exact ⟨first, other, chain.tail holds⟩
      · exact ⟨source, waits, .single holds⟩
  · intro waits task ready
    obtain ⟨pending, free⟩ := ready_iff_not_heldUp.mp ready
    obtain ⟨source, -, chain⟩ := waits task pending
    obtain ⟨last, -, holds⟩ := TransGen.tail'_iff.mp chain
    exact free last holds

theorem forkedPlan_ready_iff : forkedPlan.validate = .ok () ∧ (forkedPlan.readyIndices = some [] ↔
    ∀ task, forkedPlan.PendingAt task →
      ∃ source, ¬ forkedPlan.PendingAt source ∧ TransGen forkedPlan.HoldsUp source task) :=
  ⟨by decide +kernel, readyIndices_empty_iff forkedPlan (by decide +kernel)⟩

end Aafp.Execution.ExecutionPlan
