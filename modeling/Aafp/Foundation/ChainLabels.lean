import Aafp.Foundation.Kahn
import Mathlib.Algebra.GroupWithZero.Nat
import Mathlib.Algebra.Order.BigOperators.Group.List
import Mathlib.Algebra.Order.Group.Nat

/-! Labels that are computed along the order of a graph. -/
namespace Aafp.Foundation.Graph

open List

theorem foldl_along (Holds : List α → σ → Prop) {step : σ → α → σ} {init : σ} (order : List α)
    (base : Holds [] init) (each : ∀ front node back state, order = front ++ node :: back → Holds front state →
      Holds (front ++ [node]) (step state node)) : Holds order (order.foldl step init) := by
  suffices rest : ∀ back front state, order = front ++ back → Holds front state →
      Holds order (back.foldl step state) from rest order [] init rfl base
  intro back
  induction back with
  | nil =>
    intro front state same holds
    rwa [same, append_nil]
  | cons node back ih =>
    intro front state same holds
    exact ih _ _ (by simp [same]) (each front node back state same holds)

/-- A value for each node, the node that its value came from, and a tally of the nodes. -/
structure Labels (α τ : Type) where
  value : α → Nat
  predecessor : α → Option α
  tally : τ

variable [DecidableEq α]

section

variable (settle : α → Nat → Nat) (offer : Nat → Nat) (note : Nat → τ → τ)

/-- The value of the node is settled and noted. -/
def Labels.visit (node : α) (labels : Labels α τ) : Labels α τ :=
  let settled := settle node (labels.value node)
  { labels with
    value := Function.update labels.value node settled
    tally := note settled labels.tally }

/-- The node offers a value to its successor, which takes it only if it is better. -/
def Labels.relax (node succ : α) (labels : Labels α τ) : Labels α τ :=
  if offer (labels.value node) > labels.value succ then
    { labels with
      value := Function.update labels.value succ (offer (labels.value node))
      predecessor := Function.update labels.predecessor succ (some node) }
  else labels

def Labels.blank (tally : τ) : Labels α τ := ⟨fun _ => 0, fun _ => none, tally⟩

variable (graph : Graph α)

def labels (tally : τ) : Labels α τ :=
  graph.order.foldl (graph.process (Labels.visit settle note) (Labels.relax offer)) (.blank tally)

/-- What holds after the nodes in `front`: the best offer of them to each node is known. -/
structure Labelled (init : τ) (front : List α) (best : α → Nat) (labels : Labels α τ) : Prop where
  value : ∀ node, labels.value node = if node ∈ front then settle node (best node) else best node
  bound : ∀ source ∈ front, ∀ target, graph.Linked source target → offer (labels.value source) ≤ best target
  attained : ∀ target, (labels.predecessor target = none ∧ best target = 0) ∨ ∃ source ∈ front,
    labels.predecessor target = some source ∧ graph.Linked source target ∧ best target = offer (labels.value source)
  noted : labels.tally = front.foldl (fun tally node => note (labels.value node) tally) init

end

variable {settle : α → Nat → Nat} {offer : Nat → Nat} {note : Nat → τ → τ} {graph : Graph α} {labels : Labels α τ}

theorem Labelled.chosen (labelled : graph.Labelled settle offer note init front best labels)
    (here : labels.predecessor target = some source) :
    graph.Linked source target ∧ best target = offer (labels.value source) := by
  rcases labelled.attained target with ⟨none, -⟩ | ⟨other, -, same, linked, equal⟩
  · rw [here] at none
    cases none
  · rw [here] at same
    cases same
    exact ⟨linked, equal⟩

theorem Labelled.unchosen (labelled : graph.Labelled settle offer note init front best labels)
    (here : labels.predecessor target = none) : best target = 0 := by
  rcases labelled.attained target with ⟨-, zero⟩ | ⟨other, -, same, -⟩
  · exact zero
  · rw [here] at same
    cases same

theorem foldl_relax (succs : List α) (other : node ∉ succs) (labels : Labels α τ) :
    (∀ target, (succs.foldl (fun labels succ => labels.relax offer node succ) labels).value target =
      if target ∈ succs then max (labels.value target) (offer (labels.value node)) else labels.value target) ∧
    (∀ target, (succs.foldl (fun labels succ => labels.relax offer node succ) labels).predecessor target =
      if target ∈ succs ∧ labels.value target < offer (labels.value node) then some node
      else labels.predecessor target) ∧
    (succs.foldl (fun labels succ => labels.relax offer node succ) labels).tally = labels.tally := by
  induction succs generalizing labels with
  | nil => simp
  | cons succ succs ih =>
    obtain ⟨values, predecessors, tally⟩ := ih (by grind) (labels.relax offer node succ)
    simp only [foldl_cons, values, predecessors, tally]
    by_cases better : labels.value succ < offer (labels.value node)
    · have relaxed : labels.relax offer node succ = _ := if_pos better
      simp only [relaxed, Function.update_apply]
      grind
    · have relaxed : labels.relax offer node succ = labels := if_neg better
      grind

theorem process_labels (settle : α → Nat → Nat) (offer : Nat → Nat) (note : Nat → τ → τ)
    (other : node ∉ graph.successors node) (labels : Labels α τ) :
    let visited := labels.visit settle note node
    let after := graph.process (Labels.visit settle note) (Labels.relax offer) labels node
    (∀ target, after.value target = if target ∈ graph.successors node then
      max (visited.value target) (offer (visited.value node)) else visited.value target) ∧
    (∀ target, after.predecessor target = if target ∈ graph.successors node ∧
      visited.value target < offer (visited.value node) then some node else visited.predecessor target) ∧
    after.tally = visited.tally :=
  foldl_relax _ other _

/-- The step: a node that none of its successors stands before. -/
theorem labelled_process (labelled : graph.Labelled settle offer note init front best labels)
    (fresh : node ∉ front) (ahead : ∀ succ ∈ graph.successors node, succ ∉ front ++ [node]) :
    ∃ better, graph.Labelled settle offer note init (front ++ [node]) better
      (graph.process (Labels.visit settle note) (Labels.relax offer) labels node) := by
  obtain ⟨values, predecessors, tally⟩ := process_labels settle offer note
    (fun loop => ahead node loop (by simp)) labels
  generalize graph.process (Labels.visit settle note) (Labels.relax offer) labels node = after at *
  have settled : (labels.visit settle note node).value node = settle node (best node) := by
    simp [Labels.visit, labelled.value, fresh]
  have kept {target : α} (apart : target ≠ node) :
      (labels.visit settle note node).value target = labels.value target := by
    simp [Labels.visit, apart]
  have open_ {succ : α} (listed : succ ∈ graph.successors node) : labels.value succ = best succ := by
    have := labelled.value succ
    grind
  have done {source : α} (earlier : source ∈ front) : after.value source = labels.value source := by grind
  have last : after.value node = settle node (best node) := by grind
  have links := @mem_successors _ _ graph
  refine ⟨fun target => if target ∈ graph.successors node then max (best target) (offer (settle node (best node)))
    else best target, ?_, ?_, ?_, ?_⟩
  · have := labelled.value
    grind
  · have := labelled.bound
    grind
  · intro target
    have := labelled.attained target
    have : (labels.visit settle note node).predecessor = labels.predecessor := rfl
    grind
  · rw [foldl_concat, last, tally]
    simp [Labels.visit, labelled.value, fresh]
    rw [labelled.noted]
    congr 1
    exact (foldl_ext _ _ _ fun tally source earlier => by rw [done earlier]).symm

theorem Complete.ahead (complete : graph.Complete) (same : graph.order = front ++ node :: back)
    (linked : graph.Linked node succ) : succ ∉ front ++ [node] := by
  have later := complete.idxOf_lt linked
  have distinct := graph.nodup_order
  rw [same] at later distinct
  have fresh : node ∉ front := fun earlier =>
    (disjoint_of_nodup_append distinct) earlier mem_cons_self
  rw [idxOf_append_of_notMem fresh] at later
  intro mem
  rcases mem_append.mp mem with earlier | here
  · rw [idxOf_append_of_mem earlier] at later
    have := idxOf_lt_length_of_mem earlier
    omega
  · rw [mem_singleton.mp here, idxOf_append_of_notMem fresh] at later
    omega

theorem Complete.labelled (complete : graph.Complete) (settle : α → Nat → Nat) (offer : Nat → Nat)
    (note : Nat → τ → τ) (tally : τ) : ∃ best, graph.Labelled settle offer note tally graph.order best
      (graph.labels settle offer note tally) := by
  refine foldl_along (fun front labels => ∃ best, graph.Labelled settle offer note tally front best labels)
    graph.order ⟨fun _ => 0, ?_, ?_, ?_, rfl⟩ ?_
  · simp [Labels.blank]
  · simp
  · simp [Labels.blank]
  · intro front node back labels same ⟨best, labelled⟩
    refine labelled_process labelled ?_ fun succ listed => complete.ahead same (graph.mem_successors.mp listed)
    have distinct := graph.nodup_order
    rw [same] at distinct
    exact fun earlier => (disjoint_of_nodup_append distinct) earlier mem_cons_self

/-- Go back from predecessor to predecessor. -/
def backtrack (predecessor : α → Option α) : (steps : Nat) → Option α → List α
  | 0, _ | _, none => []
  | steps + 1, some node => node :: backtrack predecessor steps (predecessor node)

variable {weight value : α → Nat} {predecessor : α → Option α}

/-- The values are at least those of every chain. -/
structure Dominates (graph : Graph α) (weight value : α → Nat) : Prop where
  covers : ∀ node, weight node ≤ value node
  grows : ∀ source target, graph.Linked source target → value source + weight target ≤ value target

/-- And each comes from the predecessor. -/
structure Longest (graph : Graph α) (weight value : α → Nat) (predecessor : α → Option α) : Prop
    extends graph.Dominates weight value where
  first : ∀ node, predecessor node = none → value node ≤ weight node
  next : ∀ node source, predecessor node = some source →
    graph.Linked source node ∧ value node ≤ value source + weight node

omit [DecidableEq α] in
theorem Dominates.sum_le (dominates : graph.Dominates weight value) (path : List α) (last : α)
    (chain : List.IsChain graph.Linked (path ++ [last])) : ((path ++ [last]).map weight).sum ≤ value last := by
  induction path using reverseRecOn generalizing last with
  | nil => simpa using dominates.covers last
  | append_singleton path previous ih =>
    rw [isChain_append] at chain
    have before := ih previous chain.1
    have linked : graph.Linked previous last := chain.2.2 previous (by simp) last (by simp)
    have step := dominates.grows _ _ linked
    rw [map_append, sum_append]
    simp only [map_cons, map_nil, sum_singleton]
    omega

/-- Going back along links ends, and the weights on the way add up to the value at least. -/
theorem Complete.backtrack (complete : graph.Complete)
    (linked : ∀ node source, predecessor node = some source → graph.Linked source node)
    (first : ∀ node, predecessor node = none → value node ≤ weight node)
    (next : ∀ node source, predecessor node = some source → value node ≤ value source + weight node)
    (node : α) (steps : Nat) (enough : graph.order.idxOf node < steps) :
    ∃ path, (∀ more, Graph.backtrack predecessor (steps + more) (some node) = (path ++ [node]).reverse) ∧
      (∀ other ∈ path, other ∈ graph.nodes) ∧ List.IsChain graph.Linked (path ++ [node]) ∧
      value node ≤ ((path ++ [node]).map weight).sum := by
  induction steps generalizing node with
  | zero => cases enough
  | succ steps ih =>
    cases here : predecessor node with
    | none =>
      refine ⟨[], fun more => ?_, by simp, by simp, by simpa using first node here⟩
      rw [Nat.add_right_comm, Graph.backtrack, here]
      cases steps + more <;> rfl
    | some source =>
      have earlier := complete.idxOf_lt (linked node source here)
      obtain ⟨path, ends, within, chain, sum⟩ := ih source (by omega)
      refine ⟨path ++ [source], fun more => ?_, ?_, ?_, ?_⟩
      · rw [Nat.add_right_comm, Graph.backtrack, here, ends]
        simp
      · simpa [or_imp, forall_and] using ⟨within, (graph.inside _ (linked node source here)).1⟩
      · rw [isChain_append]
        refine ⟨chain, by simp, ?_⟩
        simpa using linked node source here
      · have step := next node source here
        rw [map_append, sum_append]
        simp only [map_cons, map_nil, sum_singleton]
        omega

/-- No node is twice on a chain. -/
theorem Complete.sum_chain_le (complete : graph.Complete) (within : ∀ node ∈ path, node ∈ graph.nodes)
    (chain : List.IsChain graph.Linked path) (weight : α → Nat) :
    (path.map weight).sum ≤ (graph.nodes.map weight).sum := by
  have grows : path.Pairwise fun source target => graph.order.idxOf source < graph.order.idxOf target := by
    have step := chain.imp fun _ _ => complete.idxOf_lt
    exact isChain_iff_pairwise.mp step
  have distinct : path.Nodup := grows.imp fun less same => less.ne (by rw [same])
  obtain ⟨others, perm, sublist⟩ := subperm_of_subset distinct within
  rw [← (perm.map weight).sum_eq]
  exact (sublist.map weight).sum_le_sum fun _ _ => Nat.zero_le _

/-- The tally has no influence on the other labels. -/
theorem labels_value (settle : α → Nat → Nat) (offer : Nat → Nat) (note : Nat → τ → τ) (init : τ) :
    (graph.labels settle offer note init).value = (graph.labels settle offer (fun _ tally => tally) ()).value := by
  let part (labels : Labels α τ) : Labels α Unit := ⟨labels.value, labels.predecessor, ()⟩
  have relaxes (node succ : α) (labels : Labels α τ) :
      (part labels).relax offer node succ = part (labels.relax offer node succ) := by
    unfold Labels.relax
    split <;> rfl
  have dropped : graph.labels settle offer (fun _ tally => tally) () = part (graph.labels settle offer note init) :=
    foldl_process_hom part (fun _ _ => rfl) relaxes graph.order (.blank init)
  rw [dropped]

theorem Longest.exists_chain (longest : graph.Longest weight value predecessor) (complete : graph.Complete)
    (known : node ∈ graph.nodes) : ∃ path,
      (∀ more, Graph.backtrack predecessor (graph.nodes.length + more) (some node) = (path ++ [node]).reverse) ∧
      (∀ other ∈ path, other ∈ graph.nodes) ∧ List.IsChain graph.Linked (path ++ [node]) ∧
      ((path ++ [node]).map weight).sum = value node := by
  obtain ⟨path, ends, within, chain, sum⟩ := complete.backtrack (fun _ _ chosen => (longest.next _ _ chosen).1)
    longest.first (fun _ _ chosen => (longest.next _ _ chosen).2) node graph.nodes.length
    (complete.idxOf_lt_length known)
  exact ⟨path, ends, within, chain, (longest.sum_le path node chain).antisymm sum⟩

end Aafp.Foundation.Graph
