import Mathlib.Order.WellFoundedSet

/-! Kahn's algorithm. -/
namespace Aafp.Foundation

open Relation List

theorem lt_of_transGen (rank : α → Nat) (grows : ∀ {source target}, Links source target → rank source < rank target)
    (linked : TransGen Links source target) : rank source < rank target := by
  induction linked with
  | single first => exact grows first
  | tail _ last ih => exact ih.trans (grows last)

structure Graph (α : Type) where
  nodes : List α
  links : List (α × α)
  distinct : nodes.Nodup
  inside : ∀ link ∈ links, link.1 ∈ nodes ∧ link.2 ∈ nodes

namespace Graph

variable [DecidableEq α] (graph : Graph α)

def Linked (source target : α) : Prop := (source, target) ∈ graph.links

def Acyclic : Prop := ∀ node, ¬ TransGen graph.Linked node node

def successors (node : α) : List α := (graph.links.filter fun link => link.1 = node).map Prod.snd

theorem mem_successors : succ ∈ graph.successors node ↔ graph.Linked node succ := by
  simp [successors, Linked]

def inDegree (node : α) : Nat := graph.links.countP fun link => link.2 = node

/-- The nodes that are ready, and for each node how many links into it are still open. -/
structure Frontier (α : Type) where
  queue : List α
  inDegree : α → Nat

def Frontier.release (frontier : Frontier α) (succ : α) : Frontier α :=
  let degree := frontier.inDegree succ - 1
  { queue := if degree = 0 then frontier.queue ++ [succ] else frontier.queue
    inDegree := Function.update frontier.inDegree succ degree }

section Run

variable (visit : α → σ → σ) (relax : α → α → σ → σ)

/-- One turn of the loop: take a node off the queue and release its successors. -/
def turn (sweep : Frontier α × σ) : Frontier α × σ :=
  match sweep.1.queue with
  | [] => sweep
  | node :: queue =>
    (graph.successors node).foldl (fun sweep succ => (sweep.1.release succ, relax node succ sweep.2))
      ({ sweep.1 with queue }, visit node sweep.2)

def start : Frontier α := ⟨graph.nodes.filter fun node => graph.inDegree node = 0, graph.inDegree⟩

/-- The loop. There is at most one turn for each node (`exists_sound_order`). -/
def run (init : σ) : Frontier α × σ := (graph.turn visit relax)^[graph.nodes.length] (graph.start, init)

def process (state : σ) (node : α) : σ :=
  (graph.successors node).foldl (fun state succ => relax node succ state) (visit node state)

theorem turn_cons (node : α) (queue : List α) (degrees : α → Nat) (state : σ) :
    graph.turn visit relax (⟨node :: queue, degrees⟩, state) =
      ((graph.successors node).foldl Frontier.release ⟨queue, degrees⟩, graph.process visit relax state node) :=
  foldl_hom₂ _ Prod.mk _ _ _ _ _ fun _ _ _ => rfl

end Run

/-- The loop that only notes down the nodes it takes. -/
def order : List α := (graph.run (fun node order => order ++ [node]) (fun _ _ order => order) []).2

abbrev orderTurn : Frontier α × List α → Frontier α × List α :=
  graph.turn (fun node order => order ++ [node]) fun _ _ order => order

variable {graph} {frontier : Frontier α} {order : List α}

theorem orderTurn_cons (node : α) (queue : List α) (degrees : α → Nat) :
    graph.orderTurn (⟨node :: queue, degrees⟩, order) =
      ((graph.successors node).foldl Frontier.release ⟨queue, degrees⟩, order ++ [node]) := by
  rw [orderTurn, turn_cons]
  simp [process]

section

variable {visit : α → σ → σ} {relax : α → α → σ → σ}

/-- What a program computes has no influence on which nodes are taken: it is computed along
the order. -/
theorem iterate_turn (turns : Nat) (frontier : Frontier α) (order : List α) (init : σ) :
    (graph.turn visit relax)^[turns] (frontier, order.foldl (graph.process visit relax) init) =
      ((graph.orderTurn^[turns] (frontier, order)).1,
        (graph.orderTurn^[turns] (frontier, order)).2.foldl (graph.process visit relax) init) := by
  induction turns generalizing frontier order with
  | zero => rfl
  | succ turns ih =>
    rw [Function.iterate_succ_apply, Function.iterate_succ_apply]
    obtain ⟨_ | ⟨node, queue⟩, degrees⟩ := frontier
    · exact ih _ _
    · rw [turn_cons, orderTurn_cons, ← ih, foldl_concat]

/-- A part of the state that the program computes without the rest. -/
theorem foldl_process_hom {visit' : α → τ → τ} {relax' : α → α → τ → τ} (part : σ → τ)
    (visits : ∀ node state, visit' node (part state) = part (visit node state))
    (relaxes : ∀ node succ state, relax' node succ (part state) = part (relax node succ state)) (order : List α)
    (init : σ) : order.foldl (graph.process visit' relax') (part init) =
      part (order.foldl (graph.process visit relax) init) := by
  refine foldl_hom part fun state node => ?_
  rw [process, visits]
  exact foldl_hom part fun state succ => relaxes node succ state

theorem run_eq_foldl (init : σ) :
    (graph.run visit relax init).2 = graph.order.foldl (graph.process visit relax) init :=
  congrArg Prod.snd (iterate_turn _ graph.start [] init)

end

/-- A node whose counter reaches zero joins the queue then, and only once, if the counters are
not below the number of releases. -/
theorem foldl_release (frontier : Frontier α) (succs : List α)
    (enough : ∀ node, succs.count node ≤ frontier.inDegree node) :
    (∀ node, (succs.foldl Frontier.release frontier).inDegree node = frontier.inDegree node - succs.count node) ∧
      ∃ fresh, (succs.foldl Frontier.release frontier).queue = frontier.queue ++ fresh ∧ fresh.Nodup ∧
        ∀ node, node ∈ fresh ↔ node ∈ succs ∧ frontier.inDegree node = succs.count node := by
  induction succs generalizing frontier with
  | nil => exact ⟨by simp, [], by simp⟩
  | cons succ succs ih =>
    have lowered (node : α) : (frontier.release succ).inDegree node =
        if node = succ then frontier.inDegree succ - 1 else frontier.inDegree node := by
      simp [Frontier.release, Function.update_apply]
    obtain ⟨degrees, fresh, queue, nodup, exactly⟩ := ih (frontier.release succ) (by grind)
    refine ⟨by grind, if frontier.inDegree succ - 1 = 0 then succ :: fresh else fresh, ?_, by grind, by grind⟩
    rw [foldl_cons, queue]
    by_cases last : frontier.inDegree succ - 1 = 0 <;> simp [Frontier.release, last]

/-- The node stands in the list, with the other one before it. -/
def Precedes (order : List α) (source target : α) : Prop :=
  ∃ front back, order = front ++ target :: back ∧ source ∈ front

/-- A node that was taken or waits has no open links, and open links are from nodes that were not
taken. -/
structure Sound (graph : Graph α) (frontier : Frontier α) (order : List α) : Prop where
  distinct : (order ++ frontier.queue).Nodup
  listed : ∀ node ∈ order ++ frontier.queue, node ∈ graph.nodes
  counted : ∀ node, frontier.inDegree node = graph.links.countP fun link => link.2 = node ∧ link.1 ∉ order
  ready : ∀ node ∈ graph.nodes, node ∈ order ++ frontier.queue ↔ frontier.inDegree node = 0
  preceded : ∀ source target, graph.Linked source target → target ∈ order → Precedes order source target

theorem sound_start (graph : Graph α) : graph.Sound graph.start [] where
  distinct := graph.distinct.filter _
  listed _ mem := mem_of_mem_filter mem
  counted node := by simp [start, inDegree]
  ready node mem := by simp [start, mem]
  preceded _ _ _ mem := by cases mem

theorem countP_open {order : List α} (links : List (α × α)) (untaken : node ∉ order) (target : α) :
    (links.countP fun link => link.2 = target ∧ link.1 ∉ order) =
      (links.countP fun link => link.2 = target ∧ link.1 ∉ order ++ [node]) +
        ((links.filter fun link => link.1 = node).map Prod.snd).count target := by
  induction links with
  | nil => rfl
  | cons link links ih =>
    by_cases same : link.1 = node <;> grind

theorem Sound.sources_taken (sound : graph.Sound frontier order) (zero : frontier.inDegree node = 0)
    (linked : graph.Linked source node) : source ∈ order := by
  rw [sound.counted, countP_eq_zero] at zero
  simpa using zero _ linked

theorem Sound.turn (sound : graph.Sound ⟨node :: queue, degrees⟩ order) :
    graph.Sound ((graph.successors node).foldl Frontier.release ⟨queue, degrees⟩) (order ++ [node]) := by
  have waiting : node ∈ order ++ node :: queue := by simp
  have zero : degrees node = 0 := (sound.ready node (sound.listed node waiting)).mp waiting
  have untaken : node ∉ order := fun taken =>
    (disjoint_of_nodup_append sound.distinct) taken mem_cons_self
  have opened (target : α) := (sound.counted target).trans (countP_open graph.links untaken target)
  obtain ⟨lowered, fresh, joined, nodup, exactly⟩ :=
    foldl_release ⟨queue, degrees⟩ (graph.successors node)
      (fun target => (opened target).ge.trans' (Nat.le_add_left _ _))
  have split : order ++ [node] ++ (queue ++ fresh) = order ++ node :: queue ++ fresh := by simp
  constructor
  case distinct =>
    rw [joined, split, nodup_append']
    refine ⟨sound.distinct, nodup, fun other earlier again => ?_⟩
    obtain ⟨released, count⟩ := (exactly other).mp again
    rw [(sound.ready other (sound.listed other earlier)).mp earlier] at count
    exact (count_pos_iff.mpr released).ne count
  case listed =>
    rw [joined, split]
    intro other mem
    rcases mem_append.mp mem with earlier | again
    · exact sound.listed other earlier
    · exact (graph.inside _ (mem_successors graph |>.mp ((exactly other).mp again).1)).2
  case counted =>
    intro target
    rw [lowered, opened target, successors, Nat.add_sub_cancel]
  case ready =>
    intro target known
    rw [joined, split, mem_append, exactly, sound.ready target known, lowered]
    have bound := (opened target).ge.trans' (Nat.le_add_left _ _)
    rw [← count_pos_iff]
    change (graph.successors node).count target ≤ degrees target at bound
    change degrees target = 0 ∨ _ ∧ degrees target = _ ↔ degrees target - _ = 0
    omega
  case preceded =>
    intro source target linked mem
    rcases mem_append.mp mem with earlier | last
    · obtain ⟨front, back, same, before⟩ := sound.preceded source target linked earlier
      exact ⟨front, back ++ [node], by simp [same], before⟩
    · obtain rfl := mem_singleton.mp last
      exact ⟨order, [], rfl, sound.sources_taken zero linked⟩

theorem Sound.length_le (sound : graph.Sound frontier order) :
    order.length + frontier.queue.length ≤ graph.nodes.length := by
  rw [← length_append]
  exact (subperm_of_subset sound.distinct sound.listed).length_le

theorem sound_iterate (graph : Graph α) (turns : Nat) :
    graph.Sound (graph.orderTurn^[turns] (graph.start, [])).1
      (graph.orderTurn^[turns] (graph.start, [])).2 ∧
    ((graph.orderTurn^[turns] (graph.start, [])).1.queue = [] ∨
      (graph.orderTurn^[turns] (graph.start, [])).2.length = turns) := by
  induction turns with
  | zero => exact ⟨sound_start graph, .inr rfl⟩
  | succ turns ih =>
    rw [Function.iterate_succ_apply']
    generalize graph.orderTurn^[turns] (graph.start, []) = sweep at ih
    obtain ⟨⟨_ | ⟨node, queue⟩, degrees⟩, order⟩ := sweep
    · exact ⟨ih.1, .inl rfl⟩
    · have length := ih.2.resolve_left (by simp)
      rw [orderTurn_cons]
      exact ⟨ih.1.turn, .inr (by simp [← length])⟩

/-- The loop ends with an empty queue. -/
theorem exists_sound_order (graph : Graph α) :
    ∃ frontier : Frontier α, frontier.queue = [] ∧ graph.Sound frontier graph.order := by
  obtain ⟨sound, ended⟩ := sound_iterate graph graph.nodes.length
  have bound := sound.length_le
  refine ⟨_, ?_, sound⟩
  rcases ended with empty | length
  · exact empty
  · exact length_eq_zero_iff.mp (by omega)

theorem nodup_order (graph : Graph α) : graph.order.Nodup := by
  obtain ⟨⟨_, degrees⟩, rfl, sound⟩ := graph.exists_sound_order
  simpa using sound.distinct

theorem mem_nodes_of_order (taken : node ∈ graph.order) : node ∈ graph.nodes := by
  obtain ⟨⟨_, degrees⟩, rfl, sound⟩ := graph.exists_sound_order
  exact sound.listed node (by simpa using taken)

theorem order_preceded (linked : graph.Linked source target) (taken : target ∈ graph.order) :
    Precedes graph.order source target := by
  obtain ⟨⟨_, degrees⟩, rfl, sound⟩ := graph.exists_sound_order
  exact sound.preceded source target linked taken

/-- A node is left over only if one that links to it is left over. -/
theorem exists_untaken (known : node ∈ graph.nodes) (untaken : node ∉ graph.order) :
    ∃ source, graph.Linked source node ∧ source ∉ graph.order := by
  obtain ⟨⟨_, degrees⟩, rfl, sound⟩ := graph.exists_sound_order
  have positive : degrees node ≠ 0 := by
    intro zero
    exact untaken (by simpa using (sound.ready node known).mpr zero)
  have counted : degrees node = _ := sound.counted node
  rw [counted, ← Nat.pos_iff_ne_zero, countP_pos_iff] at positive
  obtain ⟨⟨source, target⟩, listed, opened⟩ := positive
  obtain ⟨rfl, left⟩ := of_decide_eq_true opened
  exact ⟨source, listed, left⟩

theorem Precedes.idxOf_lt (precedes : Precedes order source target) (distinct : order.Nodup) :
    order.idxOf source < order.idxOf target := by
  obtain ⟨front, back, rfl, before⟩ := precedes
  have later : target ∉ front := fun earlier =>
    (disjoint_of_nodup_append distinct) earlier mem_cons_self
  rw [idxOf_append_of_mem before, idxOf_append_of_notMem later, idxOf_cons_self]
  exact idxOf_lt_length_of_mem before

def Complete (graph : Graph α) : Prop := ∀ node ∈ graph.nodes, node ∈ graph.order

theorem Complete.idxOf_lt (complete : graph.Complete) (linked : graph.Linked source target) :
    graph.order.idxOf source < graph.order.idxOf target :=
  (order_preceded linked (complete _ (graph.inside _ linked).2)).idxOf_lt graph.nodup_order

/-- All nodes are taken exactly if there is no cycle, along which the positions would grow forever.
-/
theorem complete_iff_acyclic (graph : Graph α) : graph.Complete ↔ graph.Acyclic := by
  constructor
  · intro complete node cycle
    exact Nat.lt_irrefl _ (lt_of_transGen graph.order.idxOf complete.idxOf_lt cycle)
  · intro acyclic node known
    have strict : IsStrictOrder α (TransGen graph.Linked) :=
      { irrefl := acyclic, trans := fun _ _ _ => TransGen.trans }
    have wellFounded : {node | node ∈ graph.nodes}.WellFoundedOn (TransGen graph.Linked) :=
      (finite_toSet graph.nodes).wellFoundedOn
    refine wellFounded.induction known fun node known earlier => ?_
    by_contra untaken
    obtain ⟨source, linked, left⟩ := exists_untaken known untaken
    exact left (earlier source (graph.inside _ linked).1 (.single linked))

theorem order_subperm (graph : Graph α) : graph.order.Subperm graph.nodes :=
  subperm_of_subset graph.nodup_order fun _ => mem_nodes_of_order

theorem Complete.idxOf_lt_length (complete : graph.Complete) (known : node ∈ graph.nodes) :
    graph.order.idxOf node < graph.nodes.length :=
  (idxOf_lt_length_of_mem (complete node known)).trans_le graph.order_subperm.length_le

theorem length_order_iff (graph : Graph α) : graph.order.length = graph.nodes.length ↔ graph.Acyclic := by
  rw [← complete_iff_acyclic]
  constructor
  · intro same node known
    exact (graph.order_subperm.perm_of_length_le same.ge).mem_iff.mpr known
  · intro complete
    exact graph.order_subperm.length_le.antisymm (subperm_of_subset graph.distinct complete).length_le

end Graph

end Aafp.Foundation
