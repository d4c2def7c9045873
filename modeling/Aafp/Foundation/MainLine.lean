import Aafp.Foundation.Machine

/-! Graphs of states with a main line, and predicates on a state which assert that
the way to it led through another state. -/
namespace Aafp.Foundation

/-- A graph of states. The states of the line have its places, in their order, as
their rank; those beside it have a greater rank. -/
structure MainLine (State : Type) where
  edge : State → State → Bool
  line : List State
  rank : State → Nat

/-- Each assertion is a predicate, and the state that was passed where it is true. -/
abbrev Assertions (State : Type) := List ((State → Bool) × State)

def Assertions.Truthful (assertions : Assertions State) (passed : List State) (state : State) : Prop :=
  ∀ assertion ∈ assertions, assertion.1 state = true → assertion.2 ∈ passed

instance [DecidableEq State] (assertions : Assertions State) (passed : List State) (state : State) :
    Decidable (assertions.Truthful passed state) :=
  inferInstanceAs (Decidable (∀ assertion ∈ assertions, assertion.1 state = true → assertion.2 ∈ passed))

namespace MainLine

/-- What has to be checked of a graph to know which edges make an assertion untrue. -/
structure Decides (graph : MainLine State) (assertions : Assertions State) (early : State → State → Bool) :
    Prop where
  /-- There is one way to a state of the line. -/
  one_way : ∀ state next, graph.edge state next = true → graph.rank next ≤ graph.line.length →
    graph.rank state ≤ graph.line.length ∧
      graph.line.take (graph.rank next) = graph.line.take (graph.rank state) ++ [next]
  on_line : ∀ state next, graph.edge state next = true → graph.rank state ≤ graph.line.length →
    (assertions.Truthful (graph.line.take (graph.rank state) ++ [next]) next ↔ early state next = false)
  /-- Beside the line nothing new is asserted. -/
  beside : ∀ state next, graph.edge state next = true → graph.line.length < graph.rank state →
    early state next = false ∧ ∀ assertion ∈ assertions, assertion.1 next = true → assertion.1 state = true
  no_edge : ∀ state next, graph.edge state next = false → early state next = false

/-- How a machine walks on the graph: an input asks for a state, and the machine
goes there exactly along an edge. -/
structure Walker (graph : MainLine State) (machine : Machine Input Output Memory) where
  state : Memory → State
  asks : Input → Option State
  passed : List (Input × Output) → List State
  moves : ∀ past memory input,
    (∃ next, asks input = some next ∧ graph.edge (state memory) next = true ∧
      state (machine.step memory input).2 = next ∧
      passed (past ++ [(input, (machine.step memory input).1)]) = passed past ++ [next]) ∨
    ((∀ next, asks input = some next → graph.edge (state memory) next = false) ∧
      state (machine.step memory input).2 = state memory ∧
      passed (past ++ [(input, (machine.step memory input).1)]) = passed past)

variable {graph : MainLine State} {machine : Machine Input Output Memory}

def OnLine (graph : MainLine State) (passed : List State) (state : State) : Prop :=
  graph.rank state ≤ graph.line.length → passed = graph.line.take (graph.rank state)

section

variable (checked : graph.Decides assertions early)
include checked

theorem OnLine.step (onLine : graph.OnLine passed state)
    (edge : graph.edge state next = true) : graph.OnLine (passed ++ [next]) next := by
  intro near
  obtain ⟨nearer, same⟩ := checked.one_way state next edge near
  rw [same, onLine nearer]

theorem Decides.step (onLine : graph.OnLine passed state)
    (truthful : assertions.Truthful passed state) (edge : graph.edge state next = true) :
    assertions.Truthful (passed ++ [next]) next ↔ early state next = false := by
  by_cases near : graph.rank state ≤ graph.line.length
  · rw [onLine near]
    exact checked.on_line state next edge near
  · obtain ⟨late, fewer⟩ := checked.beside state next edge (Nat.lt_of_not_le near)
    refine iff_of_true ?_ late
    intro assertion mem holds
    exact List.mem_append_left _ (truthful assertion mem (fewer assertion mem holds))

/-- The assertions are true in every state of a run exactly if no step of it goes
along an early edge. -/
theorem Decides.throughout_iff (walker : Walker graph machine) (origin : walker.passed [] = [])
    (first : graph.rank (walker.state start) = 0)
    (truthful : assertions.Truthful [] (walker.state start)) (inputs : List Input) : machine.Throughout start
      (fun past memory => assertions.Truthful (walker.passed past) (walker.state memory)) inputs ↔
    machine.Meets start (fun _ memory input => ∀ next, walker.asks input = some next →
        early (walker.state memory) next = false) inputs := by
  refine @Machine.throughout_iff_meets _ _ _ _ _
    (fun past memory => graph.OnLine (walker.passed past) (walker.state memory)) _ _ ?_ ?_ ?_ ?_ inputs
  · intro _
    rw [origin, first, List.take_zero]
  · rw [origin]
    exact truthful
  · intro past memory input onLine
    rcases walker.moves past memory input with ⟨next, -, edge, entered, passed⟩ | ⟨-, same, passed⟩
    · rw [entered, passed]
      exact onLine.step checked edge
    · rw [same, passed]
      exact onLine
  · intro past memory input onLine truthful
    rcases walker.moves past memory input with ⟨next, asked, edge, entered, passed⟩ | ⟨stuck, same, passed⟩
    · rw [entered, passed, checked.step onLine truthful edge, asked]
      simp
    · rw [same, passed]
      refine iff_of_true truthful fun next asked => ?_
      exact checked.no_edge _ next (stuck next asked)

end

end MainLine

end Aafp.Foundation
