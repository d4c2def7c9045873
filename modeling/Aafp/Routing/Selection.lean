import Aafp.Identity.AgentId

/-! The selection strategies of the routing plane. -/
namespace Aafp.Routing

open Foundation Identity List Option

/-- `partial_cmp(..).unwrap_or(Equal)`. -/
def cmpFloat (left right : Float) : Ordering :=
  if left < right then .lt else if right < left then .gt else .eq

structure SelectionCandidate where
  agentId : AgentId
  score : Float
  inFlight : UInt32
  latencyEwmaMs : Float
  latencyInitialized : Bool
  successRate : Float

inductive RoutingStrategy where
  | p2c
  | weightedRandom
  | leastConnections
  | lowestLatency
  | epsilonGreedy (epsilon : Float)

/-- Up to two indices below the number of candidates, a point below a bound, and a coin with a
probability. -/
structure Draws where
  first : Nat
  second : Nat
  point : Float → Float
  coin : Float → Bool

def walk (r : Float) : List SelectionCandidate → Option AgentId
  | [] => none
  | candidate :: candidates =>
    if r - candidate.score ≤ 0.0 then some candidate.agentId else walk (r - candidate.score) candidates

variable (candidates : List SelectionCandidate)

def totalScore : Float :=
  candidates.foldl (fun sum candidate => sum + candidate.score) 0.0

def selectWeightedRandom (draws : Draws) (candidates : List SelectionCandidate) : Option AgentId :=
  if candidates.isEmpty then none
  else if ¬ (totalScore candidates).isFinite ∨ totalScore candidates ≤ 0.0 then
    candidates[draws.first % candidates.length]?.map SelectionCandidate.agentId
  else
    (walk (draws.point (totalScore candidates)) candidates).or
      (candidates.getLast?.map SelectionCandidate.agentId)

def selectPowerOfTwo (draws : Draws) (candidates : List SelectionCandidate) : Option AgentId :=
  if candidates.length ≤ 1 then candidates.head?.map SelectionCandidate.agentId
  else if candidates.length < 4 then selectWeightedRandom draws candidates
  else do
    let i := draws.first % candidates.length
    let drawn := draws.second % candidates.length
    let j := if drawn = i then (drawn + 1) % candidates.length else drawn
    let a ← candidates[i]?
    let b ← candidates[j]?
    if a.score ≥ b.score then some a.agentId else some b.agentId

def selectLeastConnections : Option AgentId :=
  (minBy (fun a b => (compare a.inFlight b.inFlight).then (cmpFloat b.score a.score)) candidates).map
    SelectionCandidate.agentId

def bestScore : Option AgentId :=
  (maxBy (fun a b => cmpFloat a.score b.score) candidates).map SelectionCandidate.agentId

def selectLowestLatency : Option AgentId :=
  ((minBy (fun a b => (cmpFloat a.latencyEwmaMs b.latencyEwmaMs).then (cmpFloat b.successRate a.successRate))
    (candidates.filter SelectionCandidate.latencyInitialized)).map SelectionCandidate.agentId).or
      (bestScore candidates)

def selectEpsilonGreedy (draws : Draws) (epsilon : Float) (candidates : List SelectionCandidate) : Option AgentId :=
  if candidates.isEmpty then none
  else if draws.coin epsilon then
    candidates[draws.first % candidates.length]?.map SelectionCandidate.agentId
  else bestScore candidates

namespace RoutingStrategy

def select (strategy : RoutingStrategy) (draws : Draws) (candidates : List SelectionCandidate) : Option AgentId :=
  match strategy with
  | p2c => selectPowerOfTwo draws candidates
  | weightedRandom => selectWeightedRandom draws candidates
  | leastConnections => selectLeastConnections candidates
  | lowestLatency => selectLowestLatency candidates
  | epsilonGreedy epsilon => selectEpsilonGreedy draws epsilon candidates

/-- `gen_bool` panics on what is not a probability. -/
def panics (strategy : RoutingStrategy) (candidates : List SelectionCandidate) : Bool :=
  match strategy with
  | epsilonGreedy epsilon => !candidates.isEmpty && !(0.0 ≤ epsilon && epsilon < 1.0) && !(epsilon == 1.0)
  | _ => false

end RoutingStrategy

variable {candidates : List SelectionCandidate}

theorem index_picks (nonempty : candidates ≠ []) (n : Nat) :
    ∃ candidate ∈ candidates, candidates[n % candidates.length]? = some candidate := by
  have inside : n % candidates.length < candidates.length := Nat.mod_lt n (length_pos_iff.mpr nonempty)
  exact ⟨candidates[n % candidates.length], getElem_mem inside, getElem?_eq_getElem inside⟩

theorem mem_of_walk (found : walk r candidates = some agentId) :
    ∃ candidate ∈ candidates, candidate.agentId = agentId := by
  induction candidates generalizing r with
  | nil => cases found
  | cons candidate candidates ih =>
    rw [walk] at found
    split at found
    · exact ⟨candidate, mem_cons_self, some.inj found⟩
    · obtain ⟨other, mem, same⟩ := ih found
      exact ⟨other, mem_cons_of_mem _ mem, same⟩

section

variable (nonempty : candidates ≠ [])
include nonempty

theorem selectWeightedRandom_picks (draws : Draws) :
    ∃ candidate ∈ candidates, selectWeightedRandom draws candidates = some candidate.agentId := by
  rw [selectWeightedRandom, if_neg (by simpa using nonempty)]
  split
  · obtain ⟨candidate, mem, found⟩ := index_picks nonempty draws.first
    exact ⟨candidate, mem, by rw [found, map_some]⟩
  · cases walked : walk (draws.point (totalScore candidates)) candidates with
    | some agentId =>
      obtain ⟨candidate, mem, same⟩ := mem_of_walk walked
      exact ⟨candidate, mem, by rw [some_or, same]⟩
    | none =>
      refine ⟨candidates.getLast nonempty, getLast_mem nonempty, ?_⟩
      rw [none_or, getLast?_eq_some_getLast nonempty, map_some]

theorem selectPowerOfTwo_picks (draws : Draws) :
    ∃ candidate ∈ candidates, selectPowerOfTwo draws candidates = some candidate.agentId := by
  rw [selectPowerOfTwo]
  split
  · obtain ⟨first, rest, rfl⟩ := exists_cons_of_ne_nil nonempty
    exact ⟨first, mem_cons_self, rfl⟩
  · split
    · exact selectWeightedRandom_picks nonempty draws
    · have second : ∃ candidate ∈ candidates,
          candidates[if draws.second % candidates.length = draws.first % candidates.length then
            (draws.second % candidates.length + 1) % candidates.length
          else draws.second % candidates.length]? = some candidate := by
        split
        · exact index_picks nonempty _
        · exact index_picks nonempty _
      obtain ⟨a, first, foundFirst⟩ := index_picks nonempty draws.first
      obtain ⟨b, other, foundSecond⟩ := second
      simp only [foundFirst, foundSecond, bind_eq_bind, bind_some]
      split
      · exact ⟨a, first, rfl⟩
      · exact ⟨b, other, rfl⟩

theorem bestScore_picks : ∃ candidate ∈ candidates, bestScore candidates = some candidate.agentId := by
  obtain ⟨candidate, mem, found⟩ := exists_maxBy (fun a b => cmpFloat a.score b.score) nonempty
  exact ⟨candidate, mem, by rw [bestScore, found, map_some]⟩

theorem selectLowestLatency_picks :
    ∃ candidate ∈ candidates, selectLowestLatency candidates = some candidate.agentId := by
  rw [selectLowestLatency]
  by_cases measured : candidates.filter SelectionCandidate.latencyInitialized = []
  · rw [measured]
    exact bestScore_picks nonempty
  · obtain ⟨candidate, mem, found⟩ := exists_minBy (fun a b : SelectionCandidate =>
      (cmpFloat a.latencyEwmaMs b.latencyEwmaMs).then (cmpFloat b.successRate a.successRate)) measured
    refine ⟨candidate, mem_of_mem_filter mem, ?_⟩
    rw [found, map_some, some_or]

theorem RoutingStrategy.select_picks (strategy : RoutingStrategy) (draws : Draws) :
    ∃ candidate ∈ candidates, strategy.select draws candidates = some candidate.agentId := by
  cases strategy with
  | p2c => exact selectPowerOfTwo_picks nonempty draws
  | weightedRandom => exact selectWeightedRandom_picks nonempty draws
  | leastConnections =>
    obtain ⟨candidate, mem, found⟩ := exists_minBy (fun a b : SelectionCandidate =>
      (compare a.inFlight b.inFlight).then (cmpFloat b.score a.score)) nonempty
    exact ⟨candidate, mem, by rw [select, selectLeastConnections, found, map_some]⟩
  | lowestLatency => exact selectLowestLatency_picks nonempty
  | epsilonGreedy epsilon =>
    rw [select, selectEpsilonGreedy, if_neg (by simpa using nonempty)]
    split
    · obtain ⟨candidate, mem, found⟩ := index_picks nonempty draws.first
      exact ⟨candidate, mem, by rw [found, map_some]⟩
    · exact bestScore_picks nonempty

end

end Aafp.Routing
