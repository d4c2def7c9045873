import Aafp.Foundation.Machine
import Aafp.Routing.Select

/-! The two opinions of the router about a peer. -/
namespace Aafp.Routing

open Foundation Identity List

theorem CircuitEntry.maybeHalfOpen_twice (entry : CircuitEntry) (config : CircuitBreakerConfig) (now : Instant) :
    (entry.maybeHalfOpen config now).maybeHalfOpen config now = entry.maybeHalfOpen config now := by
  by_cases due : entry.state = .opened ∧ now - entry.openedAt ≥ config.cooldown
  · simp [maybeHalfOpen, due]
  · simp only [maybeHalfOpen, due, if_false]

theorem PeerMetrics.maybeHalfOpen_twice (metrics : PeerMetrics) (cooldown : Duration) (now : Instant) :
    (metrics.maybeHalfOpen cooldown now).maybeHalfOpen cooldown now = metrics.maybeHalfOpen cooldown now := by
  by_cases due : metrics.circuit = .opened ∧ now - metrics.lastSeen ≥ cooldown
  · simp [maybeHalfOpen, due]
  · simp only [maybeHalfOpen, due, if_false]

def CircuitBreakerRegistry.IsOpen (circuits : CircuitBreakerRegistry) (now : Instant) (agentId : AgentId) : Prop :=
  (circuits.state now agentId).1 = .opened

instance (circuits : CircuitBreakerRegistry) : Decidable (circuits.IsOpen now agentId) :=
  inferInstanceAs (Decidable (_ = _))

def PeerMetricsRegistry.IsOpen (metrics : PeerMetricsRegistry) (now : Instant) (agentId : AgentId) : Prop :=
  (metrics.checkCircuit now agentId).1 = .opened

instance (metrics : PeerMetricsRegistry) : Decidable (metrics.IsOpen now agentId) :=
  inferInstanceAs (Decidable (_ = _))

section

variable (metrics : PeerMetricsRegistry) (circuits : CircuitBreakerRegistry) (now : Instant)

theorem CircuitBreakerRegistry.isOpen_state (looked agentId : AgentId) :
    (circuits.state now looked).2.IsOpen now agentId ↔ circuits.IsOpen now agentId := by
  simp only [IsOpen, state, entry, setEntry, lookup_insert_ite]
  split <;> grind [CircuitEntry.maybeHalfOpen_twice]

theorem PeerMetricsRegistry.isOpen_iff {metrics : PeerMetricsRegistry} {now : Instant} :
    metrics.IsOpen now agentId ↔ ∃ entry, metrics.peers.lookup agentId = some entry ∧
      (entry.maybeHalfOpen metrics.cooldown now).circuit = .opened := by
  cases found : metrics.peers.lookup agentId <;> simp [IsOpen, checkCircuit, found]

theorem PeerMetricsRegistry.isOpen_checkCircuit (checked agentId : AgentId) :
    (metrics.checkCircuit now checked).2.IsOpen now agentId ↔ metrics.IsOpen now agentId := by
  rw [isOpen_iff, isOpen_iff]
  cases found : metrics.peers.lookup checked with
  | none => simp [checkCircuit, found]
  | some entry =>
    by_cases same : checked = agentId
    · subst same
      simp [checkCircuit, found, PeerMetrics.maybeHalfOpen_twice]
    · simp [checkCircuit, found, AList.lookup_insert_ne (Ne.symm same)]

theorem PeerMetricsRegistry.isOpen_enter
    (entered agentId : AgentId) : (metrics.enter now entered).IsOpen now agentId ↔ metrics.IsOpen now agentId := by
  rw [isOpen_iff, isOpen_iff]
  by_cases same : entered = agentId
  · subst same
    cases found : metrics.peers.lookup entered with
    | none => simp [enter, getOrCreate, found, PeerMetrics.new, PeerMetrics.maybeHalfOpen]
    | some entry => simp [enter, getOrCreate, found]
  · simp [enter, AList.lookup_insert_ne (Ne.symm same)]

theorem filterCandidates_agents
    (candidates : List (LegacyRecord × Float)) : (filterCandidates now circuits candidates).1.map Prod.fst =
      (candidates.map fun candidate => candidate.1.agentId).filter fun agentId => ¬ circuits.IsOpen now agentId := by
  induction candidates generalizing circuits with
  | nil => rfl
  | cons candidate candidates ih =>
    have rest := ih (circuits.state now candidate.1.agentId).2
    simp only [CircuitBreakerRegistry.isOpen_state] at rest
    rw [filterCandidates, map_cons, filter_cons]
    by_cases opened : (circuits.state now candidate.1.agentId).1 = .opened
    · have seen : circuits.IsOpen now candidate.1.agentId := opened
      rw [if_pos opened, if_neg (by simpa using seen)]
      exact rest
    · have seen : ¬ circuits.IsOpen now candidate.1.agentId := opened
      rw [if_neg opened, if_pos (by simpa using seen), map_cons, rest]

end

theorem scoreCandidates_agents (config : AdaptiveRoutingConfig) (measuresOf : AgentId → Measures) (now : Instant)
    (metrics : PeerMetricsRegistry) (candidates : List (AgentId × Float)) :
    (scoreCandidates config measuresOf now metrics candidates).1.map Prod.fst =
      (candidates.map Prod.fst).filter fun agentId => ¬ metrics.IsOpen now agentId := by
  induction candidates generalizing metrics with
  | nil => rfl
  | cons candidate candidates ih =>
    rw [scoreCandidates, map_cons, filter_cons]
    by_cases opened : (metrics.checkCircuit now candidate.1).1 = .opened
    · have rest := ih (metrics.checkCircuit now candidate.1).2
      simp only [PeerMetricsRegistry.isOpen_checkCircuit] at rest
      have seen : metrics.IsOpen now candidate.1 := opened
      rw [if_pos opened, if_neg (by simpa using seen)]
      exact rest
    · have rest := ih ((metrics.checkCircuit now candidate.1).2.enter now candidate.1)
      simp only [PeerMetricsRegistry.isOpen_enter, PeerMetricsRegistry.isOpen_checkCircuit] at rest
      have seen : ¬ metrics.IsOpen now candidate.1 := opened
      rw [if_neg opened, if_pos (by simpa using seen), map_cons, rest]

namespace RoutingEngine

theorem selectScored_cases (engine : RoutingEngine) (now : Instant) (draws : Draws) (nonempty : scored ≠ []) :
    ((∃ epsilon, engine.config.strategy = .epsilonGreedy epsilon) ∧
      engine.selectScored now draws scored = .error .panicked) ∨
      ∃ agentId ∈ scored.map Prod.fst, engine.selectScored now draws scored = .ok agentId := by
  rw [selectScored]
  split
  next panics =>
    refine .inl ⟨?_, rfl⟩
    cases strategy : engine.config.strategy with
    | epsilonGreedy epsilon => exact ⟨epsilon, rfl⟩
    | _ => simp [strategy, RoutingStrategy.panics] at panics
  · obtain ⟨candidate, mem, selected⟩ := engine.config.strategy.select_picks
      (fun empty => nonempty (map_eq_nil_iff.mp empty)) draws
    obtain ⟨entry, inside, rfl⟩ := mem_map.mp mem
    rw [selected]
    exact .inr ⟨entry.1, mem_map_of_mem inside, rfl⟩

def viable (engine : RoutingEngine) (now : Instant) (candidates : List LegacyRecord) : List AgentId :=
  (candidates.map LegacyRecord.agentId).filter fun agentId =>
    ¬ engine.router.circuits.IsOpen now agentId ∧ ¬ engine.router.metrics.IsOpen now agentId

variable {engine : RoutingEngine} {now : Instant} {draws : Draws} {candidates : List LegacyRecord}
  {staticScores : List Float}

section

variable (lengths : candidates.length = staticScores.length)
include lengths

theorem map_agentId_zip : (candidates.zip staticScores).map (fun candidate => candidate.1.agentId) =
      candidates.map LegacyRecord.agentId := by
  have first := map_fst_zip (Nat.le_of_eq lengths)
  calc (candidates.zip staticScores).map (fun candidate => candidate.1.agentId)
      = ((candidates.zip staticScores).map Prod.fst).map LegacyRecord.agentId := by rw [map_map]; rfl
    _ = candidates.map LegacyRecord.agentId := by rw [first]

theorem map_fst_scoreCandidates : (scoreCandidates engine.config engine.measuresOf now engine.router.metrics
      (filterCandidates now engine.router.circuits (candidates.zip staticScores)).1).1.map Prod.fst =
        engine.viable now candidates := by
  rw [scoreCandidates_agents, filterCandidates_agents, map_agentId_zip lengths, filter_filter]
  apply filter_congr
  intro agentId _
  rw [← Bool.decide_and, decide_eq_decide]
  exact and_comm

/-- A selection fails exactly if no candidate is viable, and ends with a viable one otherwise, or
with a panic. -/
theorem select_cases : (engine.viable now candidates = [] ∧
      (engine.select now draws candidates staticScores).1 = .error .noViableCandidate) ∨
    (engine.viable now candidates ≠ [] ∧ (((∃ epsilon, engine.config.strategy = .epsilonGreedy epsilon) ∧
          (engine.select now draws candidates staticScores).1 = .error .panicked) ∨
        ∃ agentId ∈ engine.viable now candidates,
          (engine.select now draws candidates staticScores).1 = .ok agentId)) := by
  rw [← map_fst_scoreCandidates lengths]
  rw [select, if_neg (by simpa using lengths)]
  dsimp only
  split_ifs with unfiltered unscored
  · rw [unfiltered]
    exact .inl ⟨rfl, rfl⟩
  · rw [unscored]
    exact .inl ⟨rfl, rfl⟩
  · refine .inr ⟨fun empty => unscored (map_eq_nil_iff.mp empty), ?_⟩
    generalize ends : RoutingEngine.withRouter (RoutingEngine.withRouter _ _) _ = checked
    have same : checked.config = engine.config := by
      rw [← ends]
      rfl
    rcases selectScored_cases checked now draws unscored with ⟨⟨epsilon, greedy⟩, panicked⟩ | selected
    · exact .inl ⟨⟨epsilon, same ▸ greedy⟩, panicked⟩
    · exact .inr selected

end

/-- A selection fails only if the circuit breaker of every candidate is open, and never ends with a
candidate whose circuit breaker is open. -/
structure OneOpinion (engine : RoutingEngine) (now : Instant) (candidates : List LegacyRecord)
    (answer : Except SelectError AgentId) : Prop where
  fails : answer = .error .noViableCandidate →
    ∀ candidate ∈ candidates, engine.router.circuits.IsOpen now candidate.agentId
  selects : ∀ agentId, answer = .ok agentId → ¬ engine.router.circuits.IsOpen now agentId

/-- If the metrics refuse all candidates that the circuit breakers let through, then the circuit
breakers let none through. -/
def Agreed (engine : RoutingEngine) (now : Instant) (candidates : List LegacyRecord) : Prop :=
  (∀ candidate ∈ candidates, engine.router.circuits.IsOpen now candidate.agentId ∨
    engine.router.metrics.IsOpen now candidate.agentId) →
  ∀ candidate ∈ candidates, engine.router.circuits.IsOpen now candidate.agentId

theorem viable_eq_nil_iff : engine.viable now candidates = [] ↔
    ∀ candidate ∈ candidates, engine.router.circuits.IsOpen now candidate.agentId ∨
      engine.router.metrics.IsOpen now candidate.agentId := by
  rw [viable, filter_eq_nil_iff, forall_mem_map]
  simp only [decide_eq_true_eq, not_and_or, not_not]

theorem oneOpinion_iff_agreed (lengths : candidates.length = staticScores.length) :
    engine.OneOpinion now candidates (engine.select now draws candidates staticScores).1 ↔
      engine.Agreed now candidates := by
  obtain ⟨empty, failed⟩ | ⟨nonempty, ⟨-, panicked⟩ | ⟨agentId, mem, selected⟩⟩ :=
    @select_cases engine now draws _ _ lengths
  · constructor
    · exact fun opinion _ => opinion.fails failed
    · intro agreed
      refine ⟨fun _ => agreed (viable_eq_nil_iff.mp empty), ?_⟩
      rw [failed]
      nofun
  · have agreed : engine.Agreed now candidates := fun refused => absurd (viable_eq_nil_iff.mpr refused) nonempty
    refine iff_of_true ⟨?_, ?_⟩ agreed
    · rw [panicked]
      nofun
    · rw [panicked]
      nofun
  · have agreed : engine.Agreed now candidates := fun refused => absurd (viable_eq_nil_iff.mpr refused) nonempty
    refine iff_of_true ⟨?_, ?_⟩ agreed
    · rw [selected]
      nofun
    · intro other same
      rw [selected] at same
      cases same
      have passed := of_mem_filter mem
      rw [decide_eq_true_eq] at passed
      exact passed.1

inductive Call where
  | select (now : Instant) (draws : Draws) (candidates : List LegacyRecord) (staticScores : List Float)
  | acquire (now : Instant) (agentId : AgentId)
  | drop (slot : RoutingSlot)
  | recordSuccess (now : Instant) (agentId : AgentId) (latencyMs : Float)
  | recordFailure (now : Instant) (agentId : AgentId) (latencyMs : Float)
  | recordTimeout (now : Instant) (agentId : AgentId)

inductive Answer where
  | selected (result : Except SelectError AgentId)
  | acquired (result : Except SdkError RoutingSlot)
  | done

def machine : Machine Call Answer RoutingEngine where
  step engine
    | .select now draws candidates staticScores =>
      (engine.select now draws candidates staticScores).map .selected id
    | .acquire now agentId => (engine.acquire now agentId).map .acquired id
    | .drop slot => (.done, engine.dropSlot slot)
    | .recordSuccess now agentId latencyMs => (.done, engine.recordSuccess now agentId latencyMs)
    | .recordFailure now agentId latencyMs => (.done, engine.recordFailure now agentId latencyMs)
    | .recordTimeout now agentId => (.done, engine.recordTimeout now agentId)

def Call.clock : Call → Option Instant
  | select now .. | acquire now _ | recordSuccess now .. | recordFailure now .. | recordTimeout now _ => some now
  | drop _ => none

/-- A selection with a score for each candidate is of one opinion with the circuit breakers. -/
def Call.HasOneOpinion (call : Call) (engine : RoutingEngine) : Prop :=
  ∀ now draws candidates staticScores answer, call = .select now draws candidates staticScores →
    candidates.length = staticScores.length → (machine.step engine call).1 = .selected answer →
    engine.OneOpinion now candidates answer

def Call.IsAgreed (call : Call) (engine : RoutingEngine) : Prop :=
  ∀ now draws candidates staticScores, call = .select now draws candidates staticScores →
    candidates.length = staticScores.length → engine.Agreed now candidates

/-- The selections are of one opinion with the circuit breakers exactly if the metrics never refuse
all candidates that these let through. -/
theorem one_opinion_iff (config : AdaptiveRoutingConfig) (calls : List Call) :
    machine.Meets (.new config) (fun _ engine call => call.HasOneOpinion engine) calls ↔
      machine.Meets (.new config) (fun _ engine call => call.IsAgreed engine) calls := by
  have each : ∀ (call : Call) (engine : RoutingEngine), call.HasOneOpinion engine ↔ call.IsAgreed engine := by
    intro call engine
    constructor
    · intro opinion now draws candidates staticScores same lengths
      subst same
      exact (oneOpinion_iff_agreed lengths).mp (opinion now draws candidates staticScores _ rfl lengths rfl)
    · intro agreed now draws candidates staticScores answer same lengths answered
      subst same
      cases answered
      exact (oneOpinion_iff_agreed lengths).mpr (agreed now draws candidates staticScores rfl lengths)
  simp only [Machine.Meets, each]

/-- A peer fails five times, and is up again when its circuit breaker lets a probe through. -/
def recoveredCalls : List Call :=
  replicate 5 (.recordFailure 0 (.filled 1) 20.0) ++
    [.acquire (Duration.fromSecs 10) (.filled 1), .recordSuccess (Duration.fromSecs 10) (.filled 1) 20.0]

def recoveredRecord : LegacyRecord := ⟨.filled 1, [], [], [], 0, 0, []⟩

def recoveredSelect : Call :=
  .select (Duration.fromSecs 10) ⟨0, 0, fun bound => bound, fun _ => false⟩ [recoveredRecord] [1.0]

/-- Its circuit breaker is closed, but the metrics still refuse it. -/
theorem recovered_two_opinions : ((recoveredCalls ++ [recoveredSelect]).filterMap Call.clock).Pairwise (· ≤ ·) ∧
      ¬ machine.Meets (.new {}) (fun _ engine call => call.HasOneOpinion engine)
        (recoveredCalls ++ [recoveredSelect]) := by
  refine ⟨by decide, ?_⟩
  intro meets
  rw [Machine.meets_concat] at meets
  have opinion := meets.2 _ _ _ _ _ rfl rfl rfl
  have opened := opinion.fails (by rfl) recoveredRecord mem_cons_self
  have closed : ((machine.after (.new {}) recoveredCalls).router.circuits.state (Duration.fromSecs 10)
      recoveredRecord.agentId).1 = .closed := by rfl
  exact absurd (closed.symm.trans opened) (by decide)

end RoutingEngine

end Aafp.Routing
