import Aafp.Identity.AgentRecord
import Aafp.Routing.Router
import Aafp.Routing.Selection

/-! The routing engine. -/
namespace Aafp.Routing

open Foundation Identity

structure Ewma where
  value : Float
  alpha : Float
  initialized : Bool

namespace Ewma

def new (alpha : Float) : Ewma := ⟨0.0, alpha, false⟩

def update (ewma : Ewma) (sample : Float) : Ewma :=
  if ewma.initialized then
    { ewma with value := ewma.alpha * sample + (1.0 - ewma.alpha) * ewma.value }
  else { ewma with value := sample, initialized := true }

end Ewma

structure RollingWindow where
  bits : UInt64
  index : UInt8
  capacity : UInt8
  count : UInt8

namespace RollingWindow

def new (capacity : UInt8) : RollingWindow := ⟨0, 0, capacity, 0⟩

def record (window : RollingWindow) (success : Bool) : RollingWindow :=
  let mask : UInt64 := 1 <<< window.index.toUInt64
  { window with
    bits := if success then window.bits ||| mask else window.bits &&& ~~~mask
    index := (window.index + 1) % window.capacity
    count := if window.count < window.capacity then window.count + 1 else window.count }

def countOnes (bits : UInt64) : Nat := (List.range 64).countP bits.toNat.testBit

def successRate (window : RollingWindow) : Float :=
  if window.count = 0 then 1.0 else (countOnes window.bits).toFloat / window.count.toFloat

end RollingWindow

inductive HealthProbeResult where
  | healthy
  | degraded
  | unhealthy
  | unreachable

/-- The metrics of a peer on which nothing but scores depends. They are kept beside the others. -/
structure Measures where
  latencyEwmaMs : Ewma
  successWindow : RollingWindow
  queueDepth : Option UInt32
  costMicroUsd : Option UInt64
  lastHealth : Option HealthProbeResult

namespace Measures

def new : Measures := ⟨.new 0.1, .new 64, none, none, none⟩

def recordOutcome (measures : Measures) (latencyMs : Float) (success : Bool) : Measures :=
  { measures with
    latencyEwmaMs := measures.latencyEwmaMs.update latencyMs
    successWindow := measures.successWindow.record success }

end Measures

/-- The circuit of the metrics after its cooldown, which runs from the last outcome. -/
def PeerMetrics.maybeHalfOpen (metrics : PeerMetrics) (cooldown : Duration) (now : Instant) : PeerMetrics :=
  if metrics.circuit = .opened ∧ now - metrics.lastSeen ≥ cooldown then { metrics with circuit := .halfOpen }
  else metrics

namespace PeerMetricsRegistry

def checkCircuit (registry : PeerMetricsRegistry) (now : Instant) (agentId : AgentId) :
    CircuitState × PeerMetricsRegistry :=
  match registry.peers.lookup agentId with
  | some metrics =>
    let metrics := metrics.maybeHalfOpen registry.cooldown now
    (metrics.circuit, { registry with peers := registry.peers.insert agentId metrics })
  | none => (.closed, registry)

/-- What `get_or_create` leaves behind. -/
def enter (registry : PeerMetricsRegistry) (now : Instant) (agentId : AgentId) : PeerMetricsRegistry :=
  { registry with peers := registry.peers.insert agentId (registry.getOrCreate now agentId) }

def stalenessThreshold : Duration := Duration.fromSecs 60

end PeerMetricsRegistry

structure DynamicScoreConfig where
  weightLatency : Float := 0.35
  weightSuccess : Float := 0.30
  weightLoad : Float := 0.15
  weightAvailability : Float := 0.15
  weightCost : Float := 0.05
  latencyRefMs : Float := 50.0
  costRefMicroUsd : Float := 100.0

/-- `f64::max`, which prefers a number to NaN. -/
def maxFloat (left right : Float) : Float :=
  if left.isNaN then right else if right.isNaN then left else if left < right then right else left

/-- `f64::clamp`. -/
def clampFloat (value lower upper : Float) : Float :=
  if value < lower then lower else if value > upper then upper else value

def availabilityScore : Option HealthProbeResult → Float
  | some .healthy => 1.0
  | some .degraded => 0.5
  | some .unhealthy => 0.1
  | some .unreachable => 0.0
  | none => 0.7

/-- The weighted score of a peer whose circuit is closed and that was seen lately. -/
def weightedScore (metrics : PeerMetrics) (measures : Measures) (config : DynamicScoreConfig) : Float :=
  let latencyScore :=
    if measures.latencyEwmaMs.initialized then
      maxFloat (1.0 - measures.latencyEwmaMs.value / (5.0 * config.latencyRefMs)) 0.0
    else 0.5
  let successScore := measures.successWindow.successRate
  let queue := (measures.queueDepth.getD 0).toFloat
  let loadScore := 1.0 / (1.0 + metrics.inFlight.toFloat + queue)
  let costScore := match measures.costMicroUsd with
    | some cost => maxFloat (1.0 - cost.toFloat / (5.0 * config.costRefMicroUsd)) 0.0
    | none => 0.8
  let totalWeight := config.weightLatency + config.weightSuccess + config.weightLoad +
    config.weightAvailability + config.weightCost
  if totalWeight ≤ 0.0 then 0.0
  else
    let weighted := config.weightLatency * latencyScore + config.weightSuccess * successScore +
      config.weightLoad * loadScore + config.weightAvailability * availabilityScore measures.lastHealth +
      config.weightCost * costScore
    clampFloat (weighted / totalWeight) 0.0 1.0

def dynamicScore (metrics : PeerMetrics) (measures : Measures) (config : DynamicScoreConfig) (now : Instant) :
    Float :=
  match metrics.circuit with
  | .opened => 0.0
  | .halfOpen => 0.1
  | .closed =>
    if now - metrics.lastSeen ≥ PeerMetricsRegistry.stalenessThreshold then 0.5
    else weightedScore metrics measures config

structure AdaptiveRoutingConfig where
  scoring : DynamicScoreConfig := {}
  circuitBreaker : CircuitBreakerConfig := .default
  bulkheadMaxPerPeer : UInt32 := 8
  strategy : RoutingStrategy := .p2c
  staticWeight : Float := 0.3
  dynamicWeight : Float := 0.7

/-- The candidates whose circuits in the metrics are not open, with their scores. -/
def scoreCandidates (config : AdaptiveRoutingConfig) (measuresOf : AgentId → Measures) (now : Instant) :
    PeerMetricsRegistry → List (AgentId × Float) → List (AgentId × Float) × PeerMetricsRegistry
  | registry, [] => ([], registry)
  | registry, candidate :: candidates =>
    let checked := registry.checkCircuit now candidate.1
    if checked.1 = .opened then scoreCandidates config measuresOf now checked.2 candidates
    else
      let metrics := checked.2.getOrCreate now candidate.1
      let score := config.staticWeight * candidate.2 +
        config.dynamicWeight * dynamicScore metrics (measuresOf candidate.1) config.scoring now
      let scored := scoreCandidates config measuresOf now (checked.2.enter now candidate.1) candidates
      ((candidate.1, score) :: scored.1, scored.2)

/-- The candidates whose circuits are not open. Looking at a circuit may move it to HalfOpen. -/
def filterCandidates (now : Instant) :
    CircuitBreakerRegistry → List (LegacyRecord × Float) → List (AgentId × Float) × CircuitBreakerRegistry
  | circuits, [] => ([], circuits)
  | circuits, candidate :: candidates =>
    let looked := circuits.state now candidate.1.agentId
    let filtered := filterCandidates now looked.2 candidates
    if looked.1 = .opened then filtered else ((candidate.1.agentId, candidate.2) :: filtered.1, filtered.2)

/-- `panicked` is a panic of the random number generator. -/
inductive SelectError where
  | messaging (text : String)
  | noViableCandidate
  | panicked

structure RoutingEngine where
  router : AdaptiveRouter
  measures : AList fun _ : AgentId => Measures
  config : AdaptiveRoutingConfig

namespace RoutingEngine

def new (config : AdaptiveRoutingConfig) : RoutingEngine :=
  ⟨.new config.circuitBreaker config.bulkheadMaxPerPeer, ∅, config⟩

variable (engine : RoutingEngine)

def measuresOf (agentId : AgentId) : Measures :=
  (engine.measures.lookup agentId).getD .new

def selectionCandidate (now : Instant) (scored : AgentId × Float) : SelectionCandidate where
  agentId := scored.1
  score := scored.2
  inFlight := (engine.router.metrics.getOrCreate now scored.1).inFlight
  latencyEwmaMs := (engine.measuresOf scored.1).latencyEwmaMs.value
  latencyInitialized := (engine.measuresOf scored.1).latencyEwmaMs.initialized
  successRate := (engine.measuresOf scored.1).successWindow.successRate

def selectScored (now : Instant) (draws : Draws) (scored : List (AgentId × Float)) : Except SelectError AgentId :=
  let candidates := scored.map (engine.selectionCandidate now)
  if engine.config.strategy.panics candidates then .error .panicked
  else
    match engine.config.strategy.select draws candidates with
    | some agentId => .ok agentId
    | none => .error .noViableCandidate

def withRouter (router : AdaptiveRouter) : RoutingEngine := { engine with router }

def recordNoCandidate : RoutingEngine :=
  engine.withRouter { engine.router with observer := engine.router.observer.recordFailure }

def select (now : Instant) (draws : Draws) (candidates : List LegacyRecord)
    (staticScores : List Float) : Except SelectError AgentId × RoutingEngine :=
  let given := candidates.length
  let weighed := staticScores.length
  if given ≠ weighed then
    (.error (.messaging s!"candidates len {given} != static_scores len {weighed}"), engine)
  else
    let filtered := filterCandidates now engine.router.circuits (candidates.zip staticScores)
    let looked := engine.withRouter { engine.router with circuits := filtered.2 }
    if filtered.1 = [] then (.error .noViableCandidate, looked.recordNoCandidate)
    else
      let scored := scoreCandidates engine.config engine.measuresOf now engine.router.metrics filtered.1
      let checked := looked.withRouter { looked.router with metrics := scored.2 }
      if scored.1 = [] then (.error .noViableCandidate, checked.recordNoCandidate)
      else (checked.selectScored now draws scored.1, checked)

def acquire (engine : RoutingEngine) (now : Instant) (agentId : AgentId) :
    Except SdkError RoutingSlot × RoutingEngine :=
  let acquired := engine.router.acquire now agentId
  (acquired.1, engine.withRouter acquired.2)

def dropSlot (engine : RoutingEngine) (slot : RoutingSlot) : RoutingEngine :=
  engine.withRouter (engine.router.dropSlot slot)

def measured (agentId : AgentId) (latencyMs : Float) (success : Bool) (router : AdaptiveRouter) : RoutingEngine :=
  { engine with
    router
    measures := engine.measures.insert agentId ((engine.measuresOf agentId).recordOutcome latencyMs success) }

def recordSuccess (engine : RoutingEngine) (now : Instant) (agentId : AgentId) (latencyMs : Float) : RoutingEngine :=
  engine.measured agentId latencyMs true (engine.router.recordSuccess now agentId)

def recordFailure (engine : RoutingEngine) (now : Instant) (agentId : AgentId) (latencyMs : Float) : RoutingEngine :=
  engine.measured agentId latencyMs false (engine.router.recordFailure now agentId)

def recordTimeout (engine : RoutingEngine) (now : Instant) (agentId : AgentId) : RoutingEngine :=
  engine.measured agentId 0.0 false (engine.router.recordTimeout now agentId)

end RoutingEngine

end Aafp.Routing
