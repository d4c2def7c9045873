import Aafp.Routing.Circuit

/-! The adaptive router. -/
namespace Aafp.Routing

open Foundation Identity

structure BulkheadRegistry where
  limits : AList fun _ : AgentId => UInt32
  maxPerPeer : UInt32

namespace BulkheadRegistry

def new (maxPerPeer : UInt32) : BulkheadRegistry := ⟨∅, maxPerPeer⟩

def inFlight (registry : BulkheadRegistry) (agentId : AgentId) : UInt32 :=
  (registry.limits.lookup agentId).getD 0

/-- Attempt to acquire a concurrency slot for a peer. The count of a new peer is entered also
if the limit is reached. -/
def tryAcquire (registry : BulkheadRegistry) (agentId : AgentId) : Bool × BulkheadRegistry :=
  let count := registry.inFlight agentId
  if count ≥ registry.maxPerPeer then (false, { registry with limits := registry.limits.insert agentId count })
  else (true, { registry with limits := registry.limits.insert agentId (count + 1) })

def release (registry : BulkheadRegistry) (agentId : AgentId) : BulkheadRegistry :=
  match registry.limits.lookup agentId with
  | none => registry
  | some count => { registry with limits := registry.limits.insert agentId (saturatingPred count) }

end BulkheadRegistry

/-- Of the metrics of a peer, those that the router keeps for its requests and outcomes. -/
structure PeerMetrics where
  consecutiveFailures : UInt32
  consecutiveSuccesses : UInt32
  inFlight : UInt32
  lastSeen : Instant
  circuit : CircuitState

def PeerMetrics.new (now : Instant) : PeerMetrics where
  consecutiveFailures := 0
  consecutiveSuccesses := 0
  inFlight := 0
  lastSeen := now
  circuit := .closed

structure PeerMetricsRegistry where
  peers : AList fun _ : AgentId => PeerMetrics
  failureThreshold : UInt32
  cooldown : Duration

namespace PeerMetricsRegistry

def new : PeerMetricsRegistry := ⟨∅, 5, Duration.fromSecs 10⟩

variable (registry : PeerMetricsRegistry)

/-- `peers.entry(agent_id).or_insert_with(..)`; the callers enter what they change. -/
def getOrCreate (now : Instant) (agentId : AgentId) : PeerMetrics :=
  (registry.peers.lookup agentId).getD (.new now)

def recordOutcome (now : Instant) (agentId : AgentId) (success : Bool) : PeerMetricsRegistry :=
  let metrics := { registry.getOrCreate now agentId with lastSeen := now }
  let metrics :=
    if success then
      if metrics.circuit = .halfOpen then
        { metrics with consecutiveFailures := 0, consecutiveSuccesses := 0, circuit := .closed }
      else { metrics with consecutiveFailures := 0, consecutiveSuccesses := metrics.consecutiveSuccesses + 1 }
    else
      let failures := metrics.consecutiveFailures + 1
      let opens := metrics.circuit = .halfOpen ∨ metrics.circuit = .closed ∧ failures ≥ registry.failureThreshold
      { metrics with
        consecutiveSuccesses := 0
        consecutiveFailures := failures
        circuit := if opens then .opened else metrics.circuit }
  { registry with peers := registry.peers.insert agentId metrics }

def inflightInc (now : Instant) (agentId : AgentId) : PeerMetricsRegistry :=
  let metrics := registry.getOrCreate now agentId
  { registry with
    peers := registry.peers.insert agentId { metrics with inFlight := saturatingSucc metrics.inFlight } }

def inflightDec (agentId : AgentId) : PeerMetricsRegistry :=
  match registry.peers.lookup agentId with
  | none => registry
  | some metrics =>
    { registry with
      peers := registry.peers.insert agentId { metrics with inFlight := saturatingPred metrics.inFlight } }

end PeerMetricsRegistry

structure RoutingStats where
  totalRequests : UInt64
  totalSuccesses : UInt64
  totalFailures : UInt64
  totalTimeouts : UInt64
  totalCircuitOpens : UInt64
  totalBulkheadRejections : UInt64

namespace RoutingStats

def new : RoutingStats := ⟨0, 0, 0, 0, 0, 0⟩

variable (stats : RoutingStats)

def recordSuccess : RoutingStats :=
  { stats with totalRequests := stats.totalRequests + 1, totalSuccesses := stats.totalSuccesses + 1 }

def recordFailure : RoutingStats :=
  { stats with totalRequests := stats.totalRequests + 1, totalFailures := stats.totalFailures + 1 }

def recordTimeout : RoutingStats :=
  { stats.recordFailure with totalTimeouts := stats.totalTimeouts + 1 }

def recordCircuitOpen : RoutingStats :=
  { stats with totalCircuitOpens := stats.totalCircuitOpens + 1 }

def recordBulkheadRejection : RoutingStats :=
  { stats with totalBulkheadRejections := stats.totalBulkheadRejections + 1 }

end RoutingStats

inductive SdkError where
  | circuitOpen (agentId : AgentId)
  | concurrencyLimit (agentId : AgentId)
deriving DecidableEq

structure RoutingSlot where
  agentId : AgentId
deriving DecidableEq

/-- The main adaptive routing engine. -/
structure AdaptiveRouter where
  metrics : PeerMetricsRegistry
  circuits : CircuitBreakerRegistry
  bulkhead : BulkheadRegistry
  observer : RoutingStats

namespace AdaptiveRouter

def new (circuitBreaker : CircuitBreakerConfig) (bulkheadMaxPerPeer : UInt32) : AdaptiveRouter where
  metrics := .new
  circuits := .new circuitBreaker
  bulkhead := .new bulkheadMaxPerPeer
  observer := .new

/-- The check of the bulkhead, for a request that has passed the circuit breaker. -/
def enterBulkhead (router : AdaptiveRouter) (now : Instant) (agentId : AgentId) :
    Except SdkError RoutingSlot × AdaptiveRouter :=
  match router.bulkhead.tryAcquire agentId with
  | (false, bulkhead) =>
    (.error (.concurrencyLimit agentId),
      { router with bulkhead, observer := router.observer.recordBulkheadRejection })
  | (true, bulkhead) =>
    (.ok ⟨agentId⟩, { router with bulkhead, metrics := router.metrics.inflightInc now agentId })

/-- Acquire a routing slot for a peer: check the circuit breaker, then the bulkhead. -/
def acquire (router : AdaptiveRouter) (now : Instant) (agentId : AgentId) :
    Except SdkError RoutingSlot × AdaptiveRouter :=
  match router.circuits.acquire now agentId with
  | ((.opened, false), circuits) | ((.halfOpen, false), circuits) =>
    (.error (.circuitOpen agentId), { router with circuits, observer := router.observer.recordCircuitOpen })
  | (_, circuits) => { router with circuits }.enterBulkhead now agentId

/-- `RoutingSlot::drop`: the metrics first, then the guard of the bulkhead. -/
def dropSlot (router : AdaptiveRouter) (slot : RoutingSlot) : AdaptiveRouter :=
  { router with
    metrics := router.metrics.inflightDec slot.agentId
    bulkhead := router.bulkhead.release slot.agentId }

def recordSuccess (router : AdaptiveRouter) (now : Instant) (agentId : AgentId) : AdaptiveRouter :=
  { router with
    metrics := router.metrics.recordOutcome now agentId true
    circuits := router.circuits.recordSuccess now agentId
    observer := router.observer.recordSuccess }

def recordFailure (router : AdaptiveRouter) (now : Instant) (agentId : AgentId) : AdaptiveRouter :=
  { router with
    metrics := router.metrics.recordOutcome now agentId false
    circuits := router.circuits.recordFailure now agentId
    observer := router.observer.recordFailure }

def recordTimeout (router : AdaptiveRouter) (now : Instant) (agentId : AgentId) : AdaptiveRouter :=
  { router with
    metrics := router.metrics.recordOutcome now agentId false
    circuits := router.circuits.recordFailure now agentId
    observer := router.observer.recordTimeout }

end AdaptiveRouter

end Aafp.Routing
