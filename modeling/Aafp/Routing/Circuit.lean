import Aafp.Foundation.Clock
import Aafp.Foundation.Counter
import Aafp.Identity.AgentId

/-! The circuit breakers of the routing plane, one for each peer. -/
namespace Aafp.Routing

open Foundation Identity

inductive CircuitState where
  | closed
  | opened
  | halfOpen
deriving DecidableEq

structure CircuitBreakerConfig where
  failureThreshold : UInt32
  cooldown : Duration
  halfOpenMaxProbes : UInt32

def CircuitBreakerConfig.default : CircuitBreakerConfig where
  failureThreshold := 5
  cooldown := Duration.fromSecs 10
  halfOpenMaxProbes := 1

structure CircuitEntry where
  state : CircuitState
  consecutiveFailures : UInt32
  openedAt : Instant
  halfOpenProbes : UInt32

namespace CircuitEntry

def default (now : Instant) : CircuitEntry where
  state := .closed
  consecutiveFailures := 0
  openedAt := now
  halfOpenProbes := 0

def maybeHalfOpen (entry : CircuitEntry) (config : CircuitBreakerConfig) (now : Instant) : CircuitEntry :=
  if entry.state = .opened ∧ now - entry.openedAt ≥ config.cooldown then
    { entry with state := .halfOpen, halfOpenProbes := 0 }
  else entry

def acquire (entry : CircuitEntry) (config : CircuitBreakerConfig) (now : Instant) :
    (CircuitState × Bool) × CircuitEntry :=
  let entry := entry.maybeHalfOpen config now
  match entry.state with
  | .closed => ((.closed, true), entry)
  | .opened => ((.opened, false), entry)
  | .halfOpen =>
    if entry.halfOpenProbes < config.halfOpenMaxProbes then
      ((.halfOpen, true), { entry with halfOpenProbes := entry.halfOpenProbes + 1 })
    else ((.halfOpen, false), entry)

def recordSuccess (entry : CircuitEntry) : CircuitEntry :=
  let entry := { entry with consecutiveFailures := 0 }
  if entry.state = .halfOpen then { entry with state := .closed, halfOpenProbes := 0 } else entry

def recordFailure (entry : CircuitEntry) (config : CircuitBreakerConfig) (now : Instant) : CircuitEntry :=
  let entry := { entry with consecutiveFailures := saturatingSucc entry.consecutiveFailures }
  match entry.state with
  | .halfOpen => { entry with state := .opened, openedAt := now, halfOpenProbes := 0 }
  | .closed =>
    if entry.consecutiveFailures ≥ config.failureThreshold then
      { entry with state := .opened, openedAt := now }
    else entry
  | .opened => entry

end CircuitEntry

structure CircuitBreakerRegistry where
  circuits : AList fun _ : AgentId => CircuitEntry
  config : CircuitBreakerConfig

namespace CircuitBreakerRegistry

def new (config : CircuitBreakerConfig) : CircuitBreakerRegistry := ⟨∅, config⟩

/-- `circuits.entry(agent_id).or_default()`. -/
def entry (registry : CircuitBreakerRegistry) (now : Instant) (agentId : AgentId) : CircuitEntry :=
  (registry.circuits.lookup agentId).getD (.default now)

def setEntry (registry : CircuitBreakerRegistry) (agentId : AgentId) (entry : CircuitEntry) :
    CircuitBreakerRegistry :=
  { registry with circuits := registry.circuits.insert agentId entry }

/-- Check the current circuit state for a peer, transitioning Open → HalfOpen if the cooldown has
elapsed. -/
def acquire (registry : CircuitBreakerRegistry) (now : Instant) (agentId : AgentId) :
    (CircuitState × Bool) × CircuitBreakerRegistry :=
  let (answer, entry) := (registry.entry now agentId).acquire registry.config now
  (answer, registry.setEntry agentId entry)

def recordSuccess (registry : CircuitBreakerRegistry) (now : Instant) (agentId : AgentId) :
    CircuitBreakerRegistry :=
  registry.setEntry agentId (registry.entry now agentId).recordSuccess

def recordFailure (registry : CircuitBreakerRegistry) (now : Instant) (agentId : AgentId) :
    CircuitBreakerRegistry :=
  registry.setEntry agentId ((registry.entry now agentId).recordFailure registry.config now)

def state (registry : CircuitBreakerRegistry) (now : Instant) (agentId : AgentId) :
    CircuitState × CircuitBreakerRegistry :=
  let entry := (registry.entry now agentId).maybeHalfOpen registry.config now
  (entry.state, registry.setEntry agentId entry)

/-- Reset the circuit for a peer back to Closed. -/
def reset (registry : CircuitBreakerRegistry) (now : Instant) (agentId : AgentId) : CircuitBreakerRegistry :=
  registry.setEntry agentId (.default now)

end CircuitBreakerRegistry

end Aafp.Routing
