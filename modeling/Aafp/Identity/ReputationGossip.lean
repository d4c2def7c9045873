import Aafp.Foundation.Grouping
import Aafp.Foundation.Saturating
import Aafp.Identity.AgentId

/-! Gossip of reputation scores. -/
namespace Aafp.Identity

open Foundation Cbor Crypto

def reputationDomainSeparator : List UInt8 := asBytes "aafp-v1-reputation-update"

structure ReputationScore where
  overall : UInt8
  successScore : UInt8
  latencyScore : UInt8
  costScore : UInt8
  availabilityScore : UInt8
  attestationScore : UInt8
  confidence : Float

def confidenceToU64 (c : Float) : UInt64 :=
  if !c.isFinite || c ≤ 0.0 then 0
  else if c ≥ 1.0 then 1000000
  else (c * 1000000.0).round.toUInt64

def ReputationScore.toCbor (score : ReputationScore) : Value :=
  .intMap [ (1, .unsigned score.overall.toUInt64), (2, .unsigned score.successScore.toUInt64),
    (3, .unsigned score.latencyScore.toUInt64), (4, .unsigned score.costScore.toUInt64),
    (5, .unsigned score.availabilityScore.toUInt64), (6, .unsigned score.attestationScore.toUInt64),
    (7, .unsigned (confidenceToU64 score.confidence))]

/-- A single reputation update to be gossiped. -/
structure ReputationUpdate where
  agentId : AgentId
  score : ReputationScore
  timestamp : UInt64
  source : AgentId
  signature : List UInt8

/-- The order in which the scores of a tally are visited, each with the updates that have it. -/
abbrev TallyOrder := IterationOrder UInt8 (List ReputationUpdate)

namespace ReputationUpdate

def toCborWithoutSig (update : ReputationUpdate) : Value :=
  .intMap [ (1, .byteString update.agentId.1), (2, update.score.toCbor), (3, .unsigned update.timestamp),
    (4, .byteString update.source.1)]

def signingInput (update : ReputationUpdate) : List UInt8 :=
  reputationDomainSeparator ++ encodeValue update.toCborWithoutSig

def verifySignature (prims : Primitives) (update : ReputationUpdate) (publicKey : List UInt8) :
    Except IdentityError Unit := do
  ensure (update.source = deriveAgentId prims publicKey) .invalidAgentId
  ensure (update.signature.length = mlDsa65SignatureLen) .invalidSignatureLength
  ensure (prims.verify publicKey update.signingInput update.signature) .signatureVerificationFailed

end ReputationUpdate

structure GossipMessage where
  updates : List ReputationUpdate
  sender : AgentId
  timestamp : UInt64
  ttl : UInt64

def GossipMessage.isExpired (message : GossipMessage) (now : UInt64) : Bool :=
  saturatingSub now message.timestamp > message.ttl

inductive TrustLevel where
  | trusted
  | neutral
  | untrusted

structure PeerInfo where
  peerId : AgentId
  lastSeen : UInt64
  reputationScore : UInt8
  trustLevel : TrustLevel

structure LocalEntry where
  update : ReputationUpdate
  alternatives : List ReputationUpdate

abbrev LocalState := AList fun _ : AgentId => LocalEntry

def majorityBest (total : Nat) (group : List ReputationUpdate) : Option ReputationUpdate :=
  if group.length * 2 > total then maxBy (compareOn ReputationUpdate.timestamp) group else none

def laterWinner (winner : Option ReputationUpdate) (best : ReputationUpdate) : Option ReputationUpdate :=
  match winner with
  | none => some best
  | some prev => if best.timestamp > prev.timestamp then some best else some prev

def majorityStep (total : Nat) (winner : Option ReputationUpdate)
    (entry : Sigma fun _ : UInt8 => List ReputationUpdate) : Option ReputationUpdate :=
  match majorityBest total entry.2 with
  | some best => laterWinner winner best
  | none => winner

def tally (all : List ReputationUpdate) : AList fun _ : UInt8 => List ReputationUpdate :=
  groupBy (fun update => update.score.overall) all

/-- The groups of updates with the same overall score are visited in the order of a pass over the tally. -/
def majorityWinner (pass : TallyOrder) (all : List ReputationUpdate) :
    Option ReputationUpdate :=
  (pass.iterate (tally all)).foldl (majorityStep all.length) none

/-- Without a majority the latest update wins, or the highest score among the latest. -/
def conflictResolution (pass : TallyOrder) (current : ReputationUpdate)
    (alternatives : List ReputationUpdate) : ReputationUpdate :=
  match majorityWinner pass (current :: alternatives) with
  | some winner => winner
  | none =>
    (maxBy (compareLex (compareOn ReputationUpdate.timestamp) (compareOn fun update => update.score.overall.toUInt64))
      (current :: alternatives)).getD current

def LocalEntry.merge (pass : TallyOrder) (entry : LocalEntry)
    (incoming : ReputationUpdate) : LocalEntry × Bool :=
  if entry.update.source = incoming.source then
    if incoming.timestamp > entry.update.timestamp then ({ entry with update := incoming }, false)
    else (entry, false)
  else
    let alternatives := entry.alternatives ++ [incoming]
    let resolved := conflictResolution pass entry.update alternatives
    if resolved.source ≠ entry.update.source ∨ resolved.timestamp ≠ entry.update.timestamp then
      (⟨resolved, alternatives⟩, true)
    else (⟨entry.update, alternatives⟩, false)

namespace LocalState

def merge (pass : TallyOrder) (state : LocalState) (incoming : ReputationUpdate) :
    LocalState × Bool :=
  match state.lookup incoming.agentId with
  | none => (state.insert incoming.agentId ⟨incoming, []⟩, false)
  | some entry =>
    let merged := entry.merge pass incoming
    (state.insert incoming.agentId merged.1, merged.2)

def allUpdatesFor (state : LocalState) (agentId : AgentId) : List ReputationUpdate :=
  match state.lookup agentId with
  | none => []
  | some entry => entry.update :: entry.alternatives

end LocalState

structure PropagationStats where
  messagesReceived : UInt64
  conflictsResolved : UInt64

structure PropagationConfig where
  freshnessWindowMs : UInt64 := 60000

structure ReputationPropagator where
  config : PropagationConfig
  peers : AList fun _ : AgentId => PeerInfo
  localState : LocalState
  stats : PropagationStats

namespace ReputationPropagator

def new (config : PropagationConfig) : ReputationPropagator := ⟨config, ∅, ∅, ⟨0, 0⟩⟩

variable (propagator : ReputationPropagator)

def addPeer (peerId : AgentId) (lastSeen : UInt64) (trustLevel : TrustLevel) : ReputationPropagator :=
  let entry := (propagator.peers.lookup peerId).getD ⟨peerId, lastSeen, 0, trustLevel⟩
  { propagator with peers := propagator.peers.insert peerId { entry with lastSeen, trustLevel } }

def validateUpdate (prims : Primitives) (config : PropagationConfig) (update : ReputationUpdate)
    (publicKey : List UInt8) (nowMs : UInt64) : Except IdentityError Unit := do
  update.verifySignature prims publicKey
  let age := saturatingSub nowMs update.timestamp
  let window := config.freshnessWindowMs
  ensure (¬ (nowMs > update.timestamp ∧ age > window))
    (.invalidField "timestamp" s!"update is stale: age={age}ms > window={window}ms")

def mergeUpdate (pass : TallyOrder) (propagator : ReputationPropagator)
    (incoming : ReputationUpdate) : ReputationPropagator :=
  let merged := propagator.localState.merge pass incoming
  let stats := propagator.stats
  { propagator with
    localState := merged.1
    stats := if merged.2 then { stats with conflictsResolved := stats.conflictsResolved + 1 } else stats }

def mergeUpdates (pass : TallyOrder) (propagator : ReputationPropagator)
    (updates : List ReputationUpdate) : ReputationPropagator :=
  updates.foldl (mergeUpdate pass) propagator

def countReceived : ReputationPropagator :=
  { propagator with
    stats := { propagator.stats with messagesReceived := propagator.stats.messagesReceived + 1 } }

def receiveUpdate (prims : Primitives) (pass : TallyOrder)
    (propagator : ReputationPropagator) (update : ReputationUpdate) (publicKey : List UInt8) (nowMs : UInt64) :
    Except IdentityError ReputationPropagator := do
  validateUpdate prims propagator.config update publicKey nowMs
  .ok (propagator.countReceived.mergeUpdates pass [update])

/-- The updates of a message that are not refused. An update of a source without a known key is not
verified. -/
def acceptedUpdates (prims : Primitives) (config : PropagationConfig) (updates : List ReputationUpdate)
    (publicKeys : AList fun _ : AgentId => List UInt8) (nowMs : UInt64) : List ReputationUpdate :=
  updates.filter fun update =>
    match publicKeys.lookup update.source with
    | some publicKey => (validateUpdate prims config update publicKey nowMs).isOk
    | none => true

/-- The sender, if it is a known peer, was seen now. -/
def seen (sender : AgentId) (nowMs : UInt64) : ReputationPropagator :=
  match propagator.peers.lookup sender with
  | some peer => { propagator with peers := propagator.peers.insert sender { peer with lastSeen := nowMs } }
  | none => propagator

def receiveMessage (prims : Primitives) (pass : TallyOrder)
    (propagator : ReputationPropagator) (message : GossipMessage) (publicKeys : AList fun _ : AgentId => List UInt8)
    (nowMs : UInt64) : Nat × ReputationPropagator :=
  if message.isExpired nowMs then (0, propagator)
  else
    let toMerge := acceptedUpdates prims propagator.config message.updates publicKeys nowMs
    (toMerge.length, (propagator.countReceived.seen message.sender nowMs).mergeUpdates pass toMerge)

def localScore (agentId : AgentId) : Option ReputationUpdate :=
  (propagator.localState.lookup agentId).map LocalEntry.update

def allUpdatesFor (propagator : ReputationPropagator) (agentId : AgentId) : List ReputationUpdate :=
  propagator.localState.allUpdatesFor agentId

end ReputationPropagator

end Aafp.Identity
