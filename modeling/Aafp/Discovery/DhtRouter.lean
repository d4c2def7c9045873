import Aafp.Discovery.CapabilityDht
import Aafp.Discovery.RoutingTable
import Aafp.Foundation.Program

/-! The router of a node. -/
namespace Aafp.Discovery

open Foundation Identity Crypto

inductive DhtTransportError where
  | peerUnreachable (peer : String)
  | remote (message : String)
  | cbor (message : String)
  | discovery (message : String)
  | identity (error : IdentityError)

inductive PeerCall where
  | lookupOnPeer (peerId : AgentId) (capability : String) (limit : Option Nat)
  | pexOnPeer (peerId : AgentId) (senderRecord : AgentRecord) (knownPeers : List AgentRecord)

/-- A peer answers with any records, or fails. -/
abbrev dhtTransport : Interface where
  Call := PeerCall
  Answer _ := Except DhtTransportError (List AgentRecord)

def alpha : Nat := 3

def replicationFactor : Nat := 5

structure DhtRouterConfig where
  k : Nat := kBucketSize
  alpha : Nat := Discovery.alpha
  replication : Nat := replicationFactor
  maxLookupIterations : Nat := 10

structure DhtRouter where
  selfId : AgentId
  ownRecord : Option AgentRecord
  localDht : CapabilityDht
  routingTable : RoutingTable
  config : DhtRouterConfig

def recordPlaceholder (selfId : AgentId) : AgentRecord where
  recordType := recordTypeV1
  agentId := selfId
  publicKey := []
  capabilities := []
  endpoints := []
  createdAt := 0
  expiresAt := 0xFFFFFFFFFFFFFFFF
  signature := []
  keyAlgorithm := Identity.keyAlgMlDsa65
  recordVersion := 1
  extensions := []

namespace DhtRouter

def withConfig (selfId : AgentId) (config : DhtRouterConfig) : DhtRouter where
  selfId
  ownRecord := none
  localDht := .new
  routingTable := .withK selfId config.k
  config

variable (prims : Primitives) (now : UInt64)

def addPeer (router : DhtRouter) (record : AgentRecord) (seen : Instant) : Bool × DhtRouter :=
  match record.verify prims now with
  | .error _ => (false, router)
  | .ok () =>
    let done := router.routingTable.addPeer record seen
    (done.1, { router with routingTable := done.2 })

def storeLocal (router : DhtRouter) (record : AgentRecord) : Bool × DhtRouter :=
  match record.verify prims now with
  | .error _ => (false, router)
  | .ok () =>
    let done := router.localDht.put record
    (done.1, { router with localDht := done.2 })

def lookupLocal (router : DhtRouter) (pass : IterationOrder AgentId Unit) (capability : String) :
    List AgentRecord :=
  router.localDht.get pass capability

def evictExpired (router : DhtRouter) (pass : RecordOrder) : Nat × DhtRouter :=
  let done := router.localDht.evictExpired pass now
  (done.1, { router with localDht := done.2 })

def removeLocalRecord (router : DhtRouter) (agentId : AgentId) : Bool × DhtRouter :=
  let done := router.localDht.removeById agentId
  (done.1, { router with localDht := done.2 })

end DhtRouter

abbrev Found := AList fun _ : AgentId => AgentRecord

def Found.insert (found : Found) (record : AgentRecord) : Found := AList.insert record.agentId record found

/-- The variables of a lookup. The new peers are those of one round. -/
structure Search where
  router : DhtRouter
  results : Found
  queried : HashSet AgentId
  newPeers : List AgentRecord

namespace Search

section Rounds

variable (prims : Primitives) (now : UInt64) (seen : Instant) (capability : String) (k : Nat)

def takeVerified (results : Found) (record : AgentRecord) : Found :=
  match record.verify prims now with
  | .ok () => results.insert record
  | .error _ => results

def learn (search : Search) (peer : AgentRecord) : Search :=
  if peer.agentId ∉ search.queried ∧ peer.agentId ≠ search.router.selfId then
    { search with
      router := (search.router.addPeer prims now peer seen).2
      newPeers := search.newPeers ++ [peer] }
  else search

/-- Whatever verifies is taken in, if it has the capability or not. -/
def hear (search : Search) : Except DhtTransportError (List AgentRecord) → Search
  | .ok records => { search with results := records.foldl (takeVerified prims now) search.results }
  | .error _ => search

def meet (search : Search) : Except DhtTransportError (List AgentRecord) → Search
  | .ok peers => peers.foldl (learn prims now seen) search
  | .error _ => search

def queryPeer (search : Search) (peer : AgentRecord) : Program dhtTransport Empty Search := do
  let search := { search with queried := search.queried.insert peer.agentId () }
  let found ← .query (.lookupOnPeer peer.agentId capability (some k)) .ok
  let search := search.hear prims now found
  let sender := search.router.ownRecord.getD (recordPlaceholder search.router.selfId)
  let peers ← .query (.pexOnPeer peer.agentId sender []) .ok
  return search.meet prims now seen peers

def queryBatch (search : Search) : List AgentRecord → Program dhtTransport Empty Search
  | [] => return search
  | peer :: batch => do
    let search ← search.queryPeer prims now seen capability k peer
    search.queryBatch batch

def closestFirst (peers : List AgentRecord) : List AgentRecord :=
  sortBy (fun a b => Distance.cmp (.fromAgentToKey prims a.agentId capability)
    (.fromAgentToKey prims b.agentId capability)) peers

/-- The rounds of the loop that are left, each with the peers to query in it. -/
def rounds (search : Search) : (iterations : Nat) → (toQuery : List AgentRecord) →
    Program dhtTransport Empty Search
  | 0, _ => return search
  | iterations + 1, toQuery =>
    if search.results.keys.length ≥ k then return search
    else if toQuery.isEmpty then return search
    else
      let batch := (toQuery.filter fun peer => peer.agentId ∉ search.queried).take search.router.config.alpha
      if batch.isEmpty then return search
      else do
        let search ← { search with newPeers := [] }.queryBatch prims now seen capability k batch
        search.rounds iterations (closestFirst prims capability search.newPeers)

end Rounds

end Search

namespace DhtRouter

/-- The iteration order of the own table is `listed`, that of the results is `pass`. -/
def findPeers (router : DhtRouter) (prims : Primitives) (now : UInt64) (seen : Instant)
    (listed : IterationOrder AgentId Unit) (pass : RecordOrder)
    (capability : String) (k : Nat) : Program dhtTransport Empty (List AgentRecord × DhtRouter) := do
  let values (results : Found) := (pass.iterate results).map Sigma.snd
  let results := (router.lookupLocal listed capability).foldl Found.insert ∅
  if results.keys.length ≥ k then return ((values results).take k, router)
  else
    let capKey := Distance.toCapabilityKey prims capability
    let initialPeers := (router.routingTable.closestPeers capKey router.config.alpha).filter
      fun peer => peer.agentId ≠ router.selfId
    if initialPeers.isEmpty then return (values results, router)
    else
      let search : Search := { router, results, queried := ∅, newPeers := [] }
      let search ← search.rounds prims now seen capability k router.config.maxLookupIterations initialPeers
      return ((values search.results).take k, search.router)

end DhtRouter

end Aafp.Discovery
