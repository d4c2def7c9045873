import Aafp.Foundation.Clock
import Aafp.Foundation.XorMetric
import Aafp.Identity.AgentRecord

/-! The Kademlia routing table. -/
namespace Aafp.Discovery

open Foundation Identity Crypto

def kBucketSize : Nat := 20

def idBits : Nat := 256

abbrev Distance := Bytes32

namespace Distance

def between (a b : AgentId) : Distance := ⟨xorBytes a.1 b.1, by simp [a.2, b.2]⟩

def toCapabilityKey (prims : Primitives) (capability : String) : Bytes32 :=
  prims.sha256 capability.toUTF8.data.toList

def fromAgentToKey (prims : Primitives) (agentId : AgentId) (capability : String) : Distance :=
  between agentId (toCapabilityKey prims capability)

/-- The place of the highest set bit, none if the distance is zero. -/
def bucketIndex (distance : Distance) : Option Nat := firstSetBit distance.1

theorem bucketIndex_lt {distance : Distance} (found : distance.bucketIndex = some index) : index < idBits := by
  have top := firstSetBit_eq_some.mp found
  rw [distance.2] at top
  exact top.1

def cmp (left right : Distance) : Ordering := compare left.1 right.1

end Distance

structure PeerEntry where
  record : AgentRecord
  lastSeen : Instant
deriving DecidableEq

namespace PeerEntry

def agentId (entry : PeerEntry) : AgentId := entry.record.agentId

def touch (entry : PeerEntry) (now : Instant) : PeerEntry := { entry with lastSeen := now }

end PeerEntry

structure KBucket where
  maxSize : Nat
  entries : List PeerEntry

namespace KBucket

def new (maxSize : Nat) : KBucket := ⟨maxSize, []⟩

variable (bucket : KBucket)

def len : Nat := bucket.entries.length

def isFull : Bool := bucket.entries.length ≥ bucket.maxSize

variable (agentId : AgentId)

def position : Option Nat :=
  bucket.entries.findIdx? fun entry => entry.agentId = agentId

/-- What is written through the reference of `get_mut`; nothing if the peer is not there. -/
def getMut (write : PeerEntry → PeerEntry) : Option KBucket :=
  (bucket.position agentId).map fun position =>
    { bucket with entries := bucket.entries.modify position write }

/-- A full bucket takes no new peer, but updates one that it has. -/
def insert (entry : PeerEntry) (now : Instant) : Bool × KBucket :=
  match bucket.getMut entry.agentId fun existing => { existing with record := entry.record }.touch now with
  | some updated => (true, updated)
  | none =>
    if bucket.isFull then (false, bucket)
    else (true, { bucket with entries := bucket.entries ++ [entry] })

def remove : Option PeerEntry × KBucket :=
  match bucket.position agentId with
  | some position => (bucket.entries[position]?, { bucket with entries := bucket.entries.eraseIdx position })
  | none => (none, bucket)

def touchPeer (now : Instant) : Bool × KBucket :=
  match bucket.getMut agentId fun entry => entry.touch now with
  | some touched => (true, touched)
  | none => (false, bucket)

end KBucket

/-- Kademlia-style routing table with 256 k-buckets. -/
structure RoutingTable where
  selfId : AgentId
  buckets : Fin idBits → KBucket
  k : Nat

namespace RoutingTable

def withK (selfId : AgentId) (k : Nat) : RoutingTable := ⟨selfId, fun _ => .new k, k⟩

def bucketIndex (table : RoutingTable) (peerId : AgentId) : Option (Fin idBits) :=
  match found : (Distance.between table.selfId peerId).bucketIndex with
  | some index => some ⟨index, Distance.bucketIndex_lt found⟩
  | none => none

def withBucket (table : RoutingTable) (index : Fin idBits) (change : KBucket → α × KBucket) : α × RoutingTable :=
  let done := change (table.buckets index)
  (done.1, { table with buckets := Function.update table.buckets index done.2 })

variable (table : RoutingTable)

/-- Add or update a peer in the routing table. -/
def addPeer (record : AgentRecord) (now : Instant) : Bool × RoutingTable :=
  if record.agentId = table.selfId then (false, table)
  else match table.bucketIndex record.agentId with
    | some index => table.withBucket index fun bucket => bucket.insert ⟨record, now⟩ now
    | none => (false, table)

def removePeer (agentId : AgentId) : Option PeerEntry × RoutingTable :=
  match table.bucketIndex agentId with
  | some index => table.withBucket index fun bucket => bucket.remove agentId
  | none => (none, table)

def touchPeer (table : RoutingTable) (agentId : AgentId) (now : Instant) : Bool × RoutingTable :=
  match table.bucketIndex agentId with
  | some index => table.withBucket index fun bucket => bucket.touchPeer agentId now
  | none => (false, table)

def entries (table : RoutingTable) : List PeerEntry :=
  (List.finRange idBits).flatMap fun index => (table.buckets index).entries

def allPeers : List AgentRecord := table.entries.map PeerEntry.record

def peerCount : Nat :=
  ((List.finRange idBits).map fun index => (table.buckets index).len).sum

def closestPeers (target : Bytes32) (k : Nat) : List AgentRecord :=
  let all := table.entries.map fun entry => (Distance.between entry.record.agentId target, entry.record)
  ((sortBy (fun left right => Distance.cmp left.1 right.1) all).take k).map Prod.snd

end RoutingTable

end Aafp.Discovery
