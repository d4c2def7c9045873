import Aafp.Foundation.Clock
import Aafp.Foundation.HashMap
import Aafp.Identity.AgentId

/-! Networked pubsub (RFC 0009). -/
namespace Aafp.Messaging

open Foundation Cbor Identity

abbrev Topic := String

def seenCacheTtl : Duration := Duration.fromSecs 60

def maxSeenCache : Nat := 10000

def defaultBufferSize : Nat := 256

structure TopicMessage where
  topic : Topic
  sender : AgentId
  data : List UInt8
deriving DecidableEq

inductive PubSubError where
  | topicNotFound
  | broadcast (text : String)
  | cbor (error : CborError)
  | expired
  | alreadySeen

structure PublishParams where
  topic : Topic
  data : List UInt8
  ttl : UInt64

structure SeenReading where
  now : Instant
  pass : IterationOrder (List UInt8) Instant

structure SeenCache where
  entries : AList fun _ : List UInt8 => Instant

namespace SeenCache

def new : SeenCache := ⟨∅⟩

def evict (cache : SeenCache) (reading : SeenReading) : AList fun _ : List UInt8 => Instant :=
  let live := retain (fun time => reading.now - time < seenCacheTtl) cache.entries
  if live.entries.length ≥ maxSeenCache then
    let sorted := sortBy (fun left right => compare left.2 right.2) (reading.pass.iterate live)
    eraseAll live ((sorted.take (maxSeenCache / 10)).map Sigma.fst)
  else live

/-- Check if a message ID has been seen. -/
def checkAndMark (cache : SeenCache) (reading : SeenReading) (msgId : List UInt8) : Bool × SeenCache :=
  let entries := cache.evict reading
  ((entries.lookup msgId).isNone, ⟨entries.insert msgId reading.now⟩)

end SeenCache

/-- The operations of `tokio::sync::broadcast` on one channel. Sending to a channel
without receivers fails. -/
structure Broadcast (Channel : Type) where
  channel : (bufferSize : Nat) → Channel
  subscribe : Channel → Channel
  send : Channel → TopicMessage → Except String Channel

/-- The local channels by topic, and the seen-cache. Remote subscriptions only
concern forwarding. -/
structure NetworkedPubSub (Channel : Type) where
  localChannels : AList fun _ : Topic => Channel
  bufferSize : Nat
  seenCache : SeenCache

namespace NetworkedPubSub

def withBufferSize (bufferSize : Nat) : NetworkedPubSub Channel :=
  { localChannels := ∅, bufferSize, seenCache := .new }

def new : NetworkedPubSub Channel := withBufferSize defaultBufferSize

def subscribe (broadcast : Broadcast Channel) (pubsub : NetworkedPubSub Channel) (topic : Topic) :
    NetworkedPubSub Channel :=
  let sender := (pubsub.localChannels.lookup topic).getD (broadcast.channel pubsub.bufferSize)
  { pubsub with localChannels := pubsub.localChannels.insert topic (broadcast.subscribe sender) }

def unsubscribe (pubsub : NetworkedPubSub Channel) (topic : Topic) : NetworkedPubSub Channel :=
  { pubsub with localChannels := pubsub.localChannels.erase topic }

def publishLocal (broadcast : Broadcast Channel) (pubsub : NetworkedPubSub Channel) (topic : Topic)
    (sender : AgentId) (data : List UInt8) : Except PubSubError Unit × NetworkedPubSub Channel :=
  match pubsub.localChannels.lookup topic with
  | none => (.error .topicNotFound, pubsub)
  | some channel =>
    match broadcast.send channel { topic, sender, data } with
    | .error text => (.error (.broadcast text), pubsub)
    | .ok channel =>
      (.ok (), { pubsub with localChannels := pubsub.localChannels.insert topic channel })

def computeMsgId (params : PublishParams) (sender : AgentId) : List UInt8 :=
  asBytes params.topic ++ params.data ++ sender.1

/-- Drop a message that was seen, deliver another one to the local subscribers, and
tell whether it should be forwarded. -/
def handleRemoteMessage (broadcast : Broadcast Channel) (pubsub : NetworkedPubSub Channel)
    (params : PublishParams) (sender : AgentId) (reading : SeenReading) :
    Except PubSubError Bool × NetworkedPubSub Channel :=
  let msgId := computeMsgId params sender
  let (isNew, cache) := pubsub.seenCache.checkAndMark reading msgId
  let pubsub := { pubsub with seenCache := cache }
  if ¬isNew then (.error .alreadySeen, pubsub)
  else
    -- a failed delivery is ignored
    let (_, pubsub) := pubsub.publishLocal broadcast params.topic sender params.data
    (.ok (params.ttl > 0), pubsub)

end NetworkedPubSub

end Aafp.Messaging
