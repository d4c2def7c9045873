import Aafp.Foundation.Machine
import Aafp.Messaging.Rpc
import Aafp.Relay.Service

/-! The relay server (RFC 0010 §4). -/
namespace Aafp.Relay

open Foundation Cbor Identity Messaging

def dataStreamMagic : UInt8 := 0xFF

structure StreamId (Conn : Type) where
  conn : Conn
  number : UInt64
deriving DecidableEq

/-- The relay has opened a bi-stream to the target and is waiting for the caller to open a
data stream. -/
structure PendingConnection (Conn : Type) where
  target : StreamId Conn

inductive RpcOutcome where
  | reserve (result : ReserveResult)
  | connect (result : ConnectResult)

def RpcOutcome.toCbor : RpcOutcome → Value
  | .reserve result => result.toCbor
  | .connect result => result.toCbor

/-- Where the task of a stream stands. All but the last are of control streams. -/
inductive Task (Conn : Type) where
  /-- A reservation was made; the connection of its agent is to be noted. -/
  | registering (requestId : UInt64) (callerId : AgentId) (result : ReserveResult)
  /-- A relayed connection has its id; the connection to its target is to be found. -/
  | finding (requestId connectionId : UInt64) (target : AgentId)
  | opening (requestId connectionId : UInt64) (target : Conn)
  /-- The header of the incoming connection is to be sent to the target. -/
  | greeting (requestId connectionId : UInt64) (target : StreamId Conn)
  | storing (requestId connectionId : UInt64) (target : StreamId Conn)
  | answering (requestId : UInt64) (result : Except String RpcOutcome)
  | forwarding (connectionId : UInt64) (pending : PendingConnection Conn)

structure RelayV1Server (Conn : Type) where
  service : RelayV1Service
  /-- A panic while the lock of the service was held; whoever takes the lock later panics. -/
  poisoned : Bool
  agentConnections : AList fun _ : AgentId => Conn
  pendingConnections : AList fun _ : UInt64 => PendingConnection Conn
  tasks : AList fun _ : StreamId Conn => Task Conn

/-- The bytes of a stream arrive, or what its task waits for comes about. The transport answers with
a new stream, or with an error. -/
inductive StreamEvent (Conn : Type) where
  | arrives (stream : StreamId Conn) (received : List UInt8) (eviction : Eviction) (now : Instant)
  | proceeds (stream : StreamId Conn) (outcome : Except String UInt64)

inductive Observed (Conn : Type) where
  | nothing
  /-- A connect request has been given an id. -/
  | admitted (connectionId : UInt64)
  /-- The request of this id is answered with an error after all. -/
  | failed (connectionId : UInt64)
  | answered (result : Except String RpcOutcome) (response : RpcResponse)
  /-- A data stream was joined to the target stream of this id. -/
  | joined (connectionId : UInt64) (target : StreamId Conn)
  | finished (connectionId : UInt64)

/-- The caller is taken from the parameters (field 99), or is a default. -/
def extractCallerId (request : RpcRequest) : AgentId :=
  match intMapGet request.params 99 with
  | some (.byteString bytes) => if whole : bytes.length = 32 then ⟨bytes, whole⟩ else .filled 0
  | _ => .filled 0

/-- `send_error_response` for an error. -/
def responseTo (requestId : UInt64) : Except String RpcOutcome → RpcResponse
  | .ok outcome => .success requestId outcome.toCbor
  | .error message => .failure requestId (.new 1 message)

namespace RelayV1Server

variable {Conn : Type}

def new (service : RelayV1Service) : RelayV1Server Conn where
  service
  poisoned := false
  agentConnections := ∅
  pendingConnections := ∅
  tasks := ∅

variable [DecidableEq Conn]

variable (server : RelayV1Server Conn) (stream : StreamId Conn)

def setTask (task : Task Conn) : RelayV1Server Conn :=
  { server with tasks := server.tasks.insert stream task }

def endTask : RelayV1Server Conn :=
  { server with tasks := server.tasks.erase stream }

def handleReserve (server : RelayV1Server Conn) (stream : StreamId Conn) (request : RpcRequest)
    (eviction : Eviction) (now : Instant) : Observed Conn × RelayV1Server Conn :=
  match ReserveParams.fromCbor request.params with
  | .error error => (.nothing, server.setTask stream (.answering request.id (.error (toString error))))
  | .ok params =>
    if server.poisoned then (.nothing, server)
    else
      let callerId := extractCallerId request
      match server.service.handleReserve eviction now callerId params with
      | (.ok result, service) =>
        (.nothing, { server with service }.setTask stream (.registering request.id callerId result))
      | (.error (.refused error), service) =>
        (.nothing, { server with service }.setTask stream (.answering request.id (.error (toString error))))
      | (.error .overflow, service) => (.nothing, { server with service, poisoned := true })

def handleConnect (server : RelayV1Server Conn) (stream : StreamId Conn) (request : RpcRequest)
    (eviction : Eviction) (now : Instant) : Observed Conn × RelayV1Server Conn :=
  match ConnectParams.fromCbor request.params with
  | .error error => (.nothing, server.setTask stream (.answering request.id (.error (toString error))))
  | .ok params =>
    if server.poisoned then (.nothing, server)
    else
      match server.service.handleConnect eviction now (extractCallerId request) params with
      | (.ok result, service) =>
        (.admitted result.connectionId,
          { server with service }.setTask stream (.finding request.id result.connectionId params.target))
      | (.error (.refused error), service) =>
        (.nothing, { server with service }.setTask stream (.answering request.id (.error (toString error))))
      | (.error .overflow, service) => (.nothing, { server with service, poisoned := true })

/-- Up to and including the call of the service, with the bytes that were read until they made a
request or the stream ended. -/
def handleControlStream (buffer : List UInt8)
    (eviction : Eviction) (now : Instant) : Observed Conn × RelayV1Server Conn :=
  match RpcRequest.decode buffer with
  | .error _ => (.nothing, server)
  | .ok request =>
    if request.method = methodReserve then server.handleReserve stream request eviction now
    else if request.method = methodConnect then server.handleConnect stream request eviction now
    else
      let method := request.method
      (.nothing, server.setTask stream (.answering request.id (.error s!"unknown method: {method}")))

def handleDataStream (header : List UInt8) : Observed Conn × RelayV1Server Conn :=
  if header.length < 8 then (.nothing, server)
  else
    let connectionId := UInt64.ofNat (ofBigEndian (header.take 8))
    match server.pendingConnections.lookup connectionId with
    | none => (.nothing, server)
    | some pending =>
      (.joined connectionId pending.target,
        { server with
          pendingConnections := server.pendingConnections.erase connectionId }.setTask stream
            (.forwarding connectionId pending))

/-- The first byte of a stream says whether it is a control or a data stream. -/
def handleBiStream (received : List UInt8)
    (eviction : Eviction) (now : Instant) : Observed Conn × RelayV1Server Conn :=
  match received with
  | [] => (.nothing, server)
  | first :: rest =>
    if first = dataStreamMagic then server.handleDataStream stream rest
    else server.handleControlStream stream received eviction now

/-- The first two steps of a connect request and the storing only take a lock; the others wait for
the transport. -/
def proceed (outcome : Except String UInt64) : Task Conn → Observed Conn × RelayV1Server Conn
  | .registering requestId callerId result =>
    (.nothing,
      { server with
        agentConnections := server.agentConnections.insert callerId stream.conn }.setTask stream
          (.answering requestId (.ok (.reserve result))))
  | .finding requestId connectionId target =>
    match server.agentConnections.lookup target with
    | some conn => (.nothing, server.setTask stream (.opening requestId connectionId conn))
    | none =>
      (.failed connectionId,
        server.setTask stream (.answering requestId (.error "target has no active connection")))
  | .opening requestId connectionId target =>
    match outcome with
    | .ok number => (.nothing, server.setTask stream (.greeting requestId connectionId ⟨target, number⟩))
    | .error error =>
      (.failed connectionId,
        server.setTask stream (.answering requestId (.error s!"failed to open target stream: {error}")))
  | .greeting requestId connectionId target =>
    match outcome with
    | .ok _ => (.nothing, server.setTask stream (.storing requestId connectionId target))
    | .error _ =>
      (.failed connectionId, server.setTask stream (.answering requestId (.error "failed to send target header")))
  | .storing requestId connectionId target =>
    (.nothing,
      { server with
        pendingConnections := server.pendingConnections.insert connectionId ⟨target⟩ }.setTask stream
          (.answering requestId (.ok (.connect ⟨connectionId⟩))))
  | .answering requestId result => (.answered result (responseTo requestId result), server.endTask stream)
  | .forwarding connectionId _ => (.finished connectionId, server.endTask stream)

/-- A stream that has a task takes no other. -/
def machine : Machine (StreamEvent Conn) (Observed Conn) (RelayV1Server Conn) where
  step server event := match event with
    | .arrives stream received eviction now =>
      if stream ∈ server.tasks then (.nothing, server)
      else server.handleBiStream stream received eviction now
    | .proceeds stream outcome =>
      match server.tasks.lookup stream with
      | none => (.nothing, server)
      | some task => server.proceed stream outcome task

end RelayV1Server

end Aafp.Relay
