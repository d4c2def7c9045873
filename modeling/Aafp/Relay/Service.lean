import Aafp.Foundation.Clock
import Aafp.Foundation.HashMap
import Aafp.Identity.AgentId

/-! The relay service (RFC 0010). -/
namespace Aafp.Relay

open Foundation Cbor Identity

def methodReserve : String := "aafp.relay.reserve"

def methodConnect : String := "aafp.relay.connect"

def defaultMaxReservations : Nat := 100

def defaultMaxDurationSecs : UInt64 := 3600

def defaultMaxConnections : Nat := 50

inductive RelayV1Error where
  | atCapacity
  | reservationNotFound
  | reservationExpired
  | noReservation
  | durationExceeded
  | notAuthorized
  | cbor (error : CborError)
deriving DecidableEq

instance : ToString RelayV1Error where
  toString
    | .atCapacity => "relay at capacity"
    | .reservationNotFound => "reservation not found"
    | .reservationExpired => "reservation expired"
    | .noReservation => "target has no reservation"
    | .durationExceeded => "duration exceeds maximum"
    | .notAuthorized => "not authorized (caller does not own reservation)"
    | .cbor error => s!"CBOR error: {error}"

def cborErr (message : String) : RelayV1Error := .cbor (.invalid 0 message)

structure Reservation where
  id : UInt64
  agentId : AgentId
  created : Instant
  expires : Instant
deriving DecidableEq

def Reservation.isExpired (reservation : Reservation) (now : Instant) : Bool := now ≥ reservation.expires

structure RelayedConnection where
  id : UInt64
  source : AgentId
  target : AgentId
  created : Instant
  bytesForwarded : UInt64

structure ReserveParams where
  durationSecs : UInt64

def ReserveParams.fromCbor (val : Value) : Except RelayV1Error ReserveParams :=
  match intMapGet val 1 with
  | some (.unsigned n) => .ok ⟨n⟩
  | _ => .error (cborErr "missing duration_secs")

structure ReserveResult where
  reservationId : UInt64
  expiresAt : UInt64
  relayAddr : String
deriving DecidableEq

def ReserveResult.toCbor (result : ReserveResult) : Value :=
  .intMap [(1, .unsigned result.reservationId), (2, .unsigned result.expiresAt), (3, .textString result.relayAddr)]

structure RenewParams where
  reservationId : UInt64
  durationSecs : UInt64

structure CancelParams where
  reservationId : UInt64

structure ConnectParams where
  target : AgentId

def ConnectParams.fromCbor (val : Value) : Except RelayV1Error ConnectParams :=
  match intMapGet val 1 with
  | some (.byteString bytes) =>
    if whole : bytes.length = 32 then .ok ⟨⟨bytes, whole⟩⟩ else .error (cborErr "target must be 32 bytes")
  | _ => .error (cborErr "missing target")

structure ConnectResult where
  connectionId : UInt64
deriving DecidableEq

def ConnectResult.toCbor (result : ConnectResult) : Value := .intMap [(1, .unsigned result.connectionId)]

structure RelayV1Config where
  maxReservations : Nat
  maxDurationSecs : UInt64
  maxConnections : Nat
  relayAddr : String

def RelayV1Config.default : RelayV1Config where
  maxReservations := defaultMaxReservations
  maxDurationSecs := defaultMaxDurationSecs
  maxConnections := defaultMaxConnections
  relayAddr := "quic://0.0.0.0:4433"

structure RelayV1Service where
  config : RelayV1Config
  reservations : AList fun _ : UInt64 => Reservation
  agentReservations : AList fun _ : AgentId => UInt64
  connections : AList fun _ : UInt64 => RelayedConnection
  nextReservationId : UInt64
  nextConnectionId : UInt64

/-- A call that does not return a result: an error, or the panic of a counter that overflows. -/
inductive Interruption where
  | refused (error : RelayV1Error)
  | overflow

structure Eviction where
  pass : IterationOrder UInt64 Reservation
  now : Instant

namespace RelayV1Service

def new (config : RelayV1Config) : RelayV1Service where
  config
  reservations := ∅
  agentReservations := ∅
  connections := ∅
  nextReservationId := 1
  nextConnectionId := 1

variable (service : RelayV1Service)

def removeReservation (id : UInt64) : RelayV1Service :=
  match service.reservations.lookup id with
  | none => service
  | some reservation =>
    { service with
      reservations := service.reservations.erase id
      agentReservations := service.agentReservations.erase reservation.agentId }

/-- Evict expired reservations (RFC 0010 §3.4). -/
def evictExpired (eviction : Eviction) : RelayV1Service :=
  let expiredIds := ((eviction.pass.iterate service.reservations).filter fun entry =>
    entry.2.isExpired eviction.now).map Sigma.fst
  expiredIds.foldl removeReservation service

def removeOld (callerId : AgentId) : RelayV1Service :=
  match service.agentReservations.lookup callerId with
  | none => service
  | some oldId =>
    { service with
      agentReservations := service.agentReservations.erase callerId
      reservations := service.reservations.erase oldId }

def addReservation (callerId : AgentId) (durationSecs : UInt64) (now : Instant) :
    Except Interruption ReserveResult × RelayV1Service :=
  let id := service.nextReservationId
  if id.toNat + 1 = UInt64.size then (.error .overflow, service)
  else
    let reservation : Reservation :=
      { id, agentId := callerId, created := now, expires := now + Duration.fromSecs durationSecs.toNat }
    (.ok ⟨id, durationSecs, service.config.relayAddr⟩,
      { service with
        nextReservationId := id + 1
        reservations := service.reservations.insert id reservation
        agentReservations := service.agentReservations.insert callerId id })

/-- Handle a reserve request (RFC 0010 §3.1). -/
def handleReserve (eviction : Eviction) (now : Instant) (callerId : AgentId)
    (params : ReserveParams) : Except Interruption ReserveResult × RelayV1Service :=
  if params.durationSecs > service.config.maxDurationSecs then (.error (.refused .durationExceeded), service)
  else
    let evicted := service.evictExpired eviction
    if evicted.reservations.entries.length ≥ evicted.config.maxReservations then
      (.error (.refused .atCapacity), evicted)
    else (evicted.removeOld callerId).addReservation callerId params.durationSecs now

/-- Handle a renew request (RFC 0010 §3.2). -/
def handleRenew (now : Instant) (callerId : AgentId) (params : RenewParams) :
    Except Interruption ReserveResult × RelayV1Service :=
  if params.durationSecs > service.config.maxDurationSecs then (.error (.refused .durationExceeded), service)
  else
    match service.reservations.lookup params.reservationId with
    | none => (.error (.refused .reservationNotFound), service)
    | some reservation =>
      if reservation.agentId ≠ callerId then (.error (.refused .notAuthorized), service)
      else
        let extended := { reservation with expires := now + Duration.fromSecs params.durationSecs.toNat }
        (.ok ⟨params.reservationId, params.durationSecs, service.config.relayAddr⟩,
          { service with reservations := service.reservations.insert params.reservationId extended })

/-- Handle a cancel request (RFC 0010 §3.3). -/
def handleCancel (callerId : AgentId) (params : CancelParams) : Except Interruption Unit × RelayV1Service :=
  match service.reservations.lookup params.reservationId with
  | none => (.error (.refused .reservationNotFound), service)
  | some reservation =>
    if reservation.agentId ≠ callerId then (.error (.refused .notAuthorized), service)
    else (.ok (), service.removeReservation params.reservationId)

def hasReservation (agentId : AgentId) (now : Instant) : Bool :=
  match (service.agentReservations.lookup agentId).bind service.reservations.lookup with
  | none => false
  | some reservation => !reservation.isExpired now

def addConnection (callerId target : AgentId) (now : Instant) :
    Except Interruption ConnectResult × RelayV1Service :=
  let id := service.nextConnectionId
  if id.toNat + 1 = UInt64.size then (.error .overflow, service)
  else
    (.ok ⟨id⟩,
      { service with
        nextConnectionId := id + 1
        connections := service.connections.insert id
          { id, source := callerId, target, created := now, bytesForwarded := 0 } })

/-- Handle a connect request (RFC 0010 §4.1). The target must have a reservation, and one
that has not expired since the eviction. -/
def handleConnect (eviction : Eviction) (now : Instant) (callerId : AgentId)
    (params : ConnectParams) : Except Interruption ConnectResult × RelayV1Service :=
  let evicted := service.evictExpired eviction
  if !evicted.hasReservation params.target now then (.error (.refused .noReservation), evicted)
  else if evicted.connections.entries.length ≥ evicted.config.maxConnections then
    (.error (.refused .atCapacity), evicted)
  else evicted.addConnection callerId params.target now

def reservationCount : Nat := service.reservations.entries.length

def connectionCount : Nat := service.connections.entries.length

def getReservation (id : UInt64) : Option Reservation :=
  service.reservations.lookup id

def removeConnection (id : UInt64) : RelayV1Service :=
  { service with connections := service.connections.erase id }

end RelayV1Service

end Aafp.Relay
