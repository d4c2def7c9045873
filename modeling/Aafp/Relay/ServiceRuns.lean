import Aafp.Relay.Service
import Aafp.Foundation.Counter
import Aafp.Foundation.Machine
import Aafp.Foundation.OwnerLists

/-! What holds in every run of a relay service. -/
namespace Aafp.Relay

open Foundation Identity Nat AList

namespace RelayV1Service

variable {config : RelayV1Config} {service : RelayV1Service} {callerId : AgentId}

structure Sound (config : RelayV1Config) (service : RelayV1Service) : Prop where
  configured : service.config = config
  mirrors : Mirrors Reservation.agentId service.agentReservations service.reservations
  reservationIds : ∀ id reservation, service.reservations.lookup id = some reservation →
    id < service.nextReservationId
  connectionIds : ∀ id connection, service.connections.lookup id = some connection →
    id < service.nextConnectionId
  reservationCount : service.reservations.entries.length ≤ config.maxReservations
  connectionCount : service.connections.entries.length ≤ config.maxConnections

theorem sound_new (config : RelayV1Config) : Sound config (new config) where
  configured := rfl
  mirrors := by simp [Mirrors, new]
  reservationIds := forall_lookup_empty
  connectionIds := forall_lookup_empty
  reservationCount := zero_le _
  connectionCount := zero_le _

structure Shrinks (before after : RelayV1Service) : Prop where
  connections : after.connections = before.connections
  nextReservationId : after.nextReservationId = before.nextReservationId
  nextConnectionId : after.nextConnectionId = before.nextConnectionId
  kept : ∀ id found, after.reservations.lookup id = some found → before.reservations.lookup id = some found

theorem Shrinks.refl (service : RelayV1Service) : Shrinks service service := ⟨rfl, rfl, rfl, fun _ _ => id⟩

theorem Shrinks.trans (first : Shrinks before middle) (second : Shrinks middle after) : Shrinks before after where
  connections := second.connections.trans first.connections
  nextReservationId := second.nextReservationId.trans first.nextReservationId
  nextConnectionId := second.nextConnectionId.trans first.nextConnectionId
  kept id found there := first.kept id found (second.kept id found there)

theorem Shrinks.fewer (shrinks : Shrinks before after) :
    after.reservations.entries.length ≤ before.reservations.entries.length :=
  (length_le_of_lookup_sub shrinks.kept).1

section

variable (sound : Sound config service)
include sound

theorem Sound.removeReservation (id : UInt64) :
    Sound config (service.removeReservation id) ∧ Shrinks service (service.removeReservation id) := by
  rw [RelayV1Service.removeReservation]
  cases found : service.reservations.lookup id with
  | none => exact ⟨sound, .refl _⟩
  | some reservation =>
    have shrinks : Shrinks service { service with
        reservations := service.reservations.erase id
        agentReservations := service.agentReservations.erase reservation.agentId } :=
      ⟨rfl, rfl, rfl, fun _ _ => lookup_of_lookup_erase⟩
    exact ⟨{ sound with
      mirrors := sound.mirrors.drop found
      reservationIds := fun other entry there => sound.reservationIds other entry (shrinks.kept other entry there)
      reservationCount := shrinks.fewer.trans sound.reservationCount }, shrinks⟩

theorem Sound.evictExpired (eviction : Eviction) :
    Sound config (service.evictExpired eviction) ∧ Shrinks service (service.evictExpired eviction) := by
  rw [RelayV1Service.evictExpired]
  generalize ((eviction.pass.iterate service.reservations).filter _).map Sigma.fst = ids
  induction ids generalizing service with
  | nil => exact ⟨sound, .refl _⟩
  | cons id ids ih =>
    obtain ⟨middle, first⟩ := sound.removeReservation id
    obtain ⟨last, second⟩ := ih middle
    exact ⟨last, first.trans second⟩

theorem Sound.removeOld (callerId : AgentId) :
    Sound config (service.removeOld callerId) ∧ Shrinks service (service.removeOld callerId) ∧
      (service.removeOld callerId).agentReservations.lookup callerId = none := by
  cases old : service.agentReservations.lookup callerId with
  | none =>
    rw [RelayV1Service.removeOld, old]
    exact ⟨sound, .refl _, old⟩
  | some oldId =>
    obtain ⟨kept, shrinks⟩ := sound.removeReservation oldId
    obtain ⟨reservation, found, rfl⟩ := (sound.mirrors callerId oldId).mp old
    have same : service.removeOld reservation.agentId = service.removeReservation oldId := by
      rw [RelayV1Service.removeOld, old, RelayV1Service.removeReservation, found]
    rw [← same] at kept shrinks
    refine ⟨kept, shrinks, ?_⟩
    rw [RelayV1Service.removeOld, old]
    exact lookup_erase ..

end

structure Moves (reservation connection : Option UInt64) (before after : RelayV1Service) : Prop where
  reservations : Counts reservation before.nextReservationId after.nextReservationId
  connections : Counts connection before.nextConnectionId after.nextConnectionId

/-- A call that leaves the reservations of the ids given out before as they are, or drops them. -/
structure Adds (reservation connection : Option UInt64) (before after : RelayV1Service) : Prop
    extends Moves reservation connection before after where
  grown : after.connections.entries.length = before.connections.entries.length + connection.toList.length
  kept : ∀ id found, id < before.nextReservationId → after.reservations.lookup id = some found →
    before.reservations.lookup id = some found

theorem Shrinks.adds (shrinks : Shrinks before after) : Adds none none before after where
  reservations := .inl ⟨rfl, shrinks.nextReservationId⟩
  connections := .inl ⟨rfl, shrinks.nextConnectionId⟩
  grown := congrArg (·.entries.length) shrinks.connections
  kept id found _ := shrinks.kept id found

theorem Shrinks.adds_trans (shrinks : Shrinks before middle) (adds : Adds reservation connection middle after) :
    Adds reservation connection before after where
  reservations := shrinks.nextReservationId ▸ adds.reservations
  connections := shrinks.nextConnectionId ▸ adds.connections
  grown := shrinks.connections ▸ adds.grown
  kept id found below there := shrinks.kept id found (adds.kept id found (shrinks.nextReservationId ▸ below) there)

def created (id : α → UInt64) : Except Interruption α → Option UInt64
  | .ok result => some (id result)
  | .error _ => none

section

variable (sound : Sound config service)
include sound

theorem Sound.addReservation (durationSecs : UInt64) (now : Instant)
    (free : service.agentReservations.lookup callerId = none)
    (room : service.reservations.entries.length < config.maxReservations) :
    let outcome := service.addReservation callerId durationSecs now
    Sound config outcome.2 ∧ Adds (created ReserveResult.reservationId outcome.1) none service outcome.2 := by
  rw [RelayV1Service.addReservation]
  split
  · exact ⟨sound, (Shrinks.refl service).adds⟩
  next small =>
  have more := toNat_add_one small
  have fresh := lookup_eq_none_of_below sound.reservationIds
  refine ⟨{ sound with
    mirrors := by
      exact sound.mirrors.put
        ⟨service.nextReservationId, callerId, now, now + Duration.fromSecs durationSecs.toNat⟩ free fresh
    reservationIds := by exact below_insert sound.reservationIds more
    reservationCount := ?_ }, ⟨.inr ⟨rfl, more⟩, .inl ⟨rfl, rfl⟩⟩, rfl, ?_⟩
  · rw [length_insert_of_notMem (lookup_eq_none.mp fresh)]
    exact room
  · intro id found below there
    rwa [lookup_insert_ne (UInt64.ne_of_lt below)] at there

theorem Sound.addConnection (target : AgentId) (now : Instant)
    (room : service.connections.entries.length < config.maxConnections) :
    let outcome := service.addConnection callerId target now
    Sound config outcome.2 ∧ Adds none (created ConnectResult.connectionId outcome.1) service outcome.2 := by
  rw [RelayV1Service.addConnection]
  split
  · exact ⟨sound, (Shrinks.refl service).adds⟩
  next small =>
  have more := toNat_add_one small
  have fresh := lookup_eq_none.mp (lookup_eq_none_of_below sound.connectionIds)
  have grown := length_insert_of_notMem fresh ⟨service.nextConnectionId, callerId, target, now, 0⟩
  exact ⟨{ sound with
    connectionIds := by exact below_insert sound.connectionIds more
    connectionCount := grown ▸ room }, ⟨.inl ⟨rfl, rfl⟩, .inr ⟨rfl, more⟩⟩, grown, fun _ _ _ => id⟩

theorem Sound.handleReserve (eviction : Eviction) (now : Instant)
    (callerId : AgentId) (params : ReserveParams) :
    let outcome := service.handleReserve eviction now callerId params
    Sound config outcome.2 ∧ Adds (created ReserveResult.reservationId outcome.1) none service outcome.2 := by
  obtain ⟨evicted, shrinks⟩ := sound.evictExpired eviction
  rw [RelayV1Service.handleReserve]
  split
  · exact ⟨sound, (Shrinks.refl service).adds⟩
  dsimp only
  split
  · exact ⟨evicted, shrinks.adds⟩
  next room =>
  obtain ⟨cleared, further, free⟩ := evicted.removeOld callerId
  rw [evicted.configured] at room
  have fewer := lt_of_le_of_lt further.fewer (not_le.mp room)
  obtain ⟨added, adds⟩ := cleared.addReservation params.durationSecs now free fewer
  exact ⟨added, (shrinks.trans further).adds_trans adds⟩

theorem Sound.handleConnect (eviction : Eviction) (now : Instant)
    (callerId : AgentId) (params : ConnectParams) :
    let outcome := service.handleConnect eviction now callerId params
    Sound config outcome.2 ∧ Adds none (created ConnectResult.connectionId outcome.1) service outcome.2 := by
  obtain ⟨evicted, shrinks⟩ := sound.evictExpired eviction
  rw [RelayV1Service.handleConnect]
  split
  · exact ⟨evicted, shrinks.adds⟩
  split
  · exact ⟨evicted, shrinks.adds⟩
  next room =>
  rw [evicted.configured] at room
  obtain ⟨added, adds⟩ := evicted.addConnection params.target now (not_le.mp room)
  exact ⟨added, shrinks.adds_trans adds⟩

end

/-- What a renewal checks: the duration, and that the caller owns the reservation. -/
def Renews (service : RelayV1Service) (callerId : AgentId) (params : RenewParams) (reservation : Reservation) : Prop :=
  params.durationSecs ≤ service.config.maxDurationSecs ∧
    service.getReservation params.reservationId = some reservation ∧ reservation.agentId = callerId

theorem handleRenew_cases (service : RelayV1Service) (now : Instant) (callerId : AgentId) (params : RenewParams) :
    (∃ error, service.handleRenew now callerId params = (.error error, service) ∧
      ∀ reservation, ¬ service.Renews callerId params reservation) ∨
    ∃ reservation, service.Renews callerId params reservation ∧ service.handleRenew now callerId params =
      (.ok ⟨params.reservationId, params.durationSecs, service.config.relayAddr⟩, { service with
        reservations := service.reservations.insert params.reservationId
          { reservation with expires := now + Duration.fromSecs params.durationSecs.toNat } }) := by
  rw [RelayV1Service.handleRenew]
  split
  next long => exact .inl ⟨_, rfl, fun _ renews => absurd renews.1 (UInt64.not_le.mpr long)⟩
  next within =>
  cases found : service.reservations.lookup params.reservationId with
  | none => exact .inl ⟨_, rfl, fun _ renews => nomatch found.symm.trans renews.2.1⟩
  | some reservation =>
    dsimp only
    split
    next foreign =>
      refine .inl ⟨_, rfl, fun other renews => foreign ?_⟩
      cases found.symm.trans renews.2.1
      exact renews.2.2
    next owned => exact .inr ⟨reservation, ⟨UInt64.not_lt.mp within, found, not_not.mp owned⟩, rfl⟩

theorem handleCancel_cases (service : RelayV1Service) (callerId : AgentId) (params : CancelParams) :
    (service.handleCancel callerId params).2 = service ∨
      ∃ reservation, service.reservations.lookup params.reservationId = some reservation ∧
        reservation.agentId = callerId ∧
        (service.handleCancel callerId params).2 = service.removeReservation params.reservationId := by
  rw [RelayV1Service.handleCancel]
  cases found : service.reservations.lookup params.reservationId with
  | none => exact .inl rfl
  | some reservation =>
    dsimp only
    split
    · exact .inl rfl
    next owned => exact .inr ⟨reservation, rfl, not_not.mp owned, rfl⟩

theorem Sound.handleRenew (sound : Sound config service) (now : Instant) (callerId : AgentId)
    (params : RenewParams) : Sound config (service.handleRenew now callerId params).2 ∧
      Moves none none service (service.handleRenew now callerId params).2 := by
  obtain ⟨_, same, _⟩ | ⟨reservation, ⟨_, found, _⟩, same⟩ := service.handleRenew_cases now callerId params
  · rw [same]
    exact ⟨sound, (Shrinks.refl service).adds.toMoves⟩
  · rw [same]
    have there : params.reservationId ∈ service.reservations := mem_iff_lookup.mpr ⟨reservation, found⟩
    refine ⟨{ sound with
      mirrors := by exact sound.mirrors.update found rfl
      reservationIds := ?_
      reservationCount := ?_ }, .inl ⟨rfl, rfl⟩, .inl ⟨rfl, rfl⟩⟩
    · exact forall_lookup_insert sound.reservationIds (sound.reservationIds _ _ found)
    · rw [length_insert_of_mem there]
      exact sound.reservationCount

theorem Sound.handleCancel (sound : Sound config service) (callerId : AgentId) (params : CancelParams) :
    Sound config (service.handleCancel callerId params).2 ∧
      Shrinks service (service.handleCancel callerId params).2 := by
  obtain same | ⟨_, _, _, same⟩ := service.handleCancel_cases callerId params
  · rw [same]
    exact ⟨sound, .refl service⟩
  · rw [same]
    exact sound.removeReservation params.reservationId

theorem Sound.removeConnection (sound : Sound config service) (id : UInt64) :
    Sound config (service.removeConnection id) where
  configured := sound.configured
  mirrors := sound.mirrors
  reservationIds := sound.reservationIds
  connectionIds other entry there := sound.connectionIds other entry (lookup_of_lookup_erase there)
  reservationCount := sound.reservationCount
  connectionCount := (length_le_of_lookup_sub fun _ _ => lookup_of_lookup_erase).1.trans sound.connectionCount

end RelayV1Service

inductive Call where
  | reserve (eviction : Eviction) (now : Instant) (callerId : AgentId) (params : ReserveParams)
  | renew (now : Instant) (callerId : AgentId) (params : RenewParams)
  | cancel (callerId : AgentId) (params : CancelParams)
  | connect (eviction : Eviction) (now : Instant) (callerId : AgentId) (params : ConnectParams)
  | evictExpired (eviction : Eviction)
  | removeConnection (id : UInt64)

inductive Answer where
  | reserved (result : Except Interruption ReserveResult)
  | renewed (result : Except Interruption ReserveResult)
  | cancelled (result : Except Interruption Unit)
  | connected (result : Except Interruption ConnectResult)
  | done

namespace RelayV1Service

def machine : Machine Call Answer RelayV1Service where
  step service call := match call with
    | .reserve eviction now callerId params =>
      (service.handleReserve eviction now callerId params).map .reserved id
    | .renew now callerId params => (service.handleRenew now callerId params).map .renewed id
    | .cancel callerId params => (service.handleCancel callerId params).map .cancelled id
    | .connect eviction now callerId params =>
      (service.handleConnect eviction now callerId params).map .connected id
    | .evictExpired eviction => (.done, service.evictExpired eviction)
    | .removeConnection id => (.done, service.removeConnection id)

end RelayV1Service

def Answer.newReservation : Answer → Option UInt64
  | .reserved result => RelayV1Service.created ReserveResult.reservationId result
  | _ => none

def Answer.newConnection : Answer → Option UInt64
  | .connected result => RelayV1Service.created ConnectResult.connectionId result
  | _ => none

namespace RelayV1Service

variable {config : RelayV1Config} {service : RelayV1Service}

theorem Sound.step (sound : Sound config service) (call : Call) : Sound config (machine.step service call).2 ∧
      Moves (machine.step service call).1.newReservation (machine.step service call).1.newConnection
        service (machine.step service call).2 := by
  cases call with
  | reserve eviction now callerId params =>
    exact (sound.handleReserve eviction now callerId params).imp_right Adds.toMoves
  | renew now callerId params => exact sound.handleRenew now callerId params
  | cancel callerId params => exact (sound.handleCancel callerId params).imp_right (·.adds.toMoves)
  | connect eviction now callerId params =>
    exact (sound.handleConnect eviction now callerId params).imp_right Adds.toMoves
  | evictExpired eviction => exact (sound.evictExpired eviction).imp_right (·.adds.toMoves)
  | removeConnection id => exact ⟨sound.removeConnection id, .inl ⟨rfl, rfl⟩, .inl ⟨rfl, rfl⟩⟩

/-- The service is sound, and the ids it gave out are distinct and below its counters. -/
structure Recorded (config : RelayV1Config) (past : List (Call × Answer)) (service : RelayV1Service) : Prop where
  sound : Sound config service
  reservations : Issued (past.filterMap fun entry => entry.2.newReservation) service.nextReservationId
  connections : Issued (past.filterMap fun entry => entry.2.newConnection) service.nextConnectionId

theorem recorded_run (config : RelayV1Config) (calls : List Call) :
    Recorded config (machine.log (new config) calls) (machine.after (new config) calls) := by
  apply machine.invariant
  · exact ⟨sound_new config, ⟨List.nodup_nil, by simp⟩, ⟨List.nodup_nil, by simp⟩⟩
  · intro past service call recorded
    obtain ⟨kept, moves⟩ := recorded.sound.step call
    refine ⟨kept, ?_, ?_⟩
    · rw [filterMap_concat]
      exact recorded.reservations.step moves.reservations
    · rw [filterMap_concat]
      exact recorded.connections.step moves.connections

/-- The index leads from an agent to the id of its only reservation, no id was given out twice, the
limits are kept, and no call touches a reservation of another agent. -/
theorem bookkeeping_consistent (config : RelayV1Config) (calls : List Call) :
    let service := machine.after (new config) calls
    let log := machine.log (new config) calls
    (∀ agentId id, service.agentReservations.lookup agentId = some id ↔
      ∃ reservation, service.getReservation id = some reservation ∧ reservation.agentId = agentId) ∧
    (∀ id other reservation also, service.getReservation id = some reservation →
      service.getReservation other = some also → also.agentId = reservation.agentId → other = id) ∧
    (log.filterMap fun entry => entry.2.newReservation).Nodup ∧
    (log.filterMap fun entry => entry.2.newConnection).Nodup ∧
    service.reservationCount ≤ config.maxReservations ∧ service.connectionCount ≤ config.maxConnections ∧
    (∀ now callerId params id,
      (service.handleRenew now callerId params).2.getReservation id ≠ service.getReservation id →
        ∃ reservation, service.getReservation id = some reservation ∧ reservation.agentId = callerId) ∧
    ∀ callerId params id,
      (service.handleCancel callerId params).2.getReservation id ≠ service.getReservation id →
        ∃ reservation, service.getReservation id = some reservation ∧ reservation.agentId = callerId := by
  intro service log
  have recorded : Recorded config log service := recorded_run config calls
  have sound := recorded.sound
  refine ⟨sound.mirrors, fun id other reservation also found there same => sound.mirrors.unique found there same,
    recorded.reservations.nodup, recorded.connections.nodup, sound.reservationCount, sound.connectionCount, ?_, ?_⟩
  · intro now callerId params id changed
    obtain ⟨_, same, _⟩ | ⟨reservation, ⟨_, found, owned⟩, same⟩ := service.handleRenew_cases now callerId params
    · exact absurd (congrArg (getReservation ·.2 id) same) changed
    · by_cases here : id = params.reservationId
      · exact ⟨reservation, here ▸ found, owned⟩
      · rw [same] at changed
        exact absurd (lookup_insert_ne here) changed
  · intro callerId params id changed
    obtain same | ⟨reservation, found, owned, same⟩ := service.handleCancel_cases callerId params
    · exact absurd (congrArg (getReservation · id) same) changed
    · by_cases here : id = params.reservationId
      · exact ⟨reservation, here ▸ found, owned⟩
      · rw [same, removeReservation, found] at changed
        exact absurd (lookup_erase_ne here) changed

end RelayV1Service

end Aafp.Relay
