import Aafp.Relay.Server
import Aafp.Relay.ServiceRuns

/-! What one step of the relay server does to the service and to the tasks. -/
namespace Aafp.Relay

open Foundation Identity Messaging Option AList

variable {Conn : Type}

def StreamEvent.stream : StreamEvent Conn → StreamId Conn
  | .arrives stream _ _ _ => stream
  | .proceeds stream _ => stream

namespace Observed

def admittedId : Observed Conn → Option UInt64
  | .admitted connectionId => some connectionId
  | _ => none

def failedId : Observed Conn → Option UInt64
  | .failed connectionId => some connectionId
  | _ => none

def answeredId : Observed Conn → Option UInt64
  | .answered (.ok (.connect result)) _ => some result.connectionId
  | _ => none

def finishedId : Observed Conn → Option UInt64
  | .finished connectionId => some connectionId
  | _ => none

end Observed

/-- A task of a connect request that has an id and was not answered yet. -/
def Task.slots : Task Conn → Nat
  | .finding .. | .opening .. | .greeting .. | .storing .. | .answering _ (.ok (.connect _)) => 1
  | _ => 0

variable {id : UInt64} {service : RelayV1Service}

namespace RelayV1Server

variable [DecidableEq Conn] {config : RelayV1Config} {server before after : RelayV1Server Conn}
  {stream : StreamId Conn} {task : Task Conn}

/-- A target stream of this id waits for its caller, or data is forwarded to it. -/
def Pends (server : RelayV1Server Conn) (connectionId : UInt64) : Prop :=
  connectionId ∈ server.pendingConnections ∨
    ∃ stream pending, server.tasks.lookup stream = some (.forwarding connectionId pending)

def Answering (server : RelayV1Server Conn) (connectionId : UInt64) : Prop :=
  ∃ stream requestId, server.tasks.lookup stream = some (.answering requestId (.ok (.connect ⟨connectionId⟩)))

/-- The ids of the service are those of its table and of the tasks. A target stream waits only for a
request that is answered. -/
structure Accounts (config : RelayV1Config) (before : RelayV1Server Conn)
    (outcome : Observed Conn × RelayV1Server Conn) : Prop where
  sound : outcome.2.service.Sound config
  counts : Counts outcome.1.admittedId before.service.nextConnectionId outcome.2.service.nextConnectionId
  connections : outcome.2.service.connections.entries.length =
    before.service.connections.entries.length + outcome.1.admittedId.toList.length
  slots : total Task.slots outcome.2.tasks + outcome.1.answeredId.toList.length +
    outcome.1.failedId.toList.length = total Task.slots before.tasks + outcome.1.admittedId.toList.length
  pends : ∀ id, outcome.2.Pends id ∨ outcome.1.finishedId = some id → before.Pends id ∨ outcome.2.Answering id
  answering : ∀ id, before.Answering id → outcome.2.Answering id ∨ outcome.1.answeredId = some id

theorem lookup_setTask : (server.setTask stream task).tasks.lookup other = some found ↔
      stream = other ∧ task = found ∨ stream ≠ other ∧ server.tasks.lookup other = some found :=
  lookup_insert_eq_some

theorem Answering.of_insert (answers : server.Answering id) (tasks : after.tasks = server.tasks.insert stream task)
    (other : ∀ requestId result, server.tasks.lookup stream ≠ some (.answering requestId result)) :
    after.Answering id := by
  obtain ⟨answerer, requestId, found⟩ := answers
  have different : answerer ≠ stream := by
    intro same
    exact other _ _ (same ▸ found)
  refine ⟨answerer, requestId, ?_⟩
  rw [tasks, lookup_insert_ne different]
  exact found

theorem Pends.of_insert (pends : after.Pends id) (tasks : after.tasks = server.tasks.insert stream task)
    (control : ∀ id pending, task ≠ .forwarding id pending) : id ∈ after.pendingConnections ∨
      ∃ other pending, server.tasks.lookup other = some (.forwarding id pending) := by
  obtain waiting | ⟨other, pending, found⟩ := pends
  · exact .inl waiting
  · rw [tasks] at found
    obtain ⟨_, same⟩ | ⟨_, old⟩ := lookup_insert_eq_some.mp found
    · exact absurd same (control id pending)
    · exact .inr ⟨other, pending, old⟩

theorem not_answering_of_absent (absent : stream ∉ server.tasks) (requestId : UInt64)
    (result : Except String RpcOutcome) : server.tasks.lookup stream ≠ some (.answering requestId result) := by
  rw [lookup_eq_none.mpr absent]
  exact nofun

theorem accounts_service (poisoned : Bool) (sound : service.Sound config)
    (counts : Counts none server.service.nextConnectionId service.nextConnectionId)
    (connections : service.connections.entries.length = server.service.connections.entries.length) :
    Accounts config server (.nothing, { server with service, poisoned }) where
  sound := sound
  counts := counts
  connections := connections
  slots := rfl
  pends := by
    intro id pends
    obtain pends | impossible := pends
    · exact .inl pends
    · cases impossible
  answering id answers := .inl answers

theorem accounts_idle (sound : server.service.Sound config) : Accounts config server (.nothing, server) :=
  accounts_service _ sound (.inl ⟨rfl, rfl⟩) rfl

variable {observed : Observed Conn}

theorem accounts_start (absent : stream ∉ server.tasks) (sound : service.Sound config)
    (counts : Counts observed.admittedId server.service.nextConnectionId service.nextConnectionId)
    (connections : service.connections.entries.length =
      server.service.connections.entries.length + observed.admittedId.toList.length)
    (slots : task.slots = observed.admittedId.toList.length) (control : ∀ id pending, task ≠ .forwarding id pending)
    (answered : observed.answeredId = none) (failed : observed.failedId = none)
    (finished : observed.finishedId = none) :
    Accounts config server (observed, { server with service }.setTask stream task) where
  sound := sound
  counts := counts
  connections := connections
  slots := by
    have started : total Task.slots (server.tasks.insert stream task) = total Task.slots server.tasks + task.slots :=
      total_insert_of_notMem absent
    simpa [setTask, answered, failed, slots] using started
  pends := by
    intro id pends
    obtain pends | impossible := pends
    · exact .inl (pends.of_insert rfl control)
    · rw [finished] at impossible
      cases impossible
  answering id answers := .inl (answers.of_insert rfl (not_answering_of_absent absent))

theorem accounts_refuse (absent : stream ∉ server.tasks) (sound : server.service.Sound config) (requestId : UInt64)
    (error : String) : Accounts config server (.nothing, server.setTask stream (.answering requestId (.error error))) :=
  accounts_start absent sound (.inl ⟨rfl, rfl⟩) rfl rfl (by simp) rfl rfl rfl

theorem accounts_join {connectionId : UInt64} (absent : stream ∉ server.tasks)
    (sound : server.service.Sound config) (found : server.pendingConnections.lookup connectionId = some pending) :
    Accounts config server (.joined connectionId pending.target,
      { server with pendingConnections := server.pendingConnections.erase connectionId }.setTask stream
        (.forwarding connectionId pending)) where
  sound := sound
  counts := .inl ⟨rfl, rfl⟩
  connections := rfl
  slots := by
    have started : total Task.slots (server.tasks.insert stream (.forwarding connectionId pending)) =
      total Task.slots server.tasks + 0 := total_insert_of_notMem absent
    exact started
  pends := by
    intro id pends
    obtain (waiting | ⟨other, entry, task⟩) | impossible := pends
    · exact .inl (.inl (mem_erase.mp waiting).2)
    · obtain ⟨_, same⟩ | ⟨_, old⟩ := lookup_setTask.mp task
      · cases same
        exact .inl (.inl (mem_iff_lookup.mpr ⟨pending, found⟩))
      · exact .inl (.inr ⟨other, entry, old⟩)
    · cases impossible
  answering id answers := .inl (answers.of_insert rfl (not_answering_of_absent absent))

theorem accounts_advance {agentConnections : AList fun _ : AgentId => Conn}
    {pendingConnections : AList fun _ : UInt64 => PendingConnection Conn}
    (found : server.tasks.lookup stream = some old) (sound : server.service.Sound config)
    (slots : task.slots + observed.failedId.toList.length = old.slots)
    (control : ∀ id pending, task ≠ .forwarding id pending)
    (unanswered : ∀ requestId result, old ≠ .answering requestId result)
    (waiting : ∀ id ∈ pendingConnections, id ∈ server.pendingConnections ∨
      ∃ requestId, task = .answering requestId (.ok (.connect ⟨id⟩)))
    (admitted : observed.admittedId = none) (answered : observed.answeredId = none)
    (finished : observed.finishedId = none) : Accounts config server
      (observed, { server with agentConnections, pendingConnections }.setTask stream task) where
  sound := sound
  counts := .inl ⟨admitted, rfl⟩
  connections := by simp [admitted, setTask]
  slots := by
    have moved : total Task.slots (server.tasks.insert stream task) + old.slots =
      total Task.slots server.tasks + task.slots := total_insert_of_mem found
    simp only [setTask, answered, admitted, toList_none, List.length_nil]
    omega
  pends := by
    intro id pends
    obtain pends | impossible := pends
    · obtain inside | kept := pends.of_insert rfl control
      · obtain before | ⟨requestId, same⟩ := waiting id inside
        · exact .inl (.inl before)
        · exact .inr ⟨stream, requestId, lookup_setTask.mpr (.inl ⟨rfl, same⟩)⟩
      · exact .inl (.inr kept)
    · rw [finished] at impossible
      cases impossible
  answering := by
    intro id answers
    refine .inl (answers.of_insert rfl ?_)
    intro requestId result answering
    exact unanswered requestId result (some.inj (found.symm.trans answering))

theorem accounts_end (found : server.tasks.lookup stream = some old)
    (sound : server.service.Sound config) (slots : observed.answeredId.toList.length = old.slots)
    (forwarded : ∀ id, observed.finishedId = some id → ∃ pending, old = .forwarding id pending)
    (answered : ∀ requestId result, old = .answering requestId (.ok (.connect result)) →
      observed.answeredId = some result.connectionId)
    (admitted : observed.admittedId = none) (failed : observed.failedId = none) :
    Accounts config server (observed, server.endTask stream) where
  sound := sound
  counts := .inl ⟨admitted, rfl⟩
  connections := by simp [admitted, endTask]
  slots := by
    have ended : total Task.slots (server.tasks.erase stream) + old.slots = total Task.slots server.tasks :=
      total_erase found
    simp only [endTask, failed, admitted, toList_none, List.length_nil]
    omega
  pends := by
    intro id pends
    obtain (inside | ⟨other, entry, forwards⟩) | done := pends
    · exact .inl (.inl inside)
    · exact .inl (.inr ⟨other, entry, lookup_of_lookup_erase forwards⟩)
    · obtain ⟨pending, same⟩ := forwarded id done
      exact .inl (.inr ⟨stream, pending, same ▸ found⟩)
  answering := by
    intro id ⟨other, requestId, answers⟩
    by_cases same : other = stream
    · subst same
      rw [found] at answers
      exact .inr (answered requestId ⟨id⟩ (some.inj answers))
    · exact .inl ⟨other, requestId, (lookup_erase_ne same).trans answers⟩

section

variable (absent : stream ∉ server.tasks) (sound : server.service.Sound config)
include absent sound

theorem accounts_handleReserve (request : RpcRequest) (eviction : Eviction) (now : Instant) :
    Accounts config server (server.handleReserve stream request eviction now) := by
  rw [handleReserve]
  split
  · exact accounts_refuse absent sound _ _
  next params _ =>
  split
  · exact accounts_idle sound
  dsimp only
  obtain ⟨kept, adds⟩ := sound.handleReserve eviction now (extractCallerId request) params
  split <;> rename_i outcome <;> rw [outcome] at kept adds
  · exact accounts_start absent kept adds.connections adds.grown rfl (by simp) rfl rfl rfl
  · exact accounts_start absent kept adds.connections adds.grown rfl (by simp) rfl rfl rfl
  · exact accounts_service true kept adds.connections adds.grown

theorem accounts_handleConnect (request : RpcRequest) (eviction : Eviction) (now : Instant) :
    Accounts config server (server.handleConnect stream request eviction now) := by
  rw [handleConnect]
  split
  · exact accounts_refuse absent sound _ _
  next params _ =>
  split
  · exact accounts_idle sound
  obtain ⟨kept, adds⟩ := sound.handleConnect eviction now (extractCallerId request) params
  split <;> rename_i outcome <;> rw [outcome] at kept adds
  · exact accounts_start absent kept adds.connections adds.grown rfl (by simp) rfl rfl rfl
  · exact accounts_start absent kept adds.connections adds.grown rfl (by simp) rfl rfl rfl
  · exact accounts_service true kept adds.connections adds.grown

theorem accounts_handleBiStream (received : List UInt8) (eviction : Eviction) (now : Instant) :
    Accounts config server (server.handleBiStream stream received eviction now) := by
  cases received with
  | nil => exact accounts_idle sound
  | cons first rest =>
    rw [handleBiStream]
    split
    · rw [handleDataStream]
      split
      · exact accounts_idle sound
      dsimp only
      split
      · exact accounts_idle sound
      next found => exact accounts_join absent sound found
    · rw [handleControlStream]
      split
      · exact accounts_idle sound
      next request _ =>
      split
      · exact accounts_handleReserve absent sound request eviction now
      split
      · exact accounts_handleConnect absent sound request eviction now
      · exact accounts_refuse absent sound _ _

end

theorem accounts_proceed (found : server.tasks.lookup stream = some task) (sound : server.service.Sound config)
    (outcome : Except String UInt64) : Accounts config server (server.proceed stream outcome task) := by
  cases task with
  | registering requestId callerId result =>
    exact accounts_advance found sound rfl (by simp) (by simp) (fun _ => .inl) rfl rfl rfl
  | finding requestId connectionId target =>
    rw [proceed]
    split <;> exact accounts_advance found sound rfl (by simp) (by simp) (fun _ => .inl) rfl rfl rfl
  | opening requestId connectionId target =>
    cases outcome <;> exact accounts_advance found sound rfl (by simp) (by simp) (fun _ => .inl) rfl rfl rfl
  | greeting requestId connectionId target =>
    cases outcome <;> exact accounts_advance found sound rfl (by simp) (by simp) (fun _ => .inl) rfl rfl rfl
  | storing requestId connectionId target =>
    refine accounts_advance found sound rfl (by simp) (by simp) ?_ rfl rfl rfl
    intro id inside
    obtain same | before := (mem_insert _).mp inside
    · exact .inr ⟨requestId, same ▸ rfl⟩
    · exact .inl before
  | answering requestId result =>
    refine accounts_end found sound ?_ (by simp [Observed.finishedId]) ?_ rfl rfl
    · rcases result with _ | (_ | _) <;> rfl
    · intro otherId other same
      cases same
      rfl
  | forwarding connectionId pending =>
    refine accounts_end found sound rfl ?_ (by simp) rfl rfl
    intro id same
    exact ⟨pending, some.inj same ▸ rfl⟩

theorem accounts_step (sound : server.service.Sound config) (event : StreamEvent Conn) :
    Accounts config server (machine.step server event) := by
  cases event with
  | arrives stream received eviction now =>
    by_cases there : stream ∈ server.tasks
    · simpa [machine, there] using accounts_idle sound
    · simpa [machine, there] using accounts_handleBiStream there sound received eviction now
  | proceeds stream outcome =>
    cases found : server.tasks.lookup stream with
    | none => simpa [machine, found] using accounts_idle sound
    | some task => simpa [machine, found] using accounts_proceed found sound outcome

end RelayV1Server

end Aafp.Relay
