import Aafp.Relay.ServerSteps

/-! Runs of the relay server. -/
namespace Aafp.Relay

open Foundation Cbor Identity Messaging List Observed Option AList

namespace RelayV1Server

variable {Conn : Type} [DecidableEq Conn] {config : RelayV1Config} {server : RelayV1Server Conn}
  {past : List (StreamEvent Conn × Observed Conn)} {event : StreamEvent Conn} {connectionId : UInt64}

def start (config : RelayV1Config) : RelayV1Server Conn := new (.new config)

def admittedIds (past : List (StreamEvent Conn × Observed Conn)) : List UInt64 :=
  past.filterMap fun entry => entry.2.admittedId

def failedIds (past : List (StreamEvent Conn × Observed Conn)) : List UInt64 :=
  past.filterMap fun entry => entry.2.failedId

def answeredIds (past : List (StreamEvent Conn × Observed Conn)) : List UInt64 :=
  past.filterMap fun entry => entry.2.answeredId

def finishedIds (past : List (StreamEvent Conn × Observed Conn)) : List UInt64 :=
  past.filterMap fun entry => entry.2.finishedId

structure Kept (config : RelayV1Config) (past : List (StreamEvent Conn × Observed Conn))
    (server : RelayV1Server Conn) : Prop where
  sound : server.service.Sound config
  issued : Issued (admittedIds past) server.service.nextConnectionId
  connections : server.service.connections.entries.length = (admittedIds past).length
  slots : total Task.slots server.tasks + (answeredIds past).length + (failedIds past).length =
    (admittedIds past).length
  pends : ∀ id, server.Pends id ∨ id ∈ finishedIds past → id ∈ answeredIds past ∨ server.Answering id

theorem Kept.step (kept : Kept config past server) (event : StreamEvent Conn) :
    Kept config (past ++ [(event, (machine.step server event).1)]) (machine.step server event).2 := by
  have accounts := accounts_step kept.sound event
  refine ⟨accounts.sound, ?_, ?_, ?_, ?_⟩
  · rw [admittedIds, filterMap_concat]
    exact kept.issued.step accounts.counts
  · rw [admittedIds, filterMap_concat, length_append, accounts.connections, kept.connections]
    rfl
  · have slots := accounts.slots
    have before := kept.slots
    simp only [admittedIds, answeredIds, failedIds, filterMap_concat, length_append] at before ⊢
    omega
  · intro id pends
    simp only [answeredIds, finishedIds, filterMap_concat, mem_append, mem_toList] at pends ⊢
    have answers (known : id ∈ answeredIds past ∨ server.Answering id) :
        (id ∈ answeredIds past ∨ (machine.step server event).1.answeredId = some id) ∨
          (machine.step server event).2.Answering id := by
      obtain given | answering := known
      · exact .inl (.inl given)
      · obtain still | now := accounts.answering id answering
        · exact .inr still
        · exact .inl (.inr now)
    obtain pending | old | new := pends
    · obtain before | answering := accounts.pends id (.inl pending)
      · exact answers (kept.pends id (.inl before))
      · exact .inr answering
    · exact answers (kept.pends id (.inr old))
    · obtain before | answering := accounts.pends id (.inr new)
      · exact answers (kept.pends id (.inl before))
      · exact .inr answering

theorem kept_run (config : RelayV1Config) (events : List (StreamEvent Conn)) :
    Kept config (machine.log (start config) events) (machine.after (start config) events) := by
  apply machine.invariant
  · refine ⟨RelayV1Service.sound_new config, ⟨nodup_nil, by simp [admittedIds]⟩, rfl, rfl, ?_⟩
    intro id pends
    obtain (waiting | ⟨stream, pending, found⟩) | done := pends
    · exact absurd waiting (notMem_empty id)
    · simp [start, new] at found
    · cases done
  · intro past server event kept
    exact kept.step event

def Asked (past : List (StreamEvent Conn × Observed Conn)) (conn : Conn) (connectionId : UInt64) : Prop :=
  ∃ entry ∈ past, entry.2 = .admitted connectionId ∧ entry.1.stream.conn = conn

/-- A data stream is joined to the target stream of an id only if a connect request on its
connection was given the id. -/
def JoinsOwn (past : List (StreamEvent Conn × Observed Conn)) (_ : RelayV1Server Conn) : Prop :=
  ∀ entry ∈ past, ∀ connectionId target, entry.2 = .joined connectionId target →
    Asked past entry.1.stream.conn connectionId

/-- A data stream arrives whose header has an id for which a target stream waits. -/
def Names (server : RelayV1Server Conn) (event : StreamEvent Conn) (connectionId : UInt64) : Prop :=
  ∃ stream header eviction now, event = .arrives stream (dataStreamMagic :: header) eviction now ∧
    stream ∉ server.tasks ∧ 8 ≤ header.length ∧
    connectionId = UInt64.ofNat (ofBigEndian (header.take 8)) ∧ connectionId ∈ server.pendingConnections

def joinedId : Observed Conn → Option UInt64
  | .joined connectionId _ => some connectionId
  | _ => none

omit [DecidableEq Conn] in
theorem joinedId_eq_some :
    joinedId observed = some connectionId ↔ ∃ target, observed = .joined connectionId target := by
  cases observed <;> simp [joinedId]

section

variable (server : RelayV1Server Conn) (stream : StreamId Conn) (buffer : List UInt8) (eviction : Eviction)
  (now : Instant)

theorem observed_handleControlStream : (server.handleControlStream stream buffer eviction now).1 = .nothing ∨
      ∃ id, (server.handleControlStream stream buffer eviction now).1 = .admitted id := by
  rw [handleControlStream]
  split
  · exact .inl rfl
  split
  · rw [handleReserve]
    split
    · exact .inl rfl
    split
    · exact .inl rfl
    · dsimp only
      split <;> exact .inl rfl
  split
  · rw [handleConnect]
    split
    · exact .inl rfl
    split
    · exact .inl rfl
    split
    · exact .inr ⟨_, rfl⟩
    · exact .inl rfl
    · exact .inl rfl
  · exact .inl rfl

theorem joinedId_proceed (outcome : Except String UInt64)
    (task : Task Conn) : joinedId (server.proceed stream outcome task).1 = none := by
  cases task with
  | finding requestId connectionId target =>
    rw [proceed]
    split <;> rfl
  | opening requestId connectionId target => cases outcome <;> rfl
  | greeting requestId connectionId target => cases outcome <;> rfl
  | _ => rfl

theorem joinedId_handleDataStream (header : List UInt8) (connectionId : UInt64) :
    joinedId (server.handleDataStream stream header).1 = some connectionId ↔ 8 ≤ header.length ∧
      connectionId = UInt64.ofNat (ofBigEndian (header.take 8)) ∧ connectionId ∈ server.pendingConnections := by
  rw [handleDataStream]
  by_cases short : header.length < 8
  · rw [if_pos short]
    exact iff_of_false (by simp [joinedId]) fun named => absurd named.1 (Nat.not_le.mpr short)
  rw [if_neg short]
  dsimp only
  cases found : server.pendingConnections.lookup (UInt64.ofNat (ofBigEndian (header.take 8))) with
  | none =>
    refine iff_of_false (by simp [joinedId]) ?_
    rintro ⟨_, same, inside⟩
    exact lookup_eq_none.mp found (same ▸ inside)
  | some pending =>
    have present := mem_iff_lookup.mpr ⟨pending, found⟩
    constructor
    · intro joined
      have same := some.inj joined
      exact ⟨Nat.not_lt.mp short, same.symm, same ▸ present⟩
    · rintro ⟨_, same, _⟩
      exact congrArg some same.symm

end

theorem joinedId_step : joinedId (machine.step server event).1 = some connectionId ↔
    Names server event connectionId := by
  cases event with
  | proceeds stream outcome =>
    refine iff_of_false ?_ (by simp [Names])
    intro joined
    cases found : server.tasks.lookup stream with
    | none => simp [machine, found, joinedId] at joined
    | some task => simp [machine, found, joinedId_proceed] at joined
  | arrives stream received eviction now =>
    by_cases there : stream ∈ server.tasks
    · simp [machine, there, joinedId, Names]
    cases received with
    | nil => simp [machine, there, handleBiStream, joinedId, Names]
    | cons first rest =>
      by_cases magic : first = dataStreamMagic
      · have joined := joinedId_handleDataStream server stream rest connectionId
        simp only [machine, there, if_false, handleBiStream, magic, if_true, joined]
        simp [Names, there]
      · obtain nothing | ⟨id, admitted⟩ := server.observed_handleControlStream stream (first :: rest) eviction now
        all_goals simp [machine, handleBiStream, joinedId, Names, *]

/-- Every pipe belongs to the connection that asked for it exactly if every data stream with the id
of a waiting target stream comes on that connection. -/
theorem pipes_belong_iff (config : RelayV1Config) (events : List (StreamEvent Conn)) :
    (admittedIds (machine.log (start config) events)).Nodup ∧ (machine.Throughout (start config) JoinsOwn events ↔
      machine.Meets (start config) (fun past server event => ∀ connectionId,
        Names server event connectionId → Asked past event.stream.conn connectionId) events) := by
  refine ⟨(kept_run config events).issued.nodup, ?_⟩
  apply @Machine.throughout_iff_meets _ _ _ machine (start config) (fun _ _ => True)
  · trivial
  · intro entry mem
    cases mem
  · intro _ _ _ _
    trivial
  intro past server event _ own
  have extend {conn : Conn} {connectionId : UInt64} (asked : Asked past conn connectionId) :
      Asked (past ++ [(event, (machine.step server event).1)]) conn connectionId := by
    obtain ⟨entry, mem, found⟩ := asked
    exact ⟨entry, mem_append_left _ mem, found⟩
  constructor
  · intro after connectionId names
    obtain ⟨target, joined⟩ := joinedId_eq_some.mp (joinedId_step.mpr names)
    obtain ⟨entry, mem, admitted, same⟩ := after (event, (machine.step server event).1) (by simp) _ _ joined
    obtain old | new := mem_append.mp mem
    · exact ⟨entry, old, admitted, same⟩
    · -- the step that joins a stream admits no request
      rw [mem_singleton.mp new, joined] at admitted
      cases admitted
  · intro condition entry mem connectionId target joined
    obtain old | new := mem_append.mp mem
    · exact extend (own entry old connectionId target joined)
    · rw [mem_singleton.mp new] at joined ⊢
      exact extend (condition connectionId (joinedId_step.mp (joinedId_eq_some.mpr ⟨target, joined⟩)))

def sampleAgent (byte : UInt8) : AgentId := ⟨replicate 32 byte, rfl⟩

def sampleEviction : Eviction := ⟨.inOrder, 0⟩

def reserveRequest (caller : AgentId) : List UInt8 :=
  encodeValue (RpcRequest.toCbor
    { id := 1, method := methodReserve, params := .intMap [(1, .unsigned 60), (99, .byteString caller.1)] })

def connectRequest (caller target : AgentId) : List UInt8 :=
  encodeValue (RpcRequest.toCbor
    { id := 1, method := methodConnect,
      params := .intMap [(1, .byteString target.1), (99, .byteString caller.1)] })

def firstHeader : List UInt8 := [0xFF, 0, 0, 0, 0, 0, 0, 0, 1]

def proceedsWell (stream : StreamId Nat) (steps : Nat) : List (StreamEvent Nat) :=
  replicate steps (.proceeds stream (.ok 0))

def establish : List (StreamEvent Nat) :=
  .arrives ⟨0, 0⟩ (reserveRequest (sampleAgent 1)) sampleEviction 0 :: proceedsWell ⟨0, 0⟩ 2 ++
  .arrives ⟨1, 0⟩ (connectRequest (sampleAgent 2) (sampleAgent 1)) sampleEviction 0 :: proceedsWell ⟨1, 0⟩ 5

def hijack : List (StreamEvent Nat) := establish ++ [.arrives ⟨2, 0⟩ firstHeader sampleEviction 0]

/-- The stranger's stream is joined to the target stream. -/
theorem pipe_hijacked : ¬ machine.Throughout (start .default) JoinsOwn hijack := by
  intro own
  have joins : ((machine.log (start .default) hijack).filterMap fun entry =>
      (joinedId entry.2).map (entry.1.stream.conn, ·)) = [(2, 1)] := by decide +kernel
  have admits : ((machine.log (start .default) hijack).filterMap fun entry =>
      entry.2.admittedId.map (entry.1.stream.conn, ·)) = [(1, 1)] := by decide +kernel
  have stranger := mem_singleton_self ((2 : Nat), (1 : UInt64))
  rw [← joins, mem_filterMap] at stranger
  obtain ⟨entry, mem, shown⟩ := stranger
  obtain ⟨connectionId, joined, same⟩ := map_eq_some_iff.mp shown
  obtain ⟨byStranger, rfl⟩ := Prod.mk.inj same
  obtain ⟨target, joined⟩ := joinedId_eq_some.mp joined
  obtain ⟨asker, asked, admitted, conn⟩ := own hijack (prefix_refl _) entry mem _ target joined
  have listed : ((2 : Nat), (1 : UInt64)) ∈ [((1 : Nat), (1 : UInt64))] := by
    rw [← admits, mem_filterMap]
    refine ⟨asker, asked, ?_⟩
    rw [admitted, conn, byStranger]
    rfl
  exact absurd listed (by decide)

def idle (server : RelayV1Server Conn) : Bool := server.tasks.entries.isEmpty

/-- The connect requests that were answered with an id whose forwarding has not finished. -/
def unfinished (past : List (StreamEvent Conn × Observed Conn)) : List UInt64 :=
  (answeredIds past).filter fun connectionId => connectionId ∉ finishedIds past

def endsConnection (server : RelayV1Server Conn) (outcome : Except String UInt64) : Task Conn → Bool
  | .finding _ _ target => target ∉ server.agentConnections
  | .opening .. | .greeting .. => !outcome.toBool
  | .forwarding .. => true
  | _ => false

/-- The step after which an entry of the service has no use any more. -/
def leavesEntry (server : RelayV1Server Conn) : StreamEvent Conn → Bool
  | .arrives .. => false
  | .proceeds stream outcome => match server.tasks.lookup stream with
    | none => false
    | some task => server.endsConnection outcome task

def Over (observed : Observed Conn) : Prop := observed.failedId.isSome ∨ observed.finishedId.isSome

theorem over_proceed (server : RelayV1Server Conn) (stream : StreamId Conn) (outcome : Except String UInt64)
    (task : Task Conn) : server.endsConnection outcome task = true ↔ Over (server.proceed stream outcome task).1 := by
  cases task with
  | finding requestId connectionId target =>
    rw [proceed]
    cases found : server.agentConnections.lookup target with
    | none => simp [endsConnection, lookup_eq_none.mp found, Over, failedId]
    | some conn =>
      have there : target ∈ server.agentConnections := mem_iff_lookup.mpr ⟨conn, found⟩
      simp [endsConnection, there, Over, failedId, finishedId]
  | opening requestId connectionId target =>
    cases outcome <;> simp [endsConnection, proceed, Over, failedId, finishedId, Except.toBool]
  | greeting requestId connectionId target =>
    cases outcome <;> simp [endsConnection, proceed, Over, failedId, finishedId, Except.toBool]
  | _ => simp [endsConnection, proceed, Over, failedId, finishedId]

theorem over_handleBiStream (server : RelayV1Server Conn) (stream : StreamId Conn) (received : List UInt8)
    (eviction : Eviction) (now : Instant) : ¬ Over (server.handleBiStream stream received eviction now).1 := by
  cases received with
  | nil => simp [handleBiStream, Over, failedId, finishedId]
  | cons first rest =>
    rw [handleBiStream]
    split
    · rw [handleDataStream]
      split
      · simp [Over, failedId, finishedId]
      · dsimp only
        split <;> simp [Over, failedId, finishedId]
    · obtain nothing | ⟨id, admitted⟩ := server.observed_handleControlStream stream (first :: rest) eviction now
      · simp [nothing, Over, failedId, finishedId]
      · simp [admitted, Over, failedId, finishedId]

theorem over_step (server : RelayV1Server Conn) (event : StreamEvent Conn) :
    leavesEntry server event = true ↔ Over (machine.step server event).1 := by
  cases event with
  | arrives stream received eviction now =>
    by_cases there : stream ∈ server.tasks
    · simp [leavesEntry, machine, there, Over, failedId, finishedId]
    · simp [leavesEntry, machine, there, over_handleBiStream]
  | proceeds stream outcome =>
    cases found : server.tasks.lookup stream with
    | none => simp [leavesEntry, machine, found, Over, failedId, finishedId]
    | some task => simp [leavesEntry, machine, found, over_proceed server stream]

omit [DecidableEq Conn] in
theorem length_eq_remaining_iff {answered failed finished : List UInt64} (known : ∀ id ∈ finished, id ∈ answered) :
    answered.length + failed.length = (answered.filter fun id => id ∉ finished).length ↔
      failed = [] ∧ finished = [] := by
  constructor
  · intro same
    have fewer := length_filter_le (fun id => decide (id ∉ finished)) answered
    have whole : (answered.filter fun id => id ∉ finished).length = answered.length := by omega
    have all := length_filter_eq_length_iff.mp whole
    refine ⟨length_eq_zero_iff.mp (by omega), ?_⟩
    apply eq_nil_iff_forall_not_mem.mpr
    intro id done
    exact of_decide_eq_true (all id (known id done)) done
  · intro ⟨noFailure, noEnd⟩
    simp [noFailure, noEnd]

theorem Kept.count_idle (kept : Kept config past server) (quiet : server.idle = true) :
    server.service.connectionCount = (answeredIds past).length + (failedIds past).length ∧
      ∀ id ∈ finishedIds past, id ∈ answeredIds past := by
  have none : server.tasks.entries = [] := isEmpty_iff.mp quiet
  constructor
  · have slots := kept.slots
    have nothing : total Task.slots server.tasks = 0 := by rw [total, none, totalOf]
    rw [RelayV1Service.connectionCount, kept.connections]
    omega
  · intro id finished
    obtain answered | ⟨stream, requestId, found⟩ := kept.pends id (.inr finished)
    · exact answered
    · have mem := mem_lookup_iff.mp found
      rw [none] at mem
      cases mem

/-- The entries of the service are those of the answered requests that are being forwarded exactly
if no request failed after it was given its id and no forwarding has finished. -/
theorem slots_returned_iff (config : RelayV1Config) (events : List (StreamEvent Conn))
    (quiet : (machine.after (start config) events).idle = true) :
    (machine.after (start config) events).service.connectionCount =
        (unfinished (machine.log (start config) events)).length ↔
      ∀ entry ∈ machine.met (start config) events, leavesEntry entry.1 entry.2 = false := by
  obtain ⟨count, answered⟩ := (kept_run config events).count_idle quiet
  have noneOver : (∀ entry ∈ machine.met (start config) events, leavesEntry entry.1 entry.2 = false) ↔
      ∀ entry ∈ machine.log (start config) events, ¬ Over entry.2 := by
    apply Machine.forall_met_iff (fun server event => leavesEntry server event = false)
      (fun _ observed => ¬ Over observed)
    intro server event
    rw [← over_step, Bool.not_eq_true]
  rw [noneOver, count]
  simp only [Over, not_or, Bool.not_eq_true, isSome_eq_false_iff, isNone_iff_eq_none, forall_and,
    ← filterMap_eq_nil_iff]
  exact length_eq_remaining_iff answered

/-- A call of the agent of connection 0 that it does not take. -/
def unopened : List (StreamEvent Nat) :=
  .arrives ⟨0, 0⟩ (reserveRequest (sampleAgent 1)) sampleEviction 0 :: proceedsWell ⟨0, 0⟩ 2 ++
  .arrives ⟨1, 0⟩ (connectRequest (sampleAgent 2) (sampleAgent 1)) sampleEviction 0 ::
  [.proceeds ⟨1, 0⟩ (.ok 0), .proceeds ⟨1, 0⟩ (.error "closed"), .proceeds ⟨1, 0⟩ (.ok 0)]

def usedUp : List (StreamEvent Nat) :=
  establish ++ [.arrives ⟨1, 1⟩ firstHeader sampleEviction 0, .proceeds ⟨1, 1⟩ (.ok 0)]

/-- A connection that waits for its caller has its entry. -/
theorem entry_of_waiting_connection : (machine.after (start .default) establish).service.connectionCount =
      (unfinished (machine.log (start .default) establish)).length :=
  (slots_returned_iff .default establish (by decide +kernel)).mpr (by decide +kernel)

/-- A request that failed and a connection that is closed leave their entries behind. -/
theorem entries_left_behind : ((machine.after (start .default) unopened).idle = true ∧
      (machine.after (start .default) unopened).service.connectionCount = 1 ∧
      unfinished (machine.log (start .default) unopened) = []) ∧
    (machine.after (start .default) usedUp).idle = true ∧
      (machine.after (start .default) usedUp).service.connectionCount = 1 ∧
      unfinished (machine.log (start .default) usedUp) = [] := by
  decide +kernel

end RelayV1Server

end Aafp.Relay
