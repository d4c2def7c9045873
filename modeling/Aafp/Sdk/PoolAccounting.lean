import Aafp.Sdk.ConnectionPool

/-! Where the connections are that the pool has established, and when the pool forgets one. -/
namespace Aafp.Sdk

open Foundation Identity ConnectionPool Nat
open List hiding length_erase_add_one length_insert_of_mem

def numbers (connections : AList fun _ : AgentId => PooledConnection) : List ConnectionNumber :=
  connections.entries.map fun entry => entry.2.conn

section numbers

variable {connections : AList fun _ : AgentId => PooledConnection} {peerId : AgentId} {pc : PooledConnection}
  (conn : ConnectionNumber)

theorem count_numbers_erase : (numbers (connections.erase peerId)).count conn +
        ((connections.lookup peerId).toList.map PooledConnection.conn).count conn =
      (numbers connections).count conn := by
  unfold numbers
  cases found : connections.lookup peerId with
  | none =>
    have absent := AList.mem_keys.not.mp (AList.lookup_eq_none.mp found)
    have same : (connections.erase peerId).entries = connections.entries := kerase_of_notMem_keys absent
    rw [same]
    rfl
  | some pc =>
    have split := (entries_perm_erase found).map fun entry => entry.2.conn
    rw [split.count_eq, map_cons, ← singleton_append, count_append, add_comm]
    rfl

theorem count_numbers_insert : (numbers (connections.insert peerId pc)).count conn +
        ((connections.lookup peerId).toList.map PooledConnection.conn).count conn =
      (numbers connections).count conn + [pc.conn].count conn := by
  have erased := @count_numbers_erase connections peerId conn
  have inserted : (numbers (connections.insert peerId pc)).count conn =
      [pc.conn].count conn + (numbers (connections.erase peerId)).count conn := by
    rw [numbers, AList.entries_insert, map_cons, ← singleton_append, count_append]
    rfl
  omega

end numbers

namespace ConnectionPool

variable {pool : ConnectionPool} {config : PoolConfig} {pass : PoolPass} {peerId : AgentId} {now : Instant}

def stored (pool : ConnectionPool) : List ConnectionNumber := numbers pool.connections

def closed (pool : ConnectionPool) : List ConnectionNumber := pool.closings.map Closing.conn

def accounted (pool : ConnectionPool) : List ConnectionNumber := pool.stored ++ pool.closed

def failing (pool : ConnectionPool) (reading : LookReading) (addr : String) : List ConnectionNumber :=
  match pool.findAddr reading.findPass addr with
  | none => []
  | some entry =>
    if needsHealthCheck entry.2 reading.checkedAt ∧ reading.healthy = false then [entry.2.conn] else []

/-- The connection that a look drops without closing it. -/
def discarded (pool : ConnectionPool) (config : PoolConfig) (reading : LookReading) (addr : String) :
    List ConnectionNumber :=
  (pool.evictIdleLocked config reading.evictPass reading.evictedAt).2.failing reading addr

/-- The connection that is still stored for a peer when another one is stored for it. -/
def replaced (pool : ConnectionPool) (config : PoolConfig) (reading : StoreReading) (peerId : AgentId) :
    List ConnectionNumber :=
  ((pool.makeRoom config reading).connections.lookup peerId).toList.map PooledConnection.conn

section counts

variable (conn : ConnectionNumber)

theorem count_accounted_close (reason : String) :
    (pool.close peerId reason).accounted.count conn = pool.accounted.count conn := by
  unfold close
  split
  next pc found =>
    have erased := @count_numbers_erase pool.connections peerId conn
    rw [found, Option.toList_some, map_singleton] at erased
    simp only [accounted, closed, stored, map_append, map_singleton, count_append]
    omega
  next => rfl

theorem count_accounted_evictIdleLocked :
    (pool.evictIdleLocked config pass now).2.accounted.count conn = pool.accounted.count conn := by
  apply foldlRecOn (motive := fun after : ConnectionPool => after.accounted.count conn = pool.accounted.count conn)
  · rfl
  · intro after same peerId _
    rw [count_accounted_close, same]

theorem count_accounted_release : (pool.release peerId now).accounted.count conn = pool.accounted.count conn := by
  unfold release
  split
  next pc found =>
    have inserted := @count_numbers_insert pool.connections peerId { pc with lastUsed := now } conn
    simp only [found, Option.toList_some, map_singleton] at inserted
    simp only [accounted, closed, stored, count_append]
    omega
  next => rfl

theorem count_accounted_makeRoom (reading : StoreReading) :
    (pool.makeRoom config reading).accounted.count conn = pool.accounted.count conn := by
  unfold makeRoom evictOldest
  split
  · split
    · rw [count_accounted_close, count_accounted_evictIdleLocked]
    · exact count_accounted_evictIdleLocked conn
  · exact count_accounted_evictIdleLocked conn

theorem count_accounted_reuse (reading : LookReading) (addr : String) :
    (pool.reuse reading addr).2.accounted.count conn + (pool.failing reading addr).count conn =
      pool.accounted.count conn := by
  unfold reuse failing
  cases found : pool.findAddr reading.findPass addr with
  | none => rfl
  | some entry =>
    have there := mem_iterate.mp (mem_of_find?_eq_some found)
    have erased := @count_numbers_erase pool.connections entry.1 conn
    rw [there, Option.toList_some, map_singleton] at erased
    by_cases check : needsHealthCheck entry.2 reading.checkedAt = true
    · cases healthy : reading.healthy with
      | true => simp [check, count_accounted_release]
      | false =>
        simp only [check, accounted, stored, closed, count_append, if_true, and_self, Bool.false_eq_true, if_false]
        omega
    · simp [check, count_accounted_release]

theorem count_accounted_look (reading : LookReading) (addr : String) :
    (pool.look config reading addr).2.accounted.count conn + (pool.discarded config reading addr).count conn =
      pool.accounted.count conn := by
  rw [look, discarded, count_accounted_reuse, count_accounted_evictIdleLocked]

theorem count_accounted_store (reading : StoreReading) (addr : String) (added : ConnectionNumber) :
    (pool.store config reading addr peerId added).accounted.count conn +
        (pool.replaced config reading peerId).count conn = pool.accounted.count conn + [added].count conn := by
  have room := @count_accounted_makeRoom pool config conn reading
  have inserted := @count_numbers_insert (pool.makeRoom config reading).connections peerId
    ⟨added, reading.insertedAt, addr⟩ conn
  simp only [accounted, stored, closed, store, replaced, count_append] at room inserted ⊢
  omega

end counts

theorem len_close (found : pool.connections.lookup peerId = some pc) (reason : String) :
    (pool.close peerId reason).len + 1 = pool.len := by
  rw [close, found]
  exact length_erase_add_one (mem_iff_lookup.mpr ⟨pc, found⟩)

theorem len_close_le (reason : String) : (pool.close peerId reason).len ≤ pool.len := by
  cases found : pool.connections.lookup peerId with
  | none => rw [close, found]
  | some pc =>
    have fewer := len_close found reason
    omega

theorem len_evictIdleLocked_le : (pool.evictIdleLocked config pass now).2.len ≤ pool.len := by
  apply foldlRecOn (motive := fun after : ConnectionPool => after.len ≤ pool.len)
  · exact le_refl _
  · intro after fewer peerId _
    exact le_trans (len_close_le _) fewer

theorem len_release : (pool.release peerId now).len = pool.len := by
  unfold release
  split
  next pc found => exact length_insert_of_mem (mem_iff_lookup.mpr ⟨pc, found⟩) _
  next => rfl

theorem len_reuse_le (reading : LookReading) (addr : String) : (pool.reuse reading addr).2.len ≤ pool.len := by
  unfold reuse
  split
  next => exact le_refl _
  next entry found =>
    have there := mem_iterate.mp (mem_of_find?_eq_some found)
    split
    · split
      · exact le_of_eq len_release
      · have erased := length_erase_add_one (mem_iff_lookup.mpr ⟨_, there⟩)
        simp only [len]
        omega
    · exact le_of_eq len_release

theorem len_evictOldest_lt (positive : 1 ≤ config.maxSize) (bounded : pool.len ≤ config.maxSize) :
    (pool.evictOldest config pass).len < config.maxSize := by
  unfold evictOldest
  split
  · have nonempty : pass.iterate pool.connections ≠ [] := by
      intro empty
      have none := (pass.perm pool.connections.entries).length_eq
      rw [← IterationOrder.iterate, empty, length_nil, ← len] at none
      omega
    obtain ⟨oldest, visited, least⟩ := exists_minBy (compareOn fun entry => entry.2.lastUsed) nonempty
    rw [least]
    have fewer := len_close (mem_iterate.mp visited) "pool eviction"
    dsimp only
    omega
  · omega

theorem len_store_le (reading : StoreReading) (addr : String) (added : ConnectionNumber) (positive : 1 ≤ config.maxSize)
    (bounded : pool.len ≤ config.maxSize) : (pool.store config reading addr peerId added).len ≤ config.maxSize := by
  have evicted := le_trans (@len_evictIdleLocked_le pool config reading.evictPass reading.evictedAt) bounded
  have room := @len_evictOldest_lt _ config reading.oldestPass positive evicted
  rw [store, len]
  by_cases there : peerId ∈ (pool.makeRoom config reading).connections
  · rw [length_insert_of_mem there]
    exact le_of_lt room
  · rw [length_insert_of_notMem there]
    exact room

end ConnectionPool

namespace PoolSystem

/-- The connections that calls have established and not stored yet. -/
def inHand (calls : AList fun _ : Nat => Connecting) : List ConnectionNumber :=
  calls.entries.flatMap fun entry => entry.2.inHand

/-- Connections that are stored or closed, or in the hands of a call. -/
def whereabouts (system : PoolSystem) : List ConnectionNumber := system.pool.accounted ++ inHand system.calls

/-- What an event loses: connections discarded or replaced. -/
def forgottenBy (config : PoolConfig) (system : PoolSystem) : Event → List ConnectionNumber
  | .look call addr reading =>
    match system.calls.lookup call with
    | some _ => []
    | none => system.pool.discarded config reading addr
  | .store call reading =>
    match system.calls.lookup call with
    | some (.connected _ peerId _) => system.pool.replaced config reading peerId
    | some (.dialing _) => []
    | none => []
  | _ => []

def Remembers (system : PoolSystem) : Prop :=
  ∀ conn < system.established, conn ∈ system.pool.stored ∨ conn ∈ system.pool.closed

section calls

variable {calls : AList fun _ : Nat => Connecting} {call : Nat} (conn : ConnectionNumber)

theorem count_inHand_erase (found : calls.lookup call = some connecting) :
    (inHand (calls.erase call)).count conn + connecting.inHand.count conn = (inHand calls).count conn := by
  have split := (entries_perm_erase found).flatMap_right fun entry => entry.2.inHand
  rw [inHand, inHand, split.count_eq, flatMap_cons, count_append, add_comm]

theorem count_inHand_dialing (absent : calls.lookup call = none) (addr : String) :
    (inHand (calls.insert call (.dialing addr))).count conn = (inHand calls).count conn := by
  rw [inHand, AList.entries_insert_of_notMem (AList.lookup_eq_none.mp absent)]
  rfl

theorem count_inHand_connected (found : calls.lookup call = some (.dialing before)) (addr : String)
    (peerId : AgentId) (added : ConnectionNumber) :
    (inHand (calls.insert call (.connected addr peerId added))).count conn =
      (inHand calls).count conn + [added].count conn := by
  have erased := count_inHand_erase conn found
  have nothing : (Connecting.dialing before).inHand.count conn = 0 := rfl
  rw [inHand, AList.entries_insert, flatMap_cons, count_append]
  change [added].count conn + (inHand (calls.erase call)).count conn = _
  omega

end calls

section steps

variable {config : PoolConfig} {system : PoolSystem}

theorem count_whereabouts_look {call : Nat} (absent : system.calls.lookup call = none) (addr : String)
    (reading : ConnectionPool.LookReading) (conn : ConnectionNumber) :
    (system.look config call addr reading).2.whereabouts.count conn +
          (system.pool.discarded config reading addr).count conn = system.whereabouts.count conn ∧
      (system.look config call addr reading).2.established = system.established := by
  have looked := @count_accounted_look system.pool config conn reading addr
  have started := count_inHand_dialing conn absent addr
  unfold look
  split
  next reused pool same =>
    rw [same] at looked
    refine ⟨?_, rfl⟩
    simp only [whereabouts, count_append] at looked ⊢
    omega
  next pool same =>
    rw [same] at looked
    refine ⟨?_, rfl⟩
    simp only [whereabouts, count_append] at looked ⊢
    omega

theorem count_whereabouts_dialed (found : system.calls.lookup call = some (.dialing addr))
    (outcome : Option AgentId) (conn : ConnectionNumber) :
    (system.dialed call addr outcome).2.whereabouts.count conn + (range system.established).count conn =
      system.whereabouts.count conn + (range (system.dialed call addr outcome).2.established).count conn := by
  cases outcome with
  | none =>
    have ended := count_inHand_erase conn found
    simp only [dialed, whereabouts, count_append, Connecting.inHand, count_nil] at ended ⊢
    omega
  | some peerId =>
    have connected := count_inHand_connected conn found addr peerId system.established
    simp only [dialed, whereabouts, range_succ, count_append] at connected ⊢
    omega

theorem count_whereabouts_store
    (found : system.calls.lookup call = some (.connected addr peerId added)) (reading : ConnectionPool.StoreReading)
    (conn : ConnectionNumber) : (system.store config call reading addr peerId added).2.whereabouts.count conn +
        (system.pool.replaced config reading peerId).count conn = system.whereabouts.count conn := by
  have stored := @count_accounted_store system.pool config peerId conn reading addr added
  have ended := count_inHand_erase conn found
  simp only [store, whereabouts, count_append, Connecting.inHand] at stored ended ⊢
  omega

theorem count_whereabouts_answer (event : Event) (conn : ConnectionNumber) :
    (answer config system event).2.whereabouts.count conn + (forgottenBy config system event).count conn +
        (range system.established).count conn =
      system.whereabouts.count conn + (range (answer config system event).2.established).count conn := by
  cases event with
  | look call addr reading =>
    rw [answer, forgottenBy]
    cases found : system.calls.lookup call with
    | some connecting => rfl
    | none =>
      obtain ⟨missing, same⟩ := @count_whereabouts_look config system call found addr reading conn
      rw [missing, same]
  | dialed call outcome =>
    rw [answer]
    cases found : system.calls.lookup call with
    | none => rfl
    | some connecting =>
      cases connecting with
      | connected addr peerId added => rfl
      | dialing addr => exact count_whereabouts_dialed found outcome conn
  | store call reading =>
    rw [answer, forgottenBy]
    cases found : system.calls.lookup call with
    | none => rfl
    | some connecting =>
      cases connecting with
      | dialing addr => rfl
      | connected addr peerId added =>
        rw [count_whereabouts_store found]
        rfl
  | release peerId now =>
    simp only [answer, whereabouts, forgottenBy, count_append, count_accounted_release]
    rfl
  | remove peerId =>
    simp only [answer, whereabouts, forgottenBy, count_append, remove,
      count_accounted_close]
    rfl
  | evictIdle pass now =>
    simp only [answer, whereabouts, forgottenBy, count_append, count_accounted_evictIdleLocked]
    rfl

theorem len_answer_le (positive : 1 ≤ config.maxSize) (bounded : system.pool.len ≤ config.maxSize) (event : Event) :
    (answer config system event).2.pool.len ≤ config.maxSize := by
  cases event with
  | look call addr reading =>
    rw [answer]
    cases found : system.calls.lookup call with
    | some connecting => exact bounded
    | none =>
      have looked : (system.pool.look config reading addr).2.len ≤ config.maxSize :=
        le_trans (len_reuse_le reading addr)
          (le_trans len_evictIdleLocked_le bounded)
      simp only [look]
      split
      next reused pool same =>
        rw [same] at looked
        exact looked
      next pool same =>
        rw [same] at looked
        exact looked
  | dialed call outcome =>
    rw [answer]
    split
    · cases outcome with
      | none => exact bounded
      | some peerId => exact bounded
    · exact bounded
    · exact bounded
  | store call reading =>
    rw [answer]
    split
    · exact len_store_le reading _ _ positive bounded
    · exact bounded
    · exact bounded
  | release peerId now => exact le_trans (le_of_eq len_release) bounded
  | remove peerId => exact le_trans (len_close_le _) bounded
  | evictIdle pass now => exact le_trans len_evictIdleLocked_le bounded

end steps

def forgotten (config : PoolConfig) (events : List Event) : List ConnectionNumber :=
  ((machine config).met new events).flatMap fun entry => forgottenBy config entry.1 entry.2

theorem forgotten_concat (config : PoolConfig) (events : List Event) (event : Event) :
    forgotten config (events ++ [event]) =
      forgotten config events ++ forgottenBy config ((machine config).after new events) event := by
  rw [forgotten, Machine.met_concat, flatMap_append, flatMap_singleton, forgotten]

theorem count_whereabouts_after (config : PoolConfig) (events : List Event) (conn : ConnectionNumber) :
    ((machine config).after new events).whereabouts.count conn + (forgotten config events).count conn =
      (range ((machine config).after new events).established).count conn := by
  induction events using reverseRecOn with
  | nil => rfl
  | append_singleton events event ih =>
    have step := @count_whereabouts_answer config ((machine config).after new events) event conn
    rw [Machine.after_concat, forgotten_concat, count_append]
    show (answer config _ event).2.whereabouts.count conn + _ =
      (range (answer config _ event).2.established).count conn
    omega

theorem remembers_iff_accounted {system : PoolSystem} :
    system.Remembers ↔ ∀ conn < system.established, conn ∈ system.pool.accounted := by
  simp only [Remembers, accounted, mem_append]

theorem forgotten_eq_nil_iff (config : PoolConfig) (events : List Event)
    (quiet : ((machine config).after new events).calls.entries = []) :
    forgotten config events = [] ↔ ((machine config).after new events).Remembers := by
  have counts := count_whereabouts_after config events
  simp only [whereabouts, inHand, quiet, flatMap_nil, append_nil] at counts
  rw [remembers_iff_accounted]
  constructor
  · intro nothing conn early
    have once := counts conn
    rw [nothing, count_nil, count_eq_one_of_mem nodup_range (mem_range.mpr early)] at once
    exact count_pos_iff.mp (by omega)
  · intro accounted
    rw [eq_nil_iff_forall_not_mem]
    intro conn lost
    have once := counts conn
    have counted := count_pos_iff.mpr lost
    have atMost : (range ((machine config).after new events).established).count conn ≤ 1 :=
      nodup_iff_count_le_one.mp nodup_range conn
    have established : conn < ((machine config).after new events).established :=
      mem_range.mp (count_pos_iff.mp (by omega))
    have there := count_pos_iff.mpr (accounted conn established)
    omega

/-- Every established connection is stored or closed exactly if none was discarded after a failed
health check or replaced by another one to its peer. -/
theorem remembers_iff (config : PoolConfig) (positive : 1 ≤ config.maxSize) (events : List Event)
    (quiet : ((machine config).after new events).calls.entries = []) :
    (((machine config).after new events).Remembers ∧
        ((machine config).after new events).pool.len ≤ config.maxSize) ↔
      ∀ entry ∈ (machine config).met new events, forgottenBy config entry.1 entry.2 = [] := by
  have bounded := @Machine.invariant _ _ _ (machine config) new (fun _ system => system.pool.len ≤ config.maxSize)
    (zero_le _) (fun _ _ event within => len_answer_le positive within event) events
  rw [and_iff_left bounded, ← forgotten_eq_nil_iff config events quiet, forgotten,
    flatMap_eq_nil_iff]

def lookNow (call : Nat) : Event := .look call "a" ⟨.inOrder, 0, .inOrder, 0, true, 0⟩

def storeNow (call : Nat) : Event := .store call ⟨.inOrder, 0, .inOrder, 0⟩

/-- A connection is established, and reused by a second call. -/
theorem remembers_reused :
    ((machine {}).after new [lookNow 0, .dialed 0 (some (.filled 1)), storeNow 0, lookNow 1]).Remembers := by
  have remembers := remembers_iff {} (by decide) [lookNow 0, .dialed 0 (some (.filled 1)), storeNow 0, lookNow 1] rfl
  exact (remembers.mpr (by decide +kernel)).1

def raced : List Event :=
  [lookNow 0, lookNow 1, .dialed 0 (some (.filled 1)), .dialed 1 (some (.filled 1)), storeNow 0, storeNow 1]

/-- The second of them replaces the connection of the first one, and nothing closes it. -/
theorem raced_not_remembers :
    ((machine {}).after new raced).calls.entries = [] ∧ ¬ ((machine {}).after new raced).Remembers := by
  refine ⟨rfl, ?_⟩
  intro remembers
  rcases remembers 0 (by decide +kernel) with stored | closed
  · revert stored
    decide +kernel
  · revert closed
    decide +kernel

end PoolSystem

end Aafp.Sdk
