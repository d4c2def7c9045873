import Aafp.Foundation.Clock
import Aafp.Foundation.HashMap
import Aafp.Foundation.Machine
import Aafp.Identity.AgentId

/-! The pool of connections to peers. -/
namespace Aafp.Sdk

open Foundation Identity

/-- Connections are numbered in the order in which the pool establishes them. -/
abbrev ConnectionNumber := Nat

def healthCheckThreshold : Duration := .fromSecs 5

structure PooledConnection where
  conn : ConnectionNumber
  lastUsed : Instant
  addr : String

structure PoolConfig where
  maxSize : Nat := 100
  idleTimeout : Duration := .fromSecs 60

/-- The pool has closed a connection: `conn.close(0, reason)`. -/
structure Closing where
  conn : ConnectionNumber
  reason : String

structure ConnectionPool where
  connections : AList fun _ : AgentId => PooledConnection
  closings : List Closing

abbrev PoolPass := IterationOrder AgentId PooledConnection

namespace ConnectionPool

def new : ConnectionPool := ⟨∅, []⟩

def len (pool : ConnectionPool) : Nat := pool.connections.entries.length

def close (pool : ConnectionPool) (peerId : AgentId) (reason : String) : ConnectionPool :=
  match pool.connections.lookup peerId with
  | some pc => ⟨pool.connections.erase peerId, pool.closings ++ [⟨pc.conn, reason⟩]⟩
  | none => pool

def evictIdleLocked (pool : ConnectionPool) (config : PoolConfig) (pass : PoolPass) (now : Instant) :
    Nat × ConnectionPool :=
  let toEvict := ((pass.iterate pool.connections).filter fun entry =>
    now - entry.2.lastUsed > config.idleTimeout).map Sigma.fst
  (toEvict.length, toEvict.foldl (fun pool peerId => pool.close peerId "idle timeout") pool)

def release (pool : ConnectionPool) (peerId : AgentId) (now : Instant) : ConnectionPool :=
  match pool.connections.lookup peerId with
  | some pc => { pool with connections := pool.connections.insert peerId { pc with lastUsed := now } }
  | none => pool

def remove (pool : ConnectionPool) (peerId : AgentId) : ConnectionPool := pool.close peerId "pool removal"

/-- What the first lock section takes from elsewhere. `healthy` tells whether the test stream opens. -/
structure LookReading where
  evictPass : PoolPass
  evictedAt : Instant
  findPass : PoolPass
  checkedAt : Instant
  healthy : Bool
  usedAt : Instant

/-- The first connection to an address, in the order of the pass. -/
def findAddr (pool : ConnectionPool) (pass : PoolPass) (addr : String) :
    Option (Sigma fun _ : AgentId => PooledConnection) :=
  (pass.iterate pool.connections).find? fun entry => entry.2.addr = addr

def needsHealthCheck (pc : PooledConnection) (now : Instant) : Bool := now - pc.lastUsed > healthCheckThreshold

/-- A connection that fails the health check is taken out of the pool and not closed. -/
def reuse (pool : ConnectionPool) (reading : LookReading) (addr : String) :
    Option (AgentId × ConnectionNumber) × ConnectionPool :=
  match pool.findAddr reading.findPass addr with
  | none => (none, pool)
  | some entry =>
    if needsHealthCheck entry.2 reading.checkedAt then
      if reading.healthy then (some (entry.1, entry.2.conn), pool.release entry.1 reading.usedAt)
      else (none, { pool with connections := pool.connections.erase entry.1 })
    else (some (entry.1, entry.2.conn), pool.release entry.1 reading.usedAt)

/-- The first lock section of `get_or_connect`: the connection that is reused, if there is one. -/
def look (pool : ConnectionPool) (config : PoolConfig) (reading : LookReading) (addr : String) :
    Option (AgentId × ConnectionNumber) × ConnectionPool :=
  (pool.evictIdleLocked config reading.evictPass reading.evictedAt).2.reuse reading addr

structure StoreReading where
  evictPass : PoolPass
  evictedAt : Instant
  oldestPass : PoolPass
  insertedAt : Instant

/-- A full pool closes its least recently used connection. -/
def evictOldest (pool : ConnectionPool) (config : PoolConfig) (pass : PoolPass) : ConnectionPool :=
  if pool.len ≥ config.maxSize then
    match minBy (compareOn fun entry => entry.2.lastUsed) (pass.iterate pool.connections) with
    | some oldest => pool.close oldest.1 "pool eviction"
    | none => pool
  else pool

def makeRoom (pool : ConnectionPool) (config : PoolConfig) (reading : StoreReading) : ConnectionPool :=
  (pool.evictIdleLocked config reading.evictPass reading.evictedAt).2.evictOldest config reading.oldestPass

/-- The second lock section of `get_or_connect`. A connection that is stored for the peer is replaced and
not closed. -/
def store (pool : ConnectionPool) (config : PoolConfig) (reading : StoreReading) (addr : String) (peerId : AgentId)
    (conn : ConnectionNumber) : ConnectionPool :=
  let pool := pool.makeRoom config reading
  { pool with connections := pool.connections.insert peerId ⟨conn, reading.insertedAt, addr⟩ }

end ConnectionPool

/-- A call of `get_or_connect` between its lock sections. -/
inductive Connecting where
  | dialing (addr : String)
  | connected (addr : String) (peerId : AgentId) (conn : ConnectionNumber)

def Connecting.inHand : Connecting → List ConnectionNumber
  | .dialing _ => []
  | .connected _ _ conn => [conn]

/-- The pool, how many connections it has established, and the calls between their lock sections. -/
structure PoolSystem where
  pool : ConnectionPool
  established : Nat
  calls : AList fun _ : Nat => Connecting

namespace PoolSystem

inductive Event where
  | look (call : Nat) (addr : String) (reading : ConnectionPool.LookReading)
  /-- Dialing and the handshake fail, or give a connection to a peer. -/
  | dialed (call : Nat) (outcome : Option AgentId)
  | store (call : Nat) (reading : ConnectionPool.StoreReading)
  | release (peerId : AgentId) (now : Instant)
  | remove (peerId : AgentId)
  | evictIdle (pass : PoolPass) (now : Instant)

inductive Answer where
  | none
  | failed
  | connection (peerId : AgentId) (conn : ConnectionNumber)
  | evicted (count : Nat)

def new : PoolSystem := ⟨.new, 0, ∅⟩

def look (system : PoolSystem) (config : PoolConfig) (call : Nat) (addr : String)
    (reading : ConnectionPool.LookReading) : Answer × PoolSystem :=
  match system.pool.look config reading addr with
  | (some found, pool) => (.connection found.1 found.2, { system with pool })
  | (none, pool) => (.none, { system with pool, calls := system.calls.insert call (.dialing addr) })

def dialed (system : PoolSystem) (call : Nat) (addr : String) : Option AgentId → Answer × PoolSystem
  | none => (.failed, { system with calls := system.calls.erase call })
  | some peerId =>
    (.none, { system with
      established := system.established + 1
      calls := system.calls.insert call (.connected addr peerId system.established) })

def store (system : PoolSystem) (config : PoolConfig) (call : Nat) (reading : ConnectionPool.StoreReading)
    (addr : String) (peerId : AgentId) (conn : ConnectionNumber) : Answer × PoolSystem :=
  (.connection peerId conn, { system with
    pool := system.pool.store config reading addr peerId conn
    calls := system.calls.erase call })

/-- A call takes its next step only when it is due. -/
def answer (config : PoolConfig) (system : PoolSystem) : Event → Answer × PoolSystem
  | .look call addr reading =>
    match system.calls.lookup call with
    | some _ => (.none, system)
    | none => system.look config call addr reading
  | .dialed call outcome =>
    match system.calls.lookup call with
    | some (.dialing addr) => system.dialed call addr outcome
    | some (.connected ..) => (.none, system)
    | none => (.none, system)
  | .store call reading =>
    match system.calls.lookup call with
    | some (.connected addr peerId conn) => system.store config call reading addr peerId conn
    | some (.dialing _) => (.none, system)
    | none => (.none, system)
  | .release peerId now => (.none, { system with pool := system.pool.release peerId now })
  | .remove peerId => (.none, { system with pool := system.pool.remove peerId })
  | .evictIdle pass now =>
    let evicted := system.pool.evictIdleLocked config pass now
    (.evicted evicted.1, { system with pool := evicted.2 })

def machine (config : PoolConfig) : Machine Event Answer PoolSystem := ⟨answer config⟩

end PoolSystem

end Aafp.Sdk
