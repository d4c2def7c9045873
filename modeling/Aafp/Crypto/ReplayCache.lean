import Aafp.Foundation.Clock
import Aafp.Foundation.HashMap
import Aafp.Crypto.Messages

/-! The replay cache: a bounded set of handshake nonces, each kept for the retention window. -/
namespace Aafp.Crypto

open Foundation List

def defaultRetention : Duration := .fromSecs 300

def defaultMaxEntries : Nat := 100000

inductive NonceReuseError where
  | nonceReuse
deriving DecidableEq

structure Entry where
  expiresAt : Instant
  lastAccessed : Instant
deriving DecidableEq

def Entry.isExpired (entry : Entry) (now : Instant) : Bool := now ≥ entry.expiresAt

abbrev CacheKey := { bytes : List UInt8 // bytes.length = 64 }

def makeKey (agentId : List UInt8) (nonce : Bytes32) : CacheKey :=
  ⟨agentId.take 32 ++ replicate (32 - agentId.length) 0 ++ nonce.1, by
    simp only [length_append, length_take, length_replicate, nonce.2]
    omega⟩

/-- Normative nonce replay cache (RFC-0002 §6.7). -/
structure ReplayCache where
  entries : AList fun _ : CacheKey => Entry
  lazyEvictBatch : Nat
  retention : Duration
  maxEntries : Nat

/-- What an operation reads: the clock on entry and when the eviction of a live entry starts, and
the order of its passes. -/
structure Reading where
  now : Instant
  lruStart : Instant
  pass : IterationOrder CacheKey Entry

namespace ReplayCache

def withParamsUnchecked (retention : Duration) (maxEntries : Nat) : ReplayCache :=
  { entries := ∅, lazyEvictBatch := 64, retention, maxEntries }

def new : ReplayCache := withParamsUnchecked defaultRetention defaultMaxEntries

variable (cache : ReplayCache)

def len : Nat := cache.entries.entries.length

def lookup (cache : ReplayCache) (key : CacheKey) : Option Entry := cache.entries.lookup key

def remove (key : CacheKey) : ReplayCache :=
  { cache with entries := cache.entries.erase key }

def put (key : CacheKey) (entry : Entry) : ReplayCache :=
  { cache with entries := cache.entries.insert key entry }

variable (reading : Reading)

/-- Scan the first entries of a pass and remove the expired ones, once the cache
is more than half full. -/
def lazyEvict : ReplayCache :=
  if cache.len ≤ cache.maxEntries / 2 then cache
  else
    let scanned := (reading.pass.iterate cache.entries).take cache.lazyEvictBatch
    let toRemove := (scanned.filter fun entry => entry.2.isExpired reading.now).map Sigma.fst
    { cache with entries := eraseAll cache.entries toRemove }

def evictLru : ReplayCache :=
  match (reading.pass.iterate cache.entries).find? fun entry => entry.2.isExpired reading.now with
  | some expired => cache.remove expired.1
  | none =>
    match (scanLeast Entry.lastAccessed reading.lruStart (reading.pass.iterate cache.entries)).1 with
    | some lru => cache.remove lru
    | none => cache

/-- Check if `(agent_id, nonce)` is a replay. -/
def check (agentId : List UInt8) (nonce : Bytes32) :
    Bool × ReplayCache :=
  let key := makeKey agentId nonce
  let cache := cache.lazyEvict reading
  match cache.lookup key with
  | some entry =>
    if entry.isExpired reading.now then (false, cache.remove key)
    else (true, cache.put key { entry with lastAccessed := reading.now })
  | none => (false, cache)

def freshEntry (now : Instant) : Entry :=
  { expiresAt := now + cache.retention, lastAccessed := now }

def checkAndInsert (agentId : List UInt8) (nonce : Bytes32) :
    Except NonceReuseError Unit × ReplayCache :=
  let key := makeKey agentId nonce
  let cache := cache.lazyEvict reading
  let admitted := match cache.lookup key with
    | some entry => if entry.isExpired reading.now then some (cache.remove key) else none
    | none => some cache
  match admitted with
  | none => (.error .nonceReuse, cache)
  | some cache =>
    let cache := if cache.len ≥ cache.maxEntries then cache.evictLru reading else cache
    (.ok (), cache.put key (cache.freshEntry reading.now))

/-- Insert a nonce without checking. -/
def insert (agentId : List UInt8) (nonce : Bytes32) :
    ReplayCache :=
  let key := makeKey agentId nonce
  let cache := cache.lazyEvict reading
  let cache := if cache.lookup key = none ∧ cache.len ≥ cache.maxEntries then cache.evictLru reading
    else cache
  cache.put key (cache.freshEntry reading.now)

/-- Evict all expired entries. -/
def evictExpired : Nat × ReplayCache :=
  let swept := { cache with entries := retain (fun entry => !entry.isExpired reading.now) cache.entries }
  (cache.len - swept.len, swept)

def clear : ReplayCache := { cache with entries := ∅ }

end ReplayCache

end Aafp.Crypto
