import Aafp.Discovery.CapabilityDht
import Aafp.Foundation.Interleaving

/-! A capability table in shards. -/
namespace Aafp.Discovery

open Foundation Identity

def dhtShardCount : Nat := 256

abbrev DhtShardSnapshot := CapabilityDht

deriving instance DecidableEq for CapabilityDht

/-- A snapshot with the record in it, unless the stored one is newer, or the agent is new and the
shard is full. -/
def DhtShardSnapshot.withRecord (current : DhtShardSnapshot) (maxPerShard : Nat) (record : AgentRecord) :
    Option DhtShardSnapshot :=
  let agentId := record.agentId
  let newer : Bool := match current.getById agentId with
    | some existing => existing.createdAt > record.createdAt
    | none => false
  let index := match current.getById agentId with
    | some existing => current.index.removeAll existing agentId
    | none => current.index
  if newer then none
  else if current.len ≥ maxPerShard ∧ agentId ∉ current.records then none
  else some {
    index := index.addAll record agentId
    records := current.records.insert agentId record
    keyed := forall_lookup_insert current.keyed rfl }

/-- A store knows nothing of the snapshot `current`: it is there for statements about runs only. -/
inductive ShardCall (shardCount : Nat) where
  | load (shard : Fin shardCount)
  | store (shard : Fin shardCount) (current newSnapshot : DhtShardSnapshot)

abbrev ShardAccess (shardCount : Nat) : Interface where
  Call := ShardCall shardCount
  Answer
    | .load _ => DhtShardSnapshot
    | .store _ _ _ => Unit

structure ArcSwapDht (shardCount : Nat) where
  shards : Fin shardCount → DhtShardSnapshot

/-- A remainder by zero: there is no shard. -/
inductive DhtPanic where
  | noShards

namespace ArcSwapDht

variable {shardCount : Nat}

def withShardCount (shardCount : Nat) : ArcSwapDht shardCount := ⟨fun _ => CapabilityDht.new⟩

/-- The first eight bytes of an agent id, little-endian, modulo the number of shards. -/
def shardIndex (shardCount : Nat) (agentId : AgentId) : Except DhtPanic (Fin shardCount) :=
  if positive : 0 < shardCount then
    .ok ⟨ofBigEndian (agentId.1.take 8).reverse % shardCount, Nat.mod_lt _ positive⟩
  else .error .noShards

def maxPerShard (shardCount : Nat) : Nat := maxRecords / max shardCount 1

def getById (dht : ArcSwapDht shardCount) (agentId : AgentId) : Except DhtPanic (Option AgentRecord) := do
  let shard ← shardIndex shardCount agentId
  .ok ((dht.shards shard).getById agentId)

def replace (dht : ArcSwapDht shardCount) (shard : Fin shardCount) (newSnapshot : DhtShardSnapshot) :
    ArcSwapDht shardCount :=
  ⟨Function.update dht.shards shard newSnapshot⟩

def serve : Unit → Event (ShardAccess shardCount) → ArcSwapDht shardCount → Option (ArcSwapDht shardCount)
  | (), ⟨.load shard, snapshot⟩, dht => if dht.shards shard = snapshot then some dht else none
  | (), ⟨.store shard _ newSnapshot, ()⟩, dht => some (dht.replace shard newSnapshot)

abbrev Access (shardCount : Nat) := Program (ShardAccess shardCount) DhtPanic

def load (shard : Fin shardCount) : Access shardCount DhtShardSnapshot :=
  .query (.load shard : ShardCall shardCount) .ok

def store (shard : Fin shardCount) (current newSnapshot : DhtShardSnapshot) : Access shardCount Unit :=
  .query (.store shard current newSnapshot : ShardCall shardCount) .ok

def put (record : AgentRecord) : Access shardCount Bool := do
  let shard ← .done (shardIndex shardCount record.agentId)
  let current ← load shard
  match current.withRecord (maxPerShard shardCount) record with
  | none => pure false
  | some newSnapshot =>
    store shard current newSnapshot
    pure true

/-- A shard without an expired record is not stored. -/
def evictShards (pass : RecordOrder) (now : UInt64) :
    List (Fin shardCount) → Nat → Access shardCount Nat
  | [], total => pure total
  | shard :: shards, total => do
    let current ← load shard
    let (count, newSnapshot) := current.evictExpired pass now
    if count > 0 then store shard current newSnapshot
    evictShards pass now shards (total + count)

def evictExpired (pass : RecordOrder) (now : UInt64) : Access shardCount Nat :=
  evictShards pass now (List.finRange shardCount) 0

end ArcSwapDht

theorem DhtShardSnapshot.newer_or_full {current : DhtShardSnapshot}
    (refused : current.withRecord maxPerShard record = none) :
    (∃ existing, current.getById record.agentId = some existing ∧ record.createdAt < existing.createdAt) ∨
      (maxPerShard ≤ current.len ∧ record.agentId ∉ current.records) := by
  cases found : current.getById record.agentId with
  | none =>
    right
    have absent : record.agentId ∉ current.records := AList.lookup_eq_none.mp found
    by_contra roomy
    simp [withRecord, found, absent] at refused roomy
    omega
  | some existing =>
    left
    refine ⟨existing, rfl, ?_⟩
    have present : record.agentId ∈ current.records := mem_iff_lookup.mpr ⟨existing, found⟩
    simpa [withRecord, found, present] using refused

theorem DhtShardSnapshot.withRecord_eq_some {current : DhtShardSnapshot}
    (taken : current.withRecord maxPerShard record = some newSnapshot) :
    newSnapshot.records = current.records.insert record.agentId record ∧
      ∀ existing, current.getById record.agentId = some existing → existing.createdAt ≤ record.createdAt := by
  cases found : current.getById record.agentId with
  | none =>
    simp only [withRecord, found] at taken
    split at taken
    · simp at taken
    · split at taken
      · cases taken
      · cases taken
        exact ⟨rfl, by simp⟩
  | some existing =>
    simp only [withRecord, found] at taken
    split at taken
    · simp at taken
    next notNewer =>
      split at taken
      · cases taken
      · cases taken
        exact ⟨rfl, by simpa using notNewer⟩

theorem CapabilityDht.evictExpired_of_none_expired {dht : CapabilityDht} {pass : RecordOrder}
    (none : ∀ agentId record, dht.getById agentId = some record → record.isExpired now = false) :
    (dht.evictExpired pass now).1 = 0 := by
  have nothing : dht.expiredIds pass now = [] := by
    rw [expiredIds, List.map_eq_nil_iff, List.filter_eq_nil_iff]
    intro entry mem
    simp [none entry.1 entry.2 (mem_iterate.mp mem)]
  simp [evictExpired, nothing]

namespace ArcSwapDht

variable {shardCount : Nat}

variable {dht : ArcSwapDht shardCount}

theorem getById_eq_ok_iff : dht.getById agentId = .ok found ↔
      ∃ shard, shardIndex shardCount agentId = .ok shard ∧ (dht.shards shard).getById agentId = found := by
  unfold getById
  cases shardIndex shardCount agentId with
  | error panic => simp [bind, Except.bind]
  | ok shard => simp [bind, Except.bind]

@[simp] theorem shards_replace (dht : ArcSwapDht shardCount) (shard : Fin shardCount)
    (newSnapshot : DhtShardSnapshot) : (dht.replace shard newSnapshot).shards shard = newSnapshot :=
  Function.update_self ..

theorem shards_replace_of_ne (apart : place ≠ shard) :
    (dht.replace shard newSnapshot).shards place = dht.shards place :=
  Function.update_of_ne apart ..

theorem getById_replace (home : shardIndex shardCount record.agentId = .ok shard)
    (records : newSnapshot.records = (dht.shards shard).records.insert record.agentId record) (agentId : AgentId) :
    (dht.replace shard newSnapshot).getById agentId =
      if agentId = record.agentId then .ok (some record) else dht.getById agentId := by
  split
  next same =>
    subst same
    refine getById_eq_ok_iff.mpr ⟨shard, home, ?_⟩
    simp [CapabilityDht.getById, records]
  next apart =>
    unfold getById
    cases shardIndex shardCount agentId with
    | error panic => rfl
    | ok place =>
      by_cases here : place = shard
      · subst here
        simp [CapabilityDht.getById, records, AList.lookup_insert_ne apart]
      · simp [shards_replace_of_ne here]

theorem serve_load
    (served : serve reading ⟨.load shard, answer⟩ dht = some after) : answer = dht.shards shard ∧ after = dht := by
  change (if dht.shards shard = answer then some dht else none) = some after at served
  split at served
  next same => exact ⟨same.symm, (Option.some.inj served).symm⟩
  · cases served

end ArcSwapDht

end Aafp.Discovery
