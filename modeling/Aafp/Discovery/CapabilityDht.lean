import Aafp.Foundation.HashMap
import Aafp.Identity.AgentRecord

/-! The capability table of one node. -/
namespace Aafp.Discovery

open Foundation Identity

def maxRecords : Nat := 100000

/-- An order in which the record table is visited. -/
abbrev RecordOrder := IterationOrder AgentId AgentRecord

abbrev CapabilityIndex := AList fun _ : String => HashSet AgentId

namespace CapabilityIndex

/-- Take an agent out of the set of a capability, and drop the set if it is empty then. -/
def remove (agentId : AgentId) (index : CapabilityIndex) (cap : CapabilityDescriptor) : CapabilityIndex :=
  match index.lookup cap.name with
  | none => index
  | some agents =>
    let agents := agents.erase agentId
    if agents.keys.isEmpty then index.erase cap.name else index.insert cap.name agents

def add (agentId : AgentId) (index : CapabilityIndex) (cap : CapabilityDescriptor) : CapabilityIndex :=
  let agents := (index.lookup cap.name).getD ∅
  index.insert cap.name (agents.insert agentId ())

def removeAll (index : CapabilityIndex) (record : AgentRecord) (agentId : AgentId) : CapabilityIndex :=
  record.capabilities.foldl (remove agentId) index

def addAll (index : CapabilityIndex) (record : AgentRecord) (agentId : AgentId) : CapabilityIndex :=
  record.capabilities.foldl (add agentId) index

end CapabilityIndex

structure CapabilityDht where
  index : CapabilityIndex
  records : AList fun _ : AgentId => AgentRecord
  keyed : ∀ agentId record, records.lookup agentId = some record → record.agentId = agentId

namespace CapabilityDht

def new : CapabilityDht where
  index := ∅
  records := ∅
  keyed := forall_lookup_empty

variable (dht : CapabilityDht)

def len : Nat := dht.records.keys.length

def getById (agentId : AgentId) : Option AgentRecord :=
  dht.records.lookup agentId

/-- Records are compared by the time of their creation, not by their version. -/
def put (record : AgentRecord) : Bool × CapabilityDht :=
  let agentId := record.agentId
  let newer : Bool := match dht.getById agentId with
    | some existing => existing.createdAt > record.createdAt
    | none => false
  let index := match dht.getById agentId with
    | some existing => dht.index.removeAll existing agentId
    | none => dht.index
  if newer then (false, dht)
  else if dht.len ≥ maxRecords ∧ agentId ∉ dht.records then (false, { dht with index })
  else (true, {
    index := index.addAll record agentId
    records := dht.records.insert agentId record
    keyed := forall_lookup_insert dht.keyed rfl })

def get (pass : IterationOrder AgentId Unit) (capability : String) :
    List AgentRecord :=
  match dht.index.lookup capability with
  | some agents => (pass.members agents).filterMap dht.getById
  | none => []

/-- The agents that are in the sets of all capabilities; there is none for no capability. -/
def agentsWithAll (capabilities : List String) : Option (HashSet AgentId) :=
  capabilities.foldl (fun found capability =>
    let agents := (dht.index.lookup capability).getD ∅
    some (match found with
      | none => agents
      | some existing => HashSet.insertAll ∅ (existing.keys.filter fun agentId => agentId ∈ agents))) none

def getAll (pass : IterationOrder AgentId Unit) (capabilities : List String) :
    List AgentRecord :=
  (pass.members ((dht.agentsWithAll capabilities).getD ∅)).filterMap dht.getById

def removeById (agentId : AgentId) : Bool × CapabilityDht :=
  match dht.getById agentId with
  | some record => (true, {
      index := dht.index.removeAll record agentId
      records := dht.records.erase agentId
      keyed := fun stored other found => dht.keyed stored other (lookup_of_lookup_erase found) })
  | none => (false, dht)

def expiredIds (pass : RecordOrder) (now : UInt64) :
    List AgentId :=
  ((pass.iterate dht.records).filter fun entry => entry.2.isExpired now).map Sigma.fst

def evictExpired (pass : RecordOrder) (now : UInt64) :
    Nat × CapabilityDht :=
  let expired := dht.expiredIds pass now
  (expired.length, expired.foldl (fun dht agentId => (dht.removeById agentId).2) dht)

/-- A record that is not older by its creation than the stored one, or finds room. -/
def admits (record : AgentRecord) : Bool :=
  match dht.getById record.agentId with
  | some existing => existing.createdAt ≤ record.createdAt
  | none => dht.len < maxRecords

variable {dht : CapabilityDht}

theorem put_of_admits (admitted : dht.admits record = true) :
    (dht.put record).1 = true ∧
      (dht.put record).2.records = dht.records.insert record.agentId record := by
  unfold admits at admitted
  cases found : dht.getById record.agentId with
  | none =>
    have room : ¬ maxRecords ≤ dht.len := by simpa [found] using admitted
    simp [put, found, room]
  | some existing =>
    have notNewer : ¬ record.createdAt < existing.createdAt := by simpa [found] using admitted
    have present : record.agentId ∈ dht.records := mem_iff_lookup.mpr ⟨existing, found⟩
    simp [put, found, notNewer, present]

theorem put_of_not_admits (refused : dht.admits record = false) :
    (dht.put record).1 = false ∧ (dht.put record).2.records = dht.records := by
  unfold admits at refused
  cases found : dht.getById record.agentId with
  | none =>
    have full : maxRecords ≤ dht.len := by simpa [found] using refused
    have absent : record.agentId ∉ dht.records := AList.lookup_eq_none.mp found
    simp [put, found, full, absent]
  | some existing =>
    have newer : record.createdAt < existing.createdAt := by simpa [found] using refused
    simp [put, found, newer]

theorem getById_of_removeById (found : (dht.removeById removed).2.getById agentId = some record) :
    dht.getById agentId = some record := by
  unfold removeById at found
  split at found
  · exact lookup_of_lookup_erase found
  · exact found

theorem getById_of_evictExpired {pass : RecordOrder}
    (found : (dht.evictExpired pass now).2.getById agentId = some record) : dht.getById agentId = some record := by
  unfold evictExpired at found
  generalize dht.expiredIds pass now = expired at found
  induction expired generalizing dht with
  | nil => exact found
  | cons first expired ih => exact getById_of_removeById (ih found)

end CapabilityDht

end Aafp.Discovery
