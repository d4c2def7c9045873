import Aafp.Discovery.CapabilityDht

/-! The index and the record table of a capability table, over all of its runs. -/
namespace Aafp.Discovery

open Foundation Identity

def Lists (record : AgentRecord) (capability : String) : Prop :=
  ∃ cap ∈ record.capabilities, cap.name = capability

namespace CapabilityIndex

def Holds (index : CapabilityIndex) (capability : String) (agentId : AgentId) : Prop :=
  ∃ agents, index.lookup capability = some agents ∧ agentId ∈ agents

def NoEmptySet (index : CapabilityIndex) : Prop :=
  ∀ capability agents, index.lookup capability = some agents → agents ≠ ∅

variable {index : CapabilityIndex} {agentId : AgentId}

variable {agents : HashSet AgentId} {cap : CapabilityDescriptor}

theorem holds_insert : Holds (index.insert changed agents) capability agentId ↔
      if capability = changed then agentId ∈ agents else index.Holds capability agentId := by
  simp only [Holds, lookup_insert_ite, @eq_comm _ capability]
  split <;> simp

theorem holds_erase : Holds (index.erase changed) capability agentId ↔
    capability ≠ changed ∧ index.Holds capability agentId := by
  unfold Holds
  by_cases same : capability = changed
  · subst same
    simp
  · simp [same, AList.lookup_erase_ne same]

private theorem keys_isEmpty_iff : agents.keys.isEmpty = true ↔ agents = ∅ := by
  rw [List.isEmpty_iff, AList.keys, List.keys, List.map_eq_nil_iff, AList.ext_iff]
  rfl

theorem holds_remove : (remove removed index cap).Holds capability agentId ↔
      index.Holds capability agentId ∧ ¬ (cap.name = capability ∧ agentId = removed) := by
  unfold remove
  cases found : index.lookup cap.name with
  | none =>
    refine (and_iff_left_of_imp ?_).symm
    rintro ⟨agents, held, -⟩ ⟨rfl, -⟩
    rw [found] at held
    cases held
  | some agents =>
    have there : index.Holds cap.name agentId ↔ agentId ∈ agents := by simp [Holds, found]
    dsimp only
    split
    next emptied =>
      have single : ∀ other, other ∈ agents → other = removed := by
        intro other mem
        by_contra apart
        have left : other ∈ agents.erase removed := AList.mem_erase.mpr ⟨apart, mem⟩
        rw [keys_isEmpty_iff.mp emptied] at left
        cases left
      rw [holds_erase]
      by_cases same : cap.name = capability
      · subst same
        rw [there]
        simpa using single agentId
      · simp [same, Ne.symm same]
    · rw [holds_insert]
      by_cases same : cap.name = capability
      · subst same
        rw [there]
        simp [and_comm]
      · simp [same, Ne.symm same]

theorem holds_add : (add added index cap).Holds capability agentId ↔
      index.Holds capability agentId ∨ (cap.name = capability ∧ agentId = added) := by
  unfold add
  rw [holds_insert]
  by_cases same : cap.name = capability
  · subst same
    cases found : index.lookup cap.name with
    | none =>
      rw [AList.mem_insert]
      simp [Holds, found]
    | some agents => simp [Holds, found, or_comm]
  · simp [same, Ne.symm same]

theorem holds_removeAll : (index.removeAll record removed).Holds capability agentId ↔
      index.Holds capability agentId ∧ ¬ (Lists record capability ∧ agentId = removed) := by
  unfold removeAll Lists
  induction record.capabilities generalizing index with
  | nil => simp
  | cons cap caps ih =>
    rw [List.foldl_cons, ih, holds_remove, and_assoc, ← not_or, ← or_and_right]
    simp

theorem holds_addAll : (index.addAll record added).Holds capability agentId ↔
      index.Holds capability agentId ∨ (Lists record capability ∧ agentId = added) := by
  unfold addAll Lists
  induction record.capabilities generalizing index with
  | nil => simp
  | cons cap caps ih =>
    rw [List.foldl_cons, ih, holds_add, or_assoc, ← or_and_right]
    simp

section

variable (before : index.NoEmptySet)
include before

theorem noEmptySet_insert (filled : agents ≠ ∅) : NoEmptySet (index.insert changed agents) :=
  forall_lookup_insert before filled

theorem noEmptySet_remove : (remove removed index cap).NoEmptySet := by
  unfold remove
  cases found : index.lookup cap.name with
  | none => exact before
  | some agents =>
    dsimp only
    split
    · intro capability others held
      exact before capability others (lookup_of_lookup_erase held)
    next filled => exact noEmptySet_insert before (mt keys_isEmpty_iff.mpr filled)

theorem noEmptySet_add : (add added index cap).NoEmptySet := by
  apply noEmptySet_insert before
  intro emptied
  have mem : added ∈ ((index.lookup cap.name).getD ∅).insert added () := by simp
  rw [emptied] at mem
  cases mem

theorem noEmptySet_removeAll (record : AgentRecord) (removed : AgentId) :
    (index.removeAll record removed).NoEmptySet := by
  unfold removeAll
  induction record.capabilities generalizing index with
  | nil => exact before
  | cons cap caps ih => exact ih (noEmptySet_remove before)

theorem noEmptySet_addAll (record : AgentRecord) (added : AgentId) : (index.addAll record added).NoEmptySet := by
  unfold addAll
  induction record.capabilities generalizing index with
  | nil => exact before
  | cons cap caps ih => exact ih (noEmptySet_add before)

end

end CapabilityIndex

namespace CapabilityDht

/-- The index and the record table say the same, and the table is not over its capacity. -/
structure Consistent (dht : CapabilityDht) : Prop where
  indexed : ∀ capability agentId, dht.index.Holds capability agentId ↔
    ∃ record, dht.getById agentId = some record ∧ Lists record capability
  noEmptySet : dht.index.NoEmptySet
  bounded : dht.len ≤ maxRecords

theorem consistent_new : new.Consistent where
  indexed capability agentId := by simp [CapabilityIndex.Holds, getById, new]
  noEmptySet := forall_lookup_empty
  bounded := Nat.zero_le _

variable {dht : CapabilityDht}

private theorem holds_others (consistent : dht.Consistent) (found : dht.getById removed = some record) :
    (dht.index.removeAll record removed).Holds capability agentId ↔
      agentId ≠ removed ∧ ∃ other, dht.getById agentId = some other ∧ Lists other capability := by
  rw [CapabilityIndex.holds_removeAll, consistent.indexed]
  by_cases same : agentId = removed
  · subst same
    simp [found]
  · simp [same]

private theorem consistent_replace (index : CapabilityIndex) (record : AgentRecord) {changed : CapabilityDht}
    (others : ∀ capability agentId, index.Holds capability agentId ↔ agentId ≠ record.agentId ∧
      ∃ other, dht.getById agentId = some other ∧ Lists other capability)
    (noEmptySet : index.NoEmptySet) (bounded : changed.len ≤ maxRecords)
    (indexed : changed.index = index.addAll record record.agentId)
    (inserted : changed.records = dht.records.insert record.agentId record) : changed.Consistent where
  indexed capability agentId := by
    have stored : changed.getById agentId = (dht.records.insert record.agentId record).lookup agentId := by
      rw [getById, inserted]
    rw [indexed, CapabilityIndex.holds_addAll, stored, lookup_insert_ite]
    split <;> grind [getById]
  noEmptySet := by
    rw [indexed]
    exact CapabilityIndex.noEmptySet_addAll noEmptySet record record.agentId
  bounded := bounded

private theorem len_eq (dht : CapabilityDht) : dht.len = dht.records.entries.length := List.length_map _

theorem consistent_put (consistent : dht.Consistent) (record : AgentRecord) : (dht.put record).2.Consistent := by
  cases admitted : dht.admits record with
  | false =>
    -- a refusal for lack of room takes nothing out of the index: the agent has no record
    have same : (dht.put record).2 = dht := by
      unfold admits at admitted
      cases found : dht.getById record.agentId with
      | none =>
        have full : maxRecords ≤ dht.len := by simpa [found] using admitted
        have absent : record.agentId ∉ dht.records := AList.lookup_eq_none.mp found
        simp [put, found, full, absent]
      | some existing =>
        have newer : record.createdAt < existing.createdAt := by simpa [found] using admitted
        simp [put, found, newer]
    rwa [same]
  | true =>
    have inserted := (put_of_admits admitted).2
    unfold admits at admitted
    cases found : dht.getById record.agentId with
    | none =>
      have room : dht.len < maxRecords := by simpa [found] using admitted
      have absent : record.agentId ∉ dht.records := AList.lookup_eq_none.mp found
      refine consistent_replace dht.index record ?_ consistent.noEmptySet ?_ ?_ inserted
      · intro capability agentId
        rw [consistent.indexed]
        by_cases same : agentId = record.agentId
        · subst same
          simp [found]
        · simp [same]
      · rw [len_eq, inserted, length_insert_of_notMem absent, ← len_eq]
        exact room
      · simp [put, found, Nat.not_le.mpr room]
    | some existing =>
      have notNewer : ¬ record.createdAt < existing.createdAt := by simpa [found] using admitted
      have present : record.agentId ∈ dht.records := mem_iff_lookup.mpr ⟨existing, found⟩
      refine consistent_replace (dht.index.removeAll existing record.agentId) record ?_ ?_ ?_ ?_ inserted
      · intro capability agentId
        exact holds_others consistent found
      · exact CapabilityIndex.noEmptySet_removeAll consistent.noEmptySet existing record.agentId
      · rw [len_eq, inserted, length_insert_of_mem present, ← len_eq]
        exact consistent.bounded
      · simp [put, found, notNewer, present]

theorem consistent_removeById (consistent : dht.Consistent) (removed : AgentId) :
    (dht.removeById removed).2.Consistent := by
  unfold removeById
  cases found : dht.getById removed with
  | none => exact consistent
  | some record =>
    refine ⟨?_, CapabilityIndex.noEmptySet_removeAll consistent.noEmptySet record removed, ?_⟩
    · intro capability agentId
      rw [holds_others consistent found]
      by_cases same : agentId = removed
      · subst same
        simp [getById]
      · simp [same, getById, AList.lookup_erase_ne same]
    · have smaller := length_erase_add_one (mem_iff_lookup.mpr ⟨record, found⟩)
      have bounded := consistent.bounded
      rw [len_eq] at bounded ⊢
      dsimp only
      omega

theorem consistent_evictExpired (consistent : dht.Consistent) (pass : RecordOrder)
    (now : UInt64) : (dht.evictExpired pass now).2.Consistent := by
  unfold evictExpired
  generalize dht.expiredIds pass now = expired
  induction expired generalizing dht with
  | nil => exact consistent
  | cons first expired ih => exact ih (consistent_removeById consistent first)

inductive Change where
  | put (record : AgentRecord)
  | removeById (agentId : AgentId)
  | evictExpired (pass : RecordOrder) (now : UInt64)

def change (dht : CapabilityDht) : Change → CapabilityDht
  | .put record => (dht.put record).2
  | .removeById agentId => (dht.removeById agentId).2
  | .evictExpired pass now => (dht.evictExpired pass now).2

theorem consistent_change (consistent : dht.Consistent) (call : Change) : (dht.change call).Consistent := by
  cases call with
  | put record => exact consistent_put consistent record
  | removeById agentId => exact consistent_removeById consistent agentId
  | evictExpired pass now => exact consistent_evictExpired consistent pass now

private theorem mem_recordsOf {agents : List AgentId} : record ∈ agents.filterMap dht.getById ↔
      record.agentId ∈ agents ∧ dht.getById record.agentId = some record := by
  rw [List.mem_filterMap]
  constructor
  · intro ⟨agentId, mem, found⟩
    obtain rfl := dht.keyed agentId record found
    exact ⟨mem, found⟩
  · intro ⟨mem, found⟩
    exact ⟨record.agentId, mem, found⟩

private theorem nodup_recordsOf {agents : List AgentId} (distinct : agents.Nodup) :
    (agents.filterMap dht.getById).Nodup := by
  apply distinct.filterMap
  intro first second record foundFirst foundSecond
  rw [← dht.keyed first record foundFirst, ← dht.keyed second record foundSecond]

theorem mem_get (consistent : dht.Consistent) {pass : IterationOrder AgentId Unit} :
    record ∈ dht.get pass capability ↔ dht.getById record.agentId = some record ∧ Lists record capability := by
  have held := consistent.indexed capability record.agentId
  unfold get
  cases found : dht.index.lookup capability with
  | none =>
    simp only [CapabilityIndex.Holds, found, reduceCtorEq, false_and, exists_false, false_iff] at held
    simp only [List.not_mem_nil, false_iff]
    intro ⟨stored, lists⟩
    exact held ⟨record, stored, lists⟩
  | some agents =>
    simp only [CapabilityIndex.Holds, found, Option.some.injEq, exists_eq_left'] at held
    rw [mem_recordsOf, IterationOrder.mem_members, held]
    constructor
    · intro ⟨⟨other, storedOther, lists⟩, stored⟩
      cases storedOther.symm.trans stored
      exact ⟨stored, lists⟩
    · intro ⟨stored, lists⟩
      exact ⟨⟨record, stored, lists⟩, stored⟩

theorem nodup_get (dht : CapabilityDht) (pass : IterationOrder AgentId Unit) (capability : String) :
    (dht.get pass capability).Nodup := by
  unfold get
  split
  · exact nodup_recordsOf pass.nodup_members
  · exact List.nodup_nil

def narrow (dht : CapabilityDht) (found : Option (HashSet AgentId)) (capability : String) :
    Option (HashSet AgentId) :=
  let agents := (dht.index.lookup capability).getD ∅
  some (match found with
    | none => agents
    | some existing => HashSet.insertAll ∅ (existing.keys.filter fun agentId => agentId ∈ agents))

private theorem mem_looked : agentId ∈ (dht.index.lookup capability).getD ∅ ↔
    dht.index.Holds capability agentId := by
  cases looked : dht.index.lookup capability <;> simp [CapabilityIndex.Holds, looked]

private theorem mem_narrowed (dht : CapabilityDht) (capabilities : List String) (agents : HashSet AgentId) :
    ∃ found, capabilities.foldl dht.narrow (some agents) = some found ∧
      ∀ agentId, agentId ∈ found ↔ agentId ∈ agents ∧
        ∀ capability ∈ capabilities, dht.index.Holds capability agentId := by
  induction capabilities generalizing agents with
  | nil => exact ⟨agents, rfl, by simp⟩
  | cons first capabilities ih =>
    obtain ⟨found, folded, each⟩ := ih
      (HashSet.insertAll ∅ (agents.keys.filter fun agentId =>
        agentId ∈ (dht.index.lookup first).getD ∅))
    refine ⟨found, folded, fun agentId => ?_⟩
    rw [each, HashSet.mem_insertAll, List.mem_filter, decide_eq_true_iff, mem_looked]
    simp [AList.mem_keys, and_assoc]

private theorem mem_agentsWithAll (dht : CapabilityDht) (first : String) (rest : List String) :
    agentId ∈ (dht.agentsWithAll (first :: rest)).getD ∅ ↔
      ∀ capability ∈ first :: rest, dht.index.Holds capability agentId := by
  obtain ⟨found, folded, each⟩ := dht.mem_narrowed rest ((dht.index.lookup first).getD ∅)
  have rounds : dht.agentsWithAll (first :: rest) = some found := folded
  rw [rounds, Option.getD_some, each, List.forall_mem_cons, mem_looked]

theorem mem_getAll (consistent : dht.Consistent) {pass : IterationOrder AgentId Unit} :
    record ∈ dht.getAll pass (first :: rest) ↔ dht.getById record.agentId = some record ∧
      ∀ capability ∈ first :: rest, Lists record capability := by
  rw [getAll, mem_recordsOf, IterationOrder.mem_members, mem_agentsWithAll, and_comm]
  refine and_congr_right fun stored => forall₂_congr fun capability _ => ?_
  rw [consistent.indexed]
  simp [stored]

/-- An agent is in the set of a capability exactly if its stored record lists it, and no set is
empty. So a query returns the stored records that list all it asks for. -/
theorem index_matches_records (calls : List Change) :
    let dht := calls.foldl change .new
    (∀ capability agentId, dht.index.Holds capability agentId ↔ ∃ record,
      dht.getById agentId = some record ∧ record.agentId = agentId ∧ Lists record capability) ∧
    dht.index.NoEmptySet ∧ dht.len ≤ maxRecords ∧
    (∀ pass capability, (dht.get pass capability).Nodup ∧ ∀ record, record ∈ dht.get pass capability ↔
        dht.getById record.agentId = some record ∧ Lists record capability) ∧
    ∀ pass first rest, (dht.getAll pass (first :: rest)).Nodup ∧
      ∀ record, record ∈ dht.getAll pass (first :: rest) ↔
        dht.getById record.agentId = some record ∧
          ∀ capability ∈ first :: rest, Lists record capability := by
  intro dht
  have consistent : dht.Consistent :=
    calls.foldlRecOn change consistent_new fun _ before call _ => consistent_change before call
  refine ⟨fun capability agentId => ?_, consistent.noEmptySet, consistent.bounded, ?_, ?_⟩
  · rw [consistent.indexed]
    refine exists_congr fun record => and_congr_right fun stored => ?_
    rw [and_iff_right (dht.keyed agentId record stored)]
  · intro pass capability
    exact ⟨dht.nodup_get pass capability, fun record => mem_get consistent⟩
  · intro pass first rest
    exact ⟨nodup_recordsOf pass.nodup_members, fun record => mem_getAll consistent⟩

end CapabilityDht

end Aafp.Discovery
