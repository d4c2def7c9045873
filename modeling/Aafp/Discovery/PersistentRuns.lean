import Aafp.Discovery.PersistentDht
import Aafp.Foundation.Machine

/-! When a query of the table in the database finds exactly the agents that have a capability. -/
namespace Aafp.Discovery.PersistentDht

open Foundation Identity Crypto List

inductive Call where
  | put (record : LegacyRecord) (now : UInt64)
  | removeAgent (agentId : AgentId)

def machine (deps : Deps) : Machine Call (Except DhtError Unit) PersistentDht where
  step dht call := match call with
    | .put record now => dht.put deps record now
    | .removeAgent agentId => dht.removeAgent agentId

def latestAfter (agentId : AgentId) (held : Option LegacyRecord) : Call × Except DhtError Unit → Option LegacyRecord
  | (.put record _, .ok ()) => if record.agentId = agentId then some record else held
  | (.removeAgent removed, .ok ()) => if removed = agentId then none else held
  | (_, .error _) => held

/-- The record that was put last for an agent, unless the agent was removed since. -/
def latest (log : List (Call × Except DhtError Unit)) (agentId : AgentId) : Option LegacyRecord :=
  log.foldl (latestAfter agentId) none

theorem latest_concat : latest (log ++ [event]) agentId = latestAfter agentId (latest log agentId) event := by
  simp [latest]

theorem latest_keyed (held : latest log agentId = some record) : record.agentId = agentId := by
  induction log using reverseRecOn with
  | nil => cases held
  | append_singleton log event ih =>
    rw [latest_concat] at held
    unfold latestAfter at held
    split at held
    · split at held
      · cases held
        assumption
      · exact ih held
    · split at held
      · cases held
      · exact ih held
    · exact ih held

structure Writes (deps : Deps) (row : AgentRow) (record : LegacyRecord) : Prop where
  encoded : deps.codec.toBytes record = .ok row.recordData
  names : row.capabilities = joinedNames record

/-- The table has a row for the latest record of each agent, and no other. -/
def Mirrors (deps : Deps) (log : List (Call × Except DhtError Unit)) (dht : PersistentDht) : Prop :=
  ∀ agentId, Option.Rel (Writes deps) (dht.agentRecords.lookup agentId) (latest log agentId)

theorem mirrors_step (mirrors : Mirrors deps log dht) (call : Call) :
    Mirrors deps (log ++ [(call, ((machine deps).step dht call).1)]) ((machine deps).step dht call).2 := by
  intro agentId
  rw [latest_concat]
  cases call with
  | removeAgent removed =>
    by_cases same : removed = agentId
    · subst same
      simp only [machine, removeAgent, latestAfter, if_true, AList.lookup_erase]
      exact .none
    · simp only [machine, removeAgent, latestAfter, if_neg same, AList.lookup_erase_ne (Ne.symm same)]
      exact mirrors agentId
  | put record now =>
    simp only [machine, put]
    split
    · exact mirrors agentId
    · cases encoded : deps.codec.toBytes record with
      | error message => exact mirrors agentId
      | ok recordData =>
        by_cases same : record.agentId = agentId
        · subst same
          simp only [latestAfter, if_true, AList.lookup_insert]
          exact .some ⟨encoded, rfl⟩
        · simp only [latestAfter, if_neg same, AList.lookup_insert_ne (Ne.symm same)]
          exact mirrors agentId

theorem mirrors_run (deps : Deps) (calls : List Call) :
    Mirrors deps ((machine deps).log inMemory calls) ((machine deps).after inMemory calls) := by
  refine Machine.invariant (fun _ => .none) ?_ calls
  intro log dht call mirrors
  exact mirrors_step mirrors call

/-- A query is answered with the latest records that list the capability, one for each
agent. -/
def AnswersExactly (deps : Deps) (log : List (Call × Except DhtError Unit)) (dht : PersistentDht)
    (pass : IterationOrder AgentId AgentRow) (capability : String) : Prop :=
  ∃ records, dht.get deps pass capability = .ok records ∧ (records.map LegacyRecord.agentId).Nodup ∧
    ∀ record, record ∈ records ↔ latest log record.agentId = some record ∧ capability ∈ record.capabilities

def Selected (capability : String) (record : LegacyRecord) : Prop :=
  like ("%" ++ capability ++ "%").toList (joinedNames record).toList = true

theorem selected_iff : Selected capability record ↔
    ∃ window, window <:+: (joinedNames record).toList ∧ like capability.toList window = true := by
  have pattern : ("%" ++ capability ++ "%").toList = '%' :: capability.toList ++ ['%'] := by
    rw [String.toList_append, String.toList_append]
    rfl
  rw [Selected, pattern, like_within]

theorem infix_intercalate (mem : part ∈ parts) (sep : List Char) : part <:+: sep.intercalate parts := by
  induction parts with
  | nil => cases mem
  | cons first parts ih =>
    cases parts with
    | nil =>
      rw [mem_singleton.mp mem, intercalate_singleton]
    | cons second parts =>
      rw [intercalate_cons_cons]
      rcases mem_cons.mp mem with rfl | later
      · exact ⟨[], sep ++ sep.intercalate (second :: parts), by simp⟩
      · exact (ih later).trans (suffix_append _ _).isInfix

theorem selected_of_mem (mem : capability ∈ record.capabilities) : Selected capability record := by
  refine selected_iff.mpr ⟨capability.toList, ?_, like_self _⟩
  rw [joinedNames, String.toList_intercalate]
  exact infix_intercalate (mem_map_of_mem mem) _

private theorem mapM_filterMap {rows : List α} {step : α → Except ε β}
    (each : ∀ row ∈ rows, ∃ result, value row = some result ∧ step row = .ok result) :
    rows.mapM step = .ok (rows.filterMap value) := by
  induction rows with
  | nil => rfl
  | cons row rows ih =>
    rw [forall_mem_cons] at each
    obtain ⟨result, valued, done⟩ := each.1
    rw [mapM_cons, done, ih each.2, filterMap_cons, valued]
    rfl

private theorem map_filterMap_keys {rows : List α} {value : α → Option β} {key : β → κ}
    (each : ∀ row ∈ rows, ∃ result, value row = some result ∧ key result = place row) :
    (rows.filterMap value).map key = rows.map place := by
  induction rows with
  | nil => rfl
  | cons row rows ih =>
    rw [forall_mem_cons] at each
    obtain ⟨result, valued, same⟩ := each.1
    rw [filterMap_cons, valued, map_cons, map_cons, ih each.2, same]

section

variable (mirrors : Mirrors deps log dht)
include mirrors

private theorem written_of_lookup (found : dht.agentRecords.lookup agentId = some row) :
    ∃ record, latest log agentId = some record ∧ Writes deps row record := by
  have related := mirrors agentId
  rw [found] at related
  cases held : latest log agentId with
  | none =>
    rw [held] at related
    cases related
  | some record =>
    rw [held] at related
    cases related with
    | some writes => exact ⟨record, rfl, writes⟩

private theorem lookup_of_latest (held : latest log agentId = some record) :
    ∃ row, dht.agentRecords.lookup agentId = some row ∧ Writes deps row record := by
  have related := mirrors agentId
  rw [held] at related
  cases found : dht.agentRecords.lookup agentId with
  | none =>
    rw [found] at related
    cases related
  | some row =>
    rw [found] at related
    cases related with
    | some writes => exact ⟨row, rfl, writes⟩

theorem get_selects (pass : IterationOrder AgentId AgentRow)
    (capability : String) : ∃ records, dht.get deps pass capability = .ok records ∧
      (records.map LegacyRecord.agentId).Nodup ∧
      ∀ record, record ∈ records ↔ latest log record.agentId = some record ∧ Selected capability record := by
  let rows := (pass.iterate dht.agentRecords).filter fun entry =>
    like ("%" ++ capability ++ "%").toList entry.2.capabilities.toList
  have stored : ∀ entry ∈ rows, ∃ record, latest log entry.1 = some record ∧ Writes deps entry.2 record := by
    intro entry mem
    exact written_of_lookup mirrors (mem_iterate.mp (mem_of_mem_filter mem))
  refine ⟨rows.filterMap fun entry => latest log entry.1, ?_, ?_, ?_⟩
  · apply mapM_filterMap
    intro entry mem
    obtain ⟨record, held, writes⟩ := stored entry mem
    exact ⟨record, held, mapError_eq_ok.mpr (deps.codec.fromBytes_toBytes _ _ writes.encoded)⟩
  · have keys : (rows.filterMap fun entry => latest log entry.1).map LegacyRecord.agentId =
        rows.map Sigma.fst := by
      apply map_filterMap_keys
      intro entry mem
      obtain ⟨record, held, -⟩ := stored entry mem
      exact ⟨record, held, latest_keyed held⟩
    have distinct : ((pass.iterate dht.agentRecords).map Sigma.fst).Nodup := by
      rw [IterationOrder.iterate, ((pass.perm _).map _).nodup_iff]
      exact dht.agentRecords.keys_nodup
    rw [keys]
    exact distinct.sublist (filter_sublist.map _)
  · intro record
    rw [mem_filterMap]
    constructor
    · rintro ⟨entry, mem, held⟩
      obtain ⟨other, heldOther, writes⟩ := stored entry mem
      cases heldOther.symm.trans held
      rw [latest_keyed held]
      refine ⟨held, ?_⟩
      rw [Selected, ← writes.names]
      exact (mem_filter.mp mem).2
    · rintro ⟨held, selected⟩
      obtain ⟨row, found, writes⟩ := lookup_of_latest mirrors held
      refine ⟨⟨record.agentId, row⟩, mem_filter.mpr ⟨mem_iterate.mpr found, ?_⟩, held⟩
      rw [Selected, ← writes.names] at selected
      exact selected

private theorem answersExactly_iff {pass : IterationOrder AgentId AgentRow} :
    AnswersExactly deps log dht pass capability ↔
      ∀ record, latest log record.agentId = some record → capability ∉ record.capabilities →
        ∀ window, window <:+: (joinedNames record).toList → like capability.toList window = false := by
  obtain ⟨records, done, distinct, each⟩ := get_selects mirrors pass capability
  constructor
  · intro ⟨others, doneOthers, _, exactly⟩ record held unlisted window inside
    cases done.symm.trans doneOthers
    by_contra matched
    have selected : Selected capability record := selected_iff.mpr ⟨window, inside, by simpa using matched⟩
    exact unlisted ((exactly record).mp ((each record).mpr ⟨held, selected⟩)).2
  · intro condition
    refine ⟨records, done, distinct, fun record => ?_⟩
    rw [each]
    refine and_congr_right fun held => ⟨fun selected => ?_, selected_of_mem⟩
    by_contra unlisted
    obtain ⟨window, inside, matched⟩ := selected_iff.mp selected
    rw [condition record held unlisted window inside] at matched
    cases matched

end

/-- A query is exact if and only if the capability matches no part of the joined names of a latest
record without it. -/
theorem query_exact_iff (deps : Deps) (calls : List Call) (pass : IterationOrder AgentId AgentRow)
    (capability : String) :
    AnswersExactly deps ((machine deps).log inMemory calls) ((machine deps).after inMemory calls) pass capability ↔
      ∀ record, latest ((machine deps).log inMemory calls) record.agentId = some record →
        capability ∉ record.capabilities →
        ∀ window, window <:+: (joinedNames record).toList → like capability.toList window = false :=
  answersExactly_iff (mirrors_run deps calls)

def listedCodec (records : List LegacyRecord) : LegacyCodec where
  toBytes record := match records.findIdx? (· = record) with
    | some place => .ok (replicate place 0)
    | none => .error "unlisted"
  fromBytes bytes := match records[bytes.length]? with
    | some record => .ok record
    | none => .error "unlisted"
  unsignedCbor _ := []
  fromBytes_toBytes record bytes encoded := by
    split at encoded
    next place found =>
      cases encoded
      obtain ⟨inside, same, -⟩ := findIdx?_eq_some_iff_getElem.mp found
      simp only [decide_eq_true_eq] at same
      simp [inside, same]
    · cases encoded

def legacyRecord (seed : UInt8) (capabilities : List String) : LegacyRecord where
  agentId := deriveAgentId .standIn (standInKeys seed).publicKey
  publicKey := (standInKeys seed).publicKey
  capabilities
  endpoints := []
  version := 1
  timestamp := 0
  signature := Primitives.standIn.signWith (standInKeys seed).secretKey [] []

def inferenceRecord : LegacyRecord := legacyRecord 1 ["Inference"]

def sampleDeps : Deps := ⟨.standIn, listedCodec [inferenceRecord]⟩

/-- An agent with the capability `Inference` alone is found under `_FER`. -/
theorem lookalike_found : ¬ AnswersExactly sampleDeps ((machine sampleDeps).log inMemory [.put inferenceRecord 0])
      ((machine sampleDeps).after inMemory [.put inferenceRecord 0]) .inOrder "_FER" := by
  rw [answersExactly_iff (mirrors_run sampleDeps _)]
  intro condition
  have inside : "nfer".toList <:+: (joinedNames inferenceRecord).toList := by
    exact ⟨"I".toList, "ence".toList, by decide⟩
  have unmatched := condition inferenceRecord (by decide +kernel) (by decide) "nfer".toList inside
  cases unmatched

end Aafp.Discovery.PersistentDht
