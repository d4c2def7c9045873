import Aafp.Foundation.Machine
import Aafp.Identity.KeyDirectory
import Aafp.Identity.RecordCodec

/-! When the directory in memory and the one in a database, given the same calls, answer alike. -/
namespace Aafp.Identity

open Foundation Cbor Crypto List Option

structure Directories where
  memory : KeyDirectory
  persistent : PersistentKeyDirectory

variable (memory : KeyDirectory) (persistent : PersistentKeyDirectory)

namespace Directories

inductive Call where
  | publish (record : AgentRecord) (now : UInt64)
  | lookup (agentId : AgentId)
  | verify (agentId : AgentId) (record : AgentRecord) (now : UInt64)
  | evictExpired (now : UInt64)

inductive Answers where
  | published (memory : Except DirectoryError Unit) (persistent : Except PersistentDirectoryError Unit)
  | found (memory : Option AgentRecord) (persistent : Except PersistentDirectoryError (Option AgentRecord))
  | verified (memory : Bool) (persistent : Except PersistentDirectoryError Bool)
  | evicted (count : Nat)

def answer (prims : Primitives) (both : Directories) : Call → Answers × Directories
  | .publish record now =>
    let inMemory := both.memory.publish prims record now
    let inDatabase := both.persistent.publish prims record now
    (.published inMemory.1 inDatabase.1, ⟨inMemory.2, inDatabase.2⟩)
  | .lookup agentId => (.found (both.memory.lookup agentId) (both.persistent.lookup agentId), both)
  | .verify agentId record now =>
    (.verified (both.memory.verify prims agentId record now) (both.persistent.verify prims agentId record now), both)
  | .evictExpired now =>
    let inDatabase := both.persistent.evictExpired now
    (.evicted inDatabase.1, ⟨both.memory.evictExpired now, inDatabase.2⟩)

def machine (prims : Primitives) : Machine Call Answers Directories := ⟨answer prims⟩

def new : Directories := ⟨.new, .inMemory⟩

/-- The same publishes are refused, with the same errors, and the same is found and verified. -/
def Answers.Agree : Answers → Prop
  | .published memory persistent => persistent = memory.mapError .directory
  | .found memory persistent => persistent = .ok memory
  | .verified memory persistent => persistent = .ok memory
  | .evicted _ => True

def Alike (both : Directories) : Prop :=
  ∀ agentId, both.persistent.lookup agentId = .ok (both.memory.lookup agentId)

/-- The answers so far agree, and so would those to any lookup now. -/
def AnswersAlike (past : List (Call × Answers)) (both : Directories) : Prop :=
  (∀ entry ∈ past, entry.2.Agree) ∧ both.Alike

/-- The times and versions are not negative as signed numbers. -/
def Small : Call → Prop
  | .publish record now =>
    record.recordVersion < 0x8000000000000000 ∧ record.expiresAt < 0x8000000000000000 ∧ now < 0x8000000000000000
  | .evictExpired now => now < 0x8000000000000000
  | _ => True

def ReadsBack (record : AgentRecord) : Prop := readRecord (encodeValue record.toCbor) = .ok record

/-- A record is not published within an hour after an evicted one, and is read back as it was. None
is evicted at the very time when it expires. -/
def StaysAlike (prims : Primitives) (memory : KeyDirectory) : Call → Prop
  | .publish record now =>
    record.verify prims now = .ok () →
      (memory.lookup record.agentId = none → memory.rateLimited record.agentId now = false) ∧
        (memory.Admits prims record now → ReadsBack record)
  | .evictExpired now => ∀ agentId record, memory.lookup agentId = some record → record.expiresAt ≠ now
  | _ => True

structure RowOf (memory : KeyDirectory) (agentId : AgentId) (record : AgentRecord) (row : DirectoryRow) : Prop where
  published : ∃ last, memory.lastPublish.lookup agentId = some last ∧
    row = .ofRecord (encodeValue record.toCbor) record last
  versionSmall : record.recordVersion < 0x8000000000000000
  expirySmall : record.expiresAt < 0x8000000000000000

structure Mirrored (both : Directories) : Prop where
  absent : ∀ agentId, both.memory.lookup agentId = none → both.persistent.rows.lookup agentId = none
  present : ∀ agentId record, both.memory.lookup agentId = some record →
    ∃ row, both.persistent.rows.lookup agentId = some row ∧ RowOf both.memory agentId record row

variable {prims : Primitives} {both : Directories} {record : AgentRecord} {now : UInt64}

section publish

theorem Mirrored.rateLimited (mirrored : both.Mirrored) (found : both.memory.lookup agentId = some record) :
    both.persistent.rateLimited agentId now = both.memory.rateLimited agentId now := by
  obtain ⟨row, stored, ⟨last, published, rfl⟩, -, -⟩ := mirrored.present agentId record found
  rw [PersistentKeyDirectory.rateLimited, KeyDirectory.rateLimited, stored, published]
  simp [DirectoryRow.ofRecord]

theorem Mirrored.holdsLaterVersion (mirrored : both.Mirrored) (small : record.recordVersion < 0x8000000000000000) :
    both.persistent.holdsLaterVersion record = both.memory.holdsLaterVersion record := by
  rw [PersistentKeyDirectory.holdsLaterVersion, KeyDirectory.holdsLaterVersion]
  cases found : both.memory.lookup record.agentId with
  | none => rw [mirrored.absent _ found]
  | some existing =>
    obtain ⟨row, stored, ⟨last, -, rfl⟩, existingSmall, -⟩ := mirrored.present _ existing found
    rw [stored]
    simp only [DirectoryRow.ofRecord, toInt64_lt_toInt64_iff small existingSmall]

def storedIn (persistent : PersistentKeyDirectory) (record : AgentRecord) (now : UInt64) : PersistentKeyDirectory :=
  ⟨persistent.rows.insert record.agentId (.ofRecord (encodeValue record.toCbor) record now)⟩

theorem persistent_publish_ok {persistent : PersistentKeyDirectory} (verified : record.verify prims now = .ok ())
    (inTime : persistent.rateLimited record.agentId now = false)
    (current : persistent.holdsLaterVersion record = false) :
    persistent.publish prims record now = (.ok (), storedIn persistent record now) := by
  simp only [PersistentKeyDirectory.publish, verified, inTime, current, encode, Bool.false_eq_true, if_false]
  rfl

theorem Mirrored.publish_of_absent (mirrored : both.Mirrored) (absent : both.memory.lookup record.agentId = none)
    (verified : record.verify prims now = .ok ()) :
    both.persistent.publish prims record now = (.ok (), storedIn both.persistent record now) := by
  have noRow := mirrored.absent _ absent
  apply persistent_publish_ok verified
  · rw [PersistentKeyDirectory.rateLimited, noRow]
  · rw [PersistentKeyDirectory.holdsLaterVersion, noRow]

theorem Mirrored.publish_of_admits (mirrored : both.Mirrored) (small : Small (.publish record now))
    (admits : both.memory.Admits prims record now) :
    both.persistent.publish prims record now = (.ok (), storedIn both.persistent record now) := by
  obtain ⟨verified, inTime, current⟩ := admits
  cases found : both.memory.lookup record.agentId with
  | none => exact mirrored.publish_of_absent found verified
  | some existing =>
    apply persistent_publish_ok verified
    · rw [mirrored.rateLimited found, inTime]
    · rw [mirrored.holdsLaterVersion small.1, current]

theorem Mirrored.publish_of_not_admits (mirrored : both.Mirrored) (small : Small (.publish record now))
    (timely : record.verify prims now = .ok () → both.memory.lookup record.agentId = none →
      both.memory.rateLimited record.agentId now = false) (refuses : ¬ both.memory.Admits prims record now) :
    ∃ error, both.memory.publish prims record now = (.error error, both.memory) ∧
      both.persistent.publish prims record now = (.error (.directory error), both.persistent) := by
  unfold KeyDirectory.publish PersistentKeyDirectory.publish
  cases verified : record.verify prims now with
  | error error => exact ⟨_, rfl, rfl⟩
  | ok =>
    rw [mirrored.holdsLaterVersion small.1]
    cases found : both.memory.lookup record.agentId with
    | none =>
      have current : both.memory.holdsLaterVersion record = false := by
        rw [KeyDirectory.holdsLaterVersion, found]
      exact absurd ⟨verified, timely verified found, current⟩ refuses
    | some existing =>
      rw [mirrored.rateLimited found]
      split_ifs with limited later
      · exact ⟨_, rfl, rfl⟩
      · exact ⟨_, rfl, rfl⟩
      · exact absurd ⟨verified, Bool.eq_false_iff.mpr limited, Bool.eq_false_iff.mpr later⟩ refuses

end publish

section lookups

theorem lookup_storedIn (agentId : AgentId) : (storedIn persistent record now).lookup agentId =
      if agentId = record.agentId then (readRecord (encodeValue record.toCbor)).map some
      else persistent.lookup agentId := by
  simp only [PersistentKeyDirectory.lookup, storedIn, lookup_insert_ite, @eq_comm _ agentId]
  split_ifs <;> rfl

theorem lookup_insert (agentId : AgentId) : (memory.insert record now).lookup agentId =
      if agentId = record.agentId then some record else memory.lookup agentId := by
  simp only [KeyDirectory.lookup, KeyDirectory.insert, lookup_insert_ite, @eq_comm _ agentId]

theorem alike_stored_iff (alike : both.Alike) :
    Alike ⟨both.memory.insert record now, storedIn both.persistent record now⟩ ↔ ReadsBack record := by
  have here : (readRecord (encodeValue record.toCbor)).map some = .ok (some record) ↔ ReadsBack record := by
    unfold ReadsBack
    cases readRecord (encodeValue record.toCbor) with
    | error error => simp [Except.map]
    | ok read => simp [Except.map]
  rw [← here]
  constructor
  · intro after
    have found := after record.agentId
    rwa [lookup_storedIn, lookup_insert, if_pos rfl, if_pos rfl] at found
  · intro read agentId
    rw [lookup_storedIn, lookup_insert]
    split_ifs
    · exact read
    · exact alike agentId

theorem Mirrored.stored (mirrored : both.Mirrored) (small : Small (.publish record now)) :
    Mirrored ⟨both.memory.insert record now, storedIn both.persistent record now⟩ where
  absent agentId unknown := by
    rw [lookup_insert] at unknown
    split_ifs at unknown with same
    rw [storedIn, AList.lookup_insert_ne same]
    exact mirrored.absent agentId unknown
  present agentId known found := by
    rw [lookup_insert] at found
    split_ifs at found with same
    · cases found
      subst same
      exact ⟨_, AList.lookup_insert _, ⟨now, AList.lookup_insert _, rfl⟩, small.1, small.2.1⟩
    · obtain ⟨row, stored, ⟨last, published, made⟩, versionSmall, expirySmall⟩ := mirrored.present agentId known found
      refine ⟨row, ?_, ⟨last, ?_, made⟩, versionSmall, expirySmall⟩
      · rw [storedIn, AList.lookup_insert_ne same, stored]
      · rw [KeyDirectory.insert, AList.lookup_insert_ne same, published]

end lookups

section eviction

theorem memory_lookup_evictExpired (agentId : AgentId) :
    (memory.evictExpired now).lookup agentId = (memory.lookup agentId).filter fun record => !record.isExpired now :=
  lookup_retain _ _ _

theorem memory_lookup_evicted {memory : KeyDirectory} (found : memory.lookup agentId = some record) :
    (memory.evictExpired now).lookup agentId = if now < record.expiresAt then some record else none := by
  rw [memory_lookup_evictExpired, found, filter_some]
  simp [AgentRecord.isExpired]

theorem memory_lookup_evicted_of_none {memory : KeyDirectory} (absent : memory.lookup agentId = none) :
    (memory.evictExpired now).lookup agentId = none := by
  rw [memory_lookup_evictExpired, absent, filter_none]

theorem rows_lookup_evictExpired (agentId : AgentId) : (persistent.evictExpired now).2.rows.lookup agentId =
      (persistent.rows.lookup agentId).filter fun row => !(row.expiresAt < now.toInt64) :=
  lookup_retain _ _ _

theorem Mirrored.row_evicted (mirrored : both.Mirrored) (small : now < 0x8000000000000000)
    (found : both.memory.lookup agentId = some record) : (both.persistent.evictExpired now).2.rows.lookup agentId =
      if now ≤ record.expiresAt then both.persistent.rows.lookup agentId else none := by
  obtain ⟨row, stored, ⟨last, -, rfl⟩, -, expirySmall⟩ := mirrored.present agentId record found
  rw [rows_lookup_evictExpired, stored, filter_some]
  simp [DirectoryRow.ofRecord, toInt64_lt_toInt64_iff expirySmall small]

theorem Mirrored.row_evicted_of_none (mirrored : both.Mirrored) (absent : both.memory.lookup agentId = none) :
    (both.persistent.evictExpired now).2.rows.lookup agentId = none := by
  rw [rows_lookup_evictExpired, mirrored.absent agentId absent, filter_none]

theorem Mirrored.alike_evicted_iff (mirrored : both.Mirrored) (alike : both.Alike) (small : now < 0x8000000000000000) :
    Alike ⟨both.memory.evictExpired now, (both.persistent.evictExpired now).2⟩ ↔
      ∀ agentId record, both.memory.lookup agentId = some record → record.expiresAt ≠ now := by
  refine forall_congr' fun agentId => ?_
  cases found : both.memory.lookup agentId with
  | none =>
    refine iff_of_true ?_ nofun
    rw [memory_lookup_evicted_of_none found, PersistentKeyDirectory.lookup, mirrored.row_evicted_of_none found]
  | some record =>
    have before := alike agentId
    rw [found] at before
    rw [memory_lookup_evicted found, PersistentKeyDirectory.lookup, mirrored.row_evicted small found]
    simp only [some.injEq, forall_eq']
    by_cases unexpired : now ≤ record.expiresAt
    · rw [if_pos unexpired, ← PersistentKeyDirectory.lookup, before]
      split
      next later =>
        refine iff_of_true rfl ?_
        rintro rfl
        exact UInt64.lt_irrefl _ later
      next later =>
        refine iff_of_false nofun ?_
        rw [not_not]
        exact UInt64.le_antisymm (UInt64.not_lt.mp later) unexpired
    · have expired : ¬ now < record.expiresAt := fun later => unexpired (UInt64.le_of_lt later)
      rw [if_neg unexpired, if_neg expired]
      refine iff_of_true rfl ?_
      rintro rfl
      exact unexpired (UInt64.le_refl _)

theorem Mirrored.evicted (mirrored : both.Mirrored) (small : now < 0x8000000000000000)
    (apart : ∀ agentId record, both.memory.lookup agentId = some record → record.expiresAt ≠ now) :
    Mirrored ⟨both.memory.evictExpired now, (both.persistent.evictExpired now).2⟩ where
  absent agentId unknown := by
    cases found : both.memory.lookup agentId with
    | none => exact mirrored.row_evicted_of_none found
    | some record =>
      rw [memory_lookup_evicted found, ite_eq_right_iff] at unknown
      rw [mirrored.row_evicted small found, if_neg]
      intro unexpired
      have later := UInt64.lt_of_le_of_ne unexpired (apart agentId record found).symm
      cases unknown later
  present agentId record kept := by
    cases found : both.memory.lookup agentId with
    | none =>
      rw [memory_lookup_evicted_of_none found] at kept
      cases kept
    | some known =>
      rw [memory_lookup_evicted found, ite_none_right_eq_some] at kept
      obtain ⟨later, same⟩ := kept
      cases same
      obtain ⟨row, stored, rowOf⟩ := mirrored.present agentId record found
      refine ⟨row, ?_, rowOf.published, rowOf.versionSmall, rowOf.expirySmall⟩
      rw [mirrored.row_evicted small found, if_pos (UInt64.le_of_lt later), stored]

end eviction

theorem publish_alike_iff (mirrored : both.Mirrored) (alike : both.Alike) (small : Small (.publish record now)) :
    ((answer prims both (.publish record now)).1.Agree ∧ (answer prims both (.publish record now)).2.Alike) ↔
      StaysAlike prims both.memory (.publish record now) := by
  rw [answer]
  by_cases admits : both.memory.Admits prims record now
  · rw [KeyDirectory.publish_of_admits admits, mirrored.publish_of_admits small admits, alike_stored_iff alike]
    constructor
    · intro after _
      exact ⟨fun _ => admits.2.1, fun _ => after.2⟩
    · intro stays
      exact ⟨rfl, (stays admits.1).2 admits⟩
  · by_cases timely : record.verify prims now = .ok () → both.memory.lookup record.agentId = none →
        both.memory.rateLimited record.agentId now = false
    · obtain ⟨error, inMemory, inDatabase⟩ := mirrored.publish_of_not_admits small timely admits
      rw [inMemory, inDatabase]
      exact iff_of_true ⟨rfl, alike⟩ fun verified => ⟨timely verified, fun now => absurd now admits⟩
    · -- only the directory in memory remembers the publish of a record that was evicted
      push Not at timely
      obtain ⟨verified, absent, limited⟩ := timely
      rw [mirrored.publish_of_absent absent verified]
      have refused : both.memory.publish prims record now = (.error .rateLimited, both.memory) := by
        simp [KeyDirectory.publish, verified, limited]
      rw [refused]
      refine iff_of_false ?_ ?_
      · intro after
        cases after.1
      · intro stays
        exact limited ((stays verified).1 absent)

theorem step_alike_iff (mirrored : both.Mirrored) (alike : both.Alike) (call : Call) (small : Small call) :
    ((answer prims both call).1.Agree ∧ (answer prims both call).2.Alike) ↔ StaysAlike prims both.memory call := by
  cases call with
  | publish record now => exact publish_alike_iff mirrored alike small
  | lookup agentId => exact iff_of_true ⟨alike agentId, alike⟩ trivial
  | verify agentId record now =>
    refine iff_of_true ⟨?_, alike⟩ trivial
    change both.persistent.verify prims agentId record now = .ok (both.memory.verify prims agentId record now)
    rw [PersistentKeyDirectory.verify, KeyDirectory.verify, alike agentId]
    cases both.memory.lookup agentId <;> rfl
  | evictExpired now => exact (and_iff_right trivial).trans (mirrored.alike_evicted_iff alike small)

theorem step_mirrored (mirrored : both.Mirrored) (call : Call) (small : Small call)
    (stays : StaysAlike prims both.memory call) : (answer prims both call).2.Mirrored := by
  cases call with
  | publish record now =>
    rw [answer]
    by_cases admits : both.memory.Admits prims record now
    · rw [KeyDirectory.publish_of_admits admits, mirrored.publish_of_admits small admits]
      exact mirrored.stored small
    · obtain ⟨error, inMemory, inDatabase⟩ :=
        mirrored.publish_of_not_admits small (fun verified => (stays verified).1) admits
      rw [inMemory, inDatabase]
      exact mirrored
  | lookup agentId => exact mirrored
  | verify agentId record now => exact mirrored
  | evictExpired now => exact mirrored.evicted small stays

theorem small_of_last (assumed : ∀ entry ∈ past ++ [(call, answers)], Small entry.1) : Small call :=
  assumed (call, answers) (mem_append_right _ (mem_singleton.mpr rfl))

/-- The two directories answer alike exactly in the runs in which no record is evicted at the time
when it expires, none is published within an hour after an evicted one, and all are read back as
they were. -/
theorem answersAlike_iff (prims : Primitives) (calls : List Call) (small : ∀ call ∈ calls, Small call) :
    (machine prims).Throughout new AnswersAlike calls ↔
      (machine prims).Meets new (fun _ both call => StaysAlike prims both.memory call) calls := by
  apply @Machine.throughout_iff_meets_carrying _ _ _ (machine prims) new (fun _ both => both.Mirrored) _ _
    fun past => ∀ entry ∈ past, Small entry.1
  · intro past entry assumed other mem
    exact assumed other (mem_append_left _ mem)
  · exact ⟨fun _ _ => rfl, fun _ _ => nofun⟩
  · exact ⟨forall_mem_nil _, fun _ => rfl⟩
  · intro past both call assumed mirrored stays
    exact step_mirrored mirrored call (small_of_last assumed) stays
  · intro past both call assumed mirrored ⟨agreed, alike⟩
    rw [← step_alike_iff mirrored alike call (small_of_last assumed), AnswersAlike, forall_mem_append,
      forall_mem_singleton]
    exact and_congr_left fun _ => and_iff_right agreed
  · intro entry mem
    apply small
    rw [← @Machine.map_fst_log _ _ _ (machine prims) new calls]
    exact mem_map_of_mem mem

def sampleSigned : AgentRecord :=
  (AgentRecord.new .standIn (standInKeys 1).publicKey [] [] 0 100 keyAlgMlDsa65).sign .standIn
    (standInKeys 1).secretKey []

deriving instance DecidableEq for PersistentDirectoryError

theorem answersAlike_published :
    (machine .standIn).Throughout new AnswersAlike [.publish sampleSigned 50, .evictExpired 60] := by
  apply (answersAlike_iff .standIn _ ?_).mpr
  · rw [← singleton_append, Machine.meets_concat, ← nil_append [Call.publish _ _], Machine.meets_concat]
    refine ⟨⟨Machine.meets_nil, ?_⟩, ?_⟩
    · intro verified
      exact ⟨fun _ => rfl, fun _ => by unfold ReadsBack; decide +kernel⟩
    · intro agentId record found
      have lasting : ∀ entry ∈ ((machine .standIn).after new ([] ++ [.publish sampleSigned 50])).memory.records.entries,
        entry.2.expiresAt ≠ 60 := by decide +kernel
      exact lasting ⟨agentId, record⟩ (AList.mem_lookup_iff.mp found)
  · intro call mem
    rcases mem_pair.mp mem with rfl | rfl
    · exact ⟨by decide, by decide, by decide⟩
    · show (60 : UInt64) < 0x8000000000000000
      decide

/-- The database still finds a record that is evicted at the time when it expires. -/
theorem evicted_at_expiry_not_alike :
    ¬ (machine .standIn).Throughout new AnswersAlike [.publish sampleSigned 50, .evictExpired 100] := by
  intro throughout
  have alike := (throughout _ (prefix_refl _)).2 sampleSigned.agentId
  exact absurd alike (by decide +kernel)

end Directories

end Aafp.Identity
