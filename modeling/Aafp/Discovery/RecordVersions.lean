import Aafp.Discovery.CapabilityDht
import Aafp.Foundation.Ledger
import Aafp.Identity.KeyDirectory

/-! The versions of the records that the key directory and the capability table accept over a run. -/
namespace Aafp.Discovery

open Foundation Identity Crypto

def NotOlder (earlier later : AgentRecord) : Prop :=
  earlier.recordVersion < later.recordVersion ∨ later = earlier

/-- The versions of the records of one agent do not decrease, and records of the same
version are identical. -/
def NeverRollsBack (records : List AgentRecord) : Prop :=
  records.Pairwise fun earlier later => earlier.agentId = later.agentId →
    earlier.recordVersion ≤ later.recordVersion ∧
      (earlier.recordVersion = later.recordVersion → earlier = later)

theorem notOlder_trans (first second third : AgentRecord) (earlier : NotOlder first second)
    (later : NotOlder second third) : NotOlder first third := by
  rcases later with newer | rfl
  · left
    rcases earlier with older | rfl
    · exact UInt64.lt_trans older newer
    · exact newer
  · exact earlier

theorem notOlder_iff : NotOlder earlier later ↔ earlier.recordVersion ≤ later.recordVersion ∧
    (earlier.recordVersion = later.recordVersion → earlier = later) := by
  constructor
  · intro notOlder
    rcases notOlder with newer | rfl
    · exact ⟨UInt64.le_of_lt newer, fun same => absurd same (UInt64.ne_of_lt newer)⟩
    · exact ⟨UInt64.le_refl _, fun _ => rfl⟩
  · intro ⟨least, identical⟩
    rcases UInt64.lt_or_eq_of_le least with newer | same
    · exact .inl newer
    · exact .inr (identical same).symm

section Directory

inductive DirectoryCall where
  | publish (record : AgentRecord) (now : UInt64)
  | evictExpired (now : UInt64)

inductive DirectoryAnswer where
  | published (result : Except DirectoryError Unit)
  | evicted

def directoryMachine (prims : Primitives) : Machine DirectoryCall DirectoryAnswer KeyDirectory where
  step directory call := match call with
    | .publish record now =>
      let done := directory.publish prims record now
      (.published done.1, done.2)
    | .evictExpired now => (.evicted, directory.evictExpired now)

def published : DirectoryCall × DirectoryAnswer → Option AgentRecord
  | (.publish record _, .published (.ok ())) => some record
  | _ => none

/-- A record of the stored version is the stored record. If none is stored, it is not older than the
last one that was published. -/
def PublishedInOrder (prims : Primitives) (past : List (DirectoryCall × DirectoryAnswer))
    (directory : KeyDirectory) : DirectoryCall → Prop
  | .publish record now => record.verify prims now = .ok () → directory.rateLimited record.agentId now = false →
    match directory.lookup record.agentId with
    | some stored => record.recordVersion = stored.recordVersion → record = stored
    | none => ∀ last, lastWith AgentRecord.agentId record.agentId (past.filterMap published) = some last →
        NotOlder last record
  | .evictExpired _ => True

def directoryStore (prims : Primitives) : Store (directoryMachine prims) AgentRecord AgentId where
  key := AgentRecord.agentId
  table := KeyDirectory.records
  takes directory call := match call with
    | .publish record now => if directory.Admits prims record now then some record else none
    | .evictExpired _ => none
  taken := published
  taken_step directory call := by
    cases call with
    | evictExpired now => rfl
    | publish record now =>
      by_cases admits : directory.Admits prims record now
      · simp [directoryMachine, KeyDirectory.publish_of_admits admits, published, admits]
      · obtain ⟨error, refused⟩ := KeyDirectory.publish_of_not_admits admits
        simp [directoryMachine, refused, published, admits]
  replaces directory call record takes := by
    cases call with
    | evictExpired now => cases takes
    | publish added now =>
      obtain ⟨admits, same⟩ := Option.ite_none_right_eq_some.mp takes
      cases same
      simp only [directoryMachine, KeyDirectory.publish_of_admits admits]
      rfl
  drops directory call takes agentId record found := by
    cases call with
    | evictExpired now => exact (lookup_retain_eq_some.mp found).1
    | publish added now =>
      obtain ⟨error, refused⟩ := KeyDirectory.publish_of_not_admits (by simpa using takes)
      simpa only [directoryMachine, refused] using found

/-- Of two records, one may replace the other: it is not older exactly if equal versions
mean equal records. -/
private theorem notOlder_iff_of_le (least : existing.recordVersion ≤ record.recordVersion) :
    NotOlder existing record ↔ (record.recordVersion = existing.recordVersion → record = existing) := by
  rw [notOlder_iff, and_iff_right least, eq_comm, @eq_comm _ existing record]

private theorem follows_publish_iff : (directoryStore prims).Follows NotOlder past directory call ↔
      PublishedInOrder prims past directory call := by
  cases call with
  | evictExpired now => exact iff_of_true (Store.follows_of_takes_none _ rfl) trivial
  | publish record now =>
    have looked : ((directoryStore prims).table directory).lookup ((directoryStore prims).key record) =
      directory.lookup record.agentId := rfl
    rw [Store.follows_iff _ rfl, KeyDirectory.Admits, and_imp, and_imp]
    refine imp_congr_right fun _ => imp_congr_right fun _ => ?_
    rw [looked, KeyDirectory.holdsLaterVersion]
    cases directory.lookup record.agentId with
    | none => exact ⟨fun holds => holds rfl, fun holds _ => holds⟩
    | some existing =>
      simp only [decide_eq_false_iff_not]
      constructor
      · intro holds same
        have least := UInt64.not_lt.mpr (UInt64.le_of_eq same.symm)
        exact (notOlder_iff_of_le (UInt64.not_lt.mp least)).mp (holds least) same
      · intro identical least
        exact (notOlder_iff_of_le (UInt64.not_lt.mp least)).mpr identical

end Directory

section Table

inductive DhtCall where
  | put (record : AgentRecord)
  | evictExpired (pass : RecordOrder) (now : UInt64)

inductive DhtAnswer where
  | stored (done : Bool)
  | evicted (count : Nat)

def dhtMachine : Machine DhtCall DhtAnswer CapabilityDht where
  step dht call := match call with
    | .put record =>
      let done := dht.put record
      (.stored done.1, done.2)
    | .evictExpired pass now =>
      let done := dht.evictExpired pass now
      (.evicted done.1, done.2)

def stored : DhtCall × DhtAnswer → Option AgentRecord
  | (.put record, .stored true) => some record
  | _ => none

/-- A record created later is not older by its version. If none is stored, it is not older than the
last one that was. -/
def StoredInOrder (past : List (DhtCall × DhtAnswer)) (dht : CapabilityDht) : DhtCall → Prop
  | .put record => match dht.getById record.agentId with
    | some existing => existing.createdAt ≤ record.createdAt → NotOlder existing record
    | none => dht.len < maxRecords →
      ∀ last, lastWith AgentRecord.agentId record.agentId (past.filterMap stored) = some last → NotOlder last record
  | .evictExpired _ _ => True

def dhtStore : Store dhtMachine AgentRecord AgentId where
  key := AgentRecord.agentId
  table := CapabilityDht.records
  takes dht call := match call with
    | .put record => if dht.admits record then some record else none
    | .evictExpired _ _ => none
  taken := stored
  taken_step dht call := by
    cases call with
    | evictExpired pass now => rfl
    | put record =>
      cases admits : dht.admits record with
      | true => simp [dhtMachine, CapabilityDht.put_of_admits admits, stored, admits]
      | false => simp [dhtMachine, CapabilityDht.put_of_not_admits admits, stored, admits]
  replaces dht call record takes := by
    cases call with
    | evictExpired pass now => cases takes
    | put added =>
      obtain ⟨admits, same⟩ := Option.ite_none_right_eq_some.mp takes
      cases same
      exact (CapabilityDht.put_of_admits admits).2
  drops dht call takes agentId record found := by
    cases call with
    | evictExpired pass now => exact CapabilityDht.getById_of_evictExpired found
    | put added =>
      have refused : dht.admits added = false := by simpa using takes
      rwa [dhtMachine, (CapabilityDht.put_of_not_admits refused).2] at found

private theorem follows_put_iff : dhtStore.Follows NotOlder past dht call ↔ StoredInOrder past dht call := by
  cases call with
  | evictExpired pass now => exact iff_of_true (Store.follows_of_takes_none _ rfl) trivial
  | put record =>
    have looked : (dhtStore.table dht).lookup (dhtStore.key record) = dht.getById record.agentId := rfl
    rw [Store.follows_iff _ rfl, looked, CapabilityDht.admits, StoredInOrder]
    cases dht.getById record.agentId with
    | none => exact imp_congr_left decide_eq_true_iff
    | some existing => exact imp_congr_left decide_eq_true_iff

end Table

/-- Versions never roll back exactly if no record differs from the stored one of its version, is
older but created later, or is older than an evicted one. -/
theorem versions_never_roll_back_iff (prims : Primitives) (directoryKey : Option AgentKeypair)
    (publishes : List DirectoryCall) (puts : List DhtCall) :
    ((directoryMachine prims).Throughout { KeyDirectory.new with directoryKey }
        (fun past _ => NeverRollsBack (past.filterMap published)) publishes ↔
      (directoryMachine prims).Meets { KeyDirectory.new with directoryKey } (PublishedInOrder prims) publishes) ∧
    (dhtMachine.Throughout .new (fun past _ => NeverRollsBack (past.filterMap stored)) puts ↔
      dhtMachine.Meets .new StoredInOrder puts) := by
  have directory := (directoryStore prims).ordered_iff { KeyDirectory.new with directoryKey } rfl
    notOlder_trans publishes
  have table := dhtStore.ordered_iff .new rfl notOlder_trans puts
  simp only [Machine.Meets, follows_publish_iff] at directory
  simp only [Machine.Meets, follows_put_iff] at table
  simp only [NeverRollsBack, ← notOlder_iff]
  exact ⟨directory, table⟩

def versionedRecord (recordVersion expiresAt : UInt64) : AgentRecord :=
  let record := AgentRecord.new .standIn (standInKeys 1).publicKey [] [] 1000 expiresAt Identity.keyAlgMlDsa65
  { record with recordVersion }.sign .standIn (standInKeys 1).secretKey []

/-- Version 2 is published and evicted; then version 1 is published, which lasts longer. -/
def replayedPublishes : List DirectoryCall :=
  [.publish (versionedRecord 2 5000) 1000, .evictExpired 5000, .publish (versionedRecord 1 9000) 5000]

/-- Version 1 is stored over version 2, which was created in the same second. -/
def replayedPuts : List DhtCall := [.put (versionedRecord 2 5000), .put (versionedRecord 1 9000)]

private theorem replayedPublishes_accepted :
    ((directoryMachine .standIn).log .new replayedPublishes).filterMap published =
      [versionedRecord 2 5000, versionedRecord 1 9000] := by decide +kernel

private theorem replayedPuts_accepted : (dhtMachine.log .new replayedPuts).filterMap stored =
    [versionedRecord 2 5000, versionedRecord 1 9000] := by decide +kernel

private theorem sample_rolls_back : ¬ NeverRollsBack [versionedRecord 2 5000, versionedRecord 1 9000] := by
  intro never
  obtain ⟨ordered, -⟩ := (List.pairwise_pair.mp never) rfl
  exact absurd ordered (by decide)

theorem old_version_replaces_new : ¬ (directoryMachine .standIn).Throughout .new
        (fun past _ => NeverRollsBack (past.filterMap published)) replayedPublishes ∧
      ¬ dhtMachine.Throughout .new (fun past _ => NeverRollsBack (past.filterMap stored)) replayedPuts := by
  constructor
  · intro throughout
    have last : NeverRollsBack (((directoryMachine .standIn).log .new replayedPublishes).filterMap published) :=
      throughout replayedPublishes (List.prefix_refl _)
    rw [replayedPublishes_accepted] at last
    exact sample_rolls_back last
  · intro throughout
    have last : NeverRollsBack ((dhtMachine.log .new replayedPuts).filterMap stored) :=
      throughout replayedPuts (List.prefix_refl _)
    rw [replayedPuts_accepted] at last
    exact sample_rolls_back last

end Aafp.Discovery
