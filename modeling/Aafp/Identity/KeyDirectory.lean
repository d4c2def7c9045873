import Aafp.Foundation.HashMap
import Aafp.Identity.AgentRecord

/-! The key directory, in memory and in a database: the published record of each agent. -/
namespace Aafp.Identity

open Foundation Crypto Cbor

def rateLimitSecs : UInt64 := 3600

inductive RecordProblem where
  | identity (error : IdentityError)
  | text (message : String)
deriving DecidableEq

inductive DirectoryError where
  | invalidRecord (problem : RecordProblem)
  | rateLimited
deriving DecidableEq

structure KeyDirectory where
  records : AList fun _ : AgentId => AgentRecord
  lastPublish : AList fun _ : AgentId => UInt64
  directoryKey : Option AgentKeypair
  keyed : ∀ agentId record, records.lookup agentId = some record → record.agentId = agentId

namespace KeyDirectory

theorem keyed_empty : ∀ agentId record, (∅ : AList fun _ : AgentId => AgentRecord).lookup agentId = some record →
    record.agentId = agentId := forall_lookup_empty

def new : KeyDirectory where
  records := ∅
  lastPublish := ∅
  directoryKey := none
  keyed := keyed_empty

variable (directory : KeyDirectory)

/-- Look up an AgentRecord by AgentId. -/
def lookup (directory : KeyDirectory) (agentId : AgentId) : Option AgentRecord :=
  directory.records.lookup agentId

/-- The last publish is less than an hour ago: `now.saturating_sub(last)` is below the limit. -/
def rateLimited (agentId : AgentId) (now : UInt64) : Bool :=
  match directory.lastPublish.lookup agentId with
  | some last => (if last ≤ now then now - last else 0) < rateLimitSecs
  | none => false

def holdsLaterVersion (record : AgentRecord) : Bool :=
  match directory.lookup record.agentId with
  | some existing => record.recordVersion < existing.recordVersion
  | none => false

def insert (directory : KeyDirectory) (record : AgentRecord) (now : UInt64) : KeyDirectory where
  records := directory.records.insert record.agentId record
  lastPublish := directory.lastPublish.insert record.agentId now
  directoryKey := directory.directoryKey
  keyed := forall_lookup_insert directory.keyed rfl

/-- Publish an AgentRecord to the directory. -/
def publish (prims : Primitives) (record : AgentRecord) (now : UInt64) :
    Except DirectoryError Unit × KeyDirectory :=
  match record.verify prims now with
  | .error error => (.error (.invalidRecord (.identity error)), directory)
  | .ok () =>
    if directory.rateLimited record.agentId now then (.error .rateLimited, directory)
    else if directory.holdsLaterVersion record then
      (.error (.invalidRecord (.text "record_version is older than existing")), directory)
    else (.ok (), directory.insert record now)

def verify (directory : KeyDirectory) (prims : Primitives) (agentId : AgentId) (record : AgentRecord)
    (now : UInt64) : Bool :=
  match directory.lookup agentId with
  | some stored => stored.agentId = record.agentId ∧ stored.publicKey = record.publicKey ∧
      stored.signature = record.signature ∧ record.verify prims now = .ok ()
  | none => false

def evictExpired (now : UInt64) : KeyDirectory :=
  { directory with
    records := retain (fun record => !record.isExpired now) directory.records
    keyed := fun agentId record found =>
      directory.keyed agentId record (lookup_retain_eq_some.mp found).1 }

/-- A record that verifies, in time, and not older than the stored one. -/
def Admits (prims : Primitives) (record : AgentRecord) (now : UInt64) : Prop :=
  record.verify prims now = .ok () ∧ directory.rateLimited record.agentId now = false ∧
    directory.holdsLaterVersion record = false

instance (prims : Primitives) (record : AgentRecord) (now : UInt64) :
    Decidable (directory.Admits prims record now) :=
  inferInstanceAs (Decidable (_ ∧ _ ∧ _))

theorem publish_of_admits {directory : KeyDirectory} (admits : directory.Admits prims record now) :
    directory.publish prims record now = (.ok (), directory.insert record now) := by
  obtain ⟨verified, inTime, current⟩ := admits
  simp [publish, verified, inTime, current]

theorem publish_of_not_admits {directory : KeyDirectory} (refuses : ¬ directory.Admits prims record now) :
    ∃ error, directory.publish prims record now = (.error error, directory) := by
  unfold publish
  cases verified : record.verify prims now with
  | error error => exact ⟨_, rfl⟩
  | ok =>
    split_ifs with limited later
    · exact ⟨_, rfl⟩
    · exact ⟨_, rfl⟩
    · exact absurd ⟨verified, Bool.eq_false_iff.mpr limited, Bool.eq_false_iff.mpr later⟩ refuses

end KeyDirectory

inductive PersistentDirectoryError where
  | directory (error : DirectoryError)
  | cbor (error : CborError)
  | identity (error : IdentityError)

structure DirectoryRow where
  recordCbor : List UInt8
  recordVersion : Int64
  expiresAt : Int64
  lastPublish : Int64

def DirectoryRow.ofRecord (recordCbor : List UInt8) (record : AgentRecord) (now : UInt64) : DirectoryRow :=
  ⟨recordCbor, record.recordVersion.toInt64, record.expiresAt.toInt64, now.toInt64⟩

def readRecord (data : List UInt8) : Except PersistentDirectoryError AgentRecord := do
  let (val, _) ← (decode data).mapError .cbor
  (AgentRecord.fromCbor val).mapError .identity

/-- The table `key_directory`. -/
structure PersistentKeyDirectory where
  rows : AList fun _ : AgentId => DirectoryRow

namespace PersistentKeyDirectory

def inMemory : PersistentKeyDirectory := ⟨∅⟩

variable (directory : PersistentKeyDirectory)

def lookup (directory : PersistentKeyDirectory) (agentId : AgentId) :
    Except PersistentDirectoryError (Option AgentRecord) :=
  match directory.rows.lookup agentId with
  | some row => (readRecord row.recordCbor).map some
  | none => .ok none

/-- `SELECT last_publish`, compared as in memory. -/
def rateLimited (agentId : AgentId) (now : UInt64) : Bool :=
  match directory.rows.lookup agentId with
  | some row =>
    let last := row.lastPublish.toUInt64
    (if last ≤ now then now - last else 0) < rateLimitSecs
  | none => false

/-- `SELECT record_version`, compared as signed numbers. -/
def holdsLaterVersion (record : AgentRecord) : Bool :=
  match directory.rows.lookup record.agentId with
  | some row => record.recordVersion.toInt64 < row.recordVersion
  | none => false

/-- `INSERT OR REPLACE` of a record that passes the checks. -/
def publish (prims : Primitives) (record : AgentRecord) (now : UInt64) :
    Except PersistentDirectoryError Unit × PersistentKeyDirectory :=
  match record.verify prims now with
  | .error error => (.error (.directory (.invalidRecord (.identity error))), directory)
  | .ok () =>
    if directory.rateLimited record.agentId now then (.error (.directory .rateLimited), directory)
    else if directory.holdsLaterVersion record then
      (.error (.directory (.invalidRecord (.text "record_version is older than existing"))), directory)
    else
      match encode record.toCbor with
      | .error error => (.error (.cbor error), directory)
      | .ok cborBytes =>
        (.ok (), ⟨directory.rows.insert record.agentId (.ofRecord cborBytes record now)⟩)

def verify (directory : PersistentKeyDirectory) (prims : Primitives) (agentId : AgentId) (record : AgentRecord)
    (now : UInt64) : Except PersistentDirectoryError Bool := do
  match ← directory.lookup agentId with
  | some stored => .ok (stored.agentId = record.agentId ∧ stored.publicKey = record.publicKey ∧
      stored.signature = record.signature ∧ record.verify prims now = .ok ())
  | none => .ok false

/-- `DELETE … WHERE expires_at < now`, which counts the rows that it deletes. -/
def evictExpired (now : UInt64) : Nat × PersistentKeyDirectory :=
  (directory.rows.entries.countP fun entry => entry.2.expiresAt < now.toInt64,
    ⟨retain (fun row => !(row.expiresAt < now.toInt64)) directory.rows⟩)

end PersistentKeyDirectory

end Aafp.Identity
