import Aafp.Foundation.HashMap
import Aafp.Foundation.Like
import Aafp.Identity.AgentRecord

/-! The table of records that is kept in a database. -/
namespace Aafp.Discovery

open Foundation Identity Crypto

inductive DhtError where
  | verificationFailed
  | notFound
  | capabilityNotFound (capability : String)
  | persistence (message : String)

structure AgentRow where
  recordData : List UInt8
  capabilities : String
  expiresAt : Int64
  updatedAt : UInt64

/-- Persistent capability DHT backed by SQLite. -/
structure PersistentDht where
  agentRecords : AList fun _ : AgentId => AgentRow

namespace PersistentDht

/-- What the source takes from other crates. -/
structure Deps where
  prims : Primitives
  codec : LegacyCodec

def inMemory : PersistentDht := ⟨∅⟩

def joinedNames (record : LegacyRecord) : String := ",".intercalate record.capabilities

/-- `INSERT OR REPLACE` of the row of a record that verifies. -/
def put (dht : PersistentDht) (deps : Deps) (record : LegacyRecord) (now : UInt64) :
    Except DhtError Unit × PersistentDht :=
  if !record.verify deps.prims deps.codec then (.error .verificationFailed, dht)
  else match deps.codec.toBytes record with
    | .error message => (.error (.persistence message), dht)
    | .ok recordData =>
      let row : AgentRow := { recordData, capabilities := joinedNames record, expiresAt := 0, updatedAt := now }
      (.ok (), ⟨dht.agentRecords.insert record.agentId row⟩)

/-- The rows are selected by `capabilities LIKE '%…%'`, in an order that nothing fixes. -/
def get (dht : PersistentDht) (deps : Deps) (pass : IterationOrder AgentId AgentRow) (capability : String) :
    Except DhtError (List LegacyRecord) :=
  let pattern := "%" ++ capability ++ "%"
  let rows := (pass.iterate dht.agentRecords).filter fun entry =>
    like pattern.toList entry.2.capabilities.toList
  rows.mapM fun entry => (deps.codec.fromBytes entry.2.recordData).mapError .persistence

def removeAgent (dht : PersistentDht) (agentId : AgentId) : Except DhtError Unit × PersistentDht :=
  (.ok (), ⟨dht.agentRecords.erase agentId⟩)

end PersistentDht

end Aafp.Discovery
