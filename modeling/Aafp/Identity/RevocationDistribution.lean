import Aafp.Identity.Revocation

/-! Distribution of revocation lists. -/
namespace Aafp.Identity

open Foundation Cbor Crypto

def methodRevocationPublish : String := "aafp.revocation.publish"

def methodRevocationQuery : String := "aafp.revocation.query"

def methodRevocationList : String := "aafp.revocation.list"

inductive RevocationDistError where
  | cbor (error : CborError)
  | revocation (error : RevocationError)
  | invalidRequest (message : String)
  | identity (error : IdentityError)

def encodeCrlMessage (crl : RevocationList) : List UInt8 :=
  encodeValue (.intMap [(1, .byteString crl.encode)])

def decodeCrlMessage (missing : String) (data : List UInt8) : Except RevocationDistError RevocationList := do
  let (val, _) ← (decode data).mapError .cbor
  match intMapGet val 1 with
  | some (.byteString crlBytes) => (RevocationList.decode crlBytes).mapError .revocation
  | _ => .error (.invalidRequest missing)

variable (data : List UInt8)

def decodePublishRequest : Except RevocationDistError RevocationList :=
  decodeCrlMessage "missing crl field" data

def encodePublishResponse (status : UInt64) (message : String) : List UInt8 :=
  encodeValue (.intMap [(1, .unsigned status), (2, .textString message)])

def decodeQueryRequest : Except RevocationDistError AgentId := do
  let (val, _) ← (decode data).mapError .cbor
  match intMapGet val 1 with
  | some (.byteString bytes) => (agentIdFromBytes bytes).mapError .identity
  | _ => .error (.invalidRequest "missing agent_id")

def encodeQueryResponse (entry : Option RevocationEntry) : List UInt8 :=
  match entry with
  | some entry => encodeValue (.intMap [(1, .byteString (encodeValue entry.toCbor))])
  | none => encodeValue (.intMap [(1, .null)])

def encodeListResponse (crl : RevocationList) : List UInt8 := encodeCrlMessage crl

namespace RevocationStore

/-- A list that has not expired is merged; no signature is looked at. -/
def handlePublish (store : RevocationStore) (params : List UInt8) (now : UInt64) :
    Except RevocationDistError (List UInt8) × RevocationStore :=
  match decodePublishRequest params with
  | .error error => (.error error, store)
  | .ok crl =>
    if crl.isExpired now then (.ok (encodePublishResponse 1 "CRL expired"), store)
    else (.ok (encodePublishResponse 0 "accepted"), store.addCrl crl)

/-- The answer does not say whether the agent is revoked. -/
def handleQuery (_store : RevocationStore) (params : List UInt8) : Except RevocationDistError (List UInt8) := do
  let _agentId ← decodeQueryRequest params
  .ok (encodeQueryResponse none)

/-- The answer lists no entry. `clock` is the time of the system. -/
def handleList (_store : RevocationStore) (clock : UInt64) : List UInt8 :=
  encodeListResponse (.new clock defaultCrlTtlSecs)

def handleRequest (store : RevocationStore) (method : String) (params : List UInt8)
    (now clock : UInt64) : Except RevocationDistError (List UInt8) × RevocationStore :=
  if method = methodRevocationPublish then store.handlePublish params now
  else if method = methodRevocationQuery then (store.handleQuery params, store)
  else if method = methodRevocationList then (.ok (store.handleList clock), store)
  else (.error (.invalidRequest s!"unknown method: {method}"), store)

def receiveCrl (store : RevocationStore) (crl : RevocationList) (now : UInt64) : Bool × RevocationStore :=
  if crl.isExpired now then (false, store)
  else
    let before := store.revokedCount
    let store := store.addCrl crl
    (store.revokedCount > before, store)

/-- The signing key is not at hand, so the entries are not signed. -/
def gossipedEntry (agentId : AgentId) (now : UInt64) : RevocationEntry :=
  { agentId, revokedAt := now, reason := some "gossiped", revokingKeyId := agentId, signature := [] }

def getCurrentCrl (store : RevocationStore) (pass : IterationOrder AgentId Unit) (now : UInt64) : RevocationList :=
  { RevocationList.new now defaultCrlTtlSecs with
    entries := (store.revokedIds pass).map fun agentId => gossipedEntry agentId now }

def broughtBy (method : String) (params : List UInt8) : Option RevocationList :=
  if method = methodRevocationPublish then (decodePublishRequest params).toOption else none

theorem handleRequest_of_brought (store : RevocationStore) (brought : broughtBy method params = some crl) :
    (store.handleRequest method params now clock).2 = (store.receiveCrl crl now).2 := by
  unfold broughtBy at brought
  split at brought
  case isFalse => cases brought
  case isTrue publish =>
    cases decoded : decodePublishRequest params with
    | error error => simp [decoded, Except.toOption] at brought
    | ok list =>
      obtain rfl : list = crl := by simpa [decoded, Except.toOption] using brought
      simp only [handleRequest, publish, if_true, handlePublish, decoded, receiveCrl]
      split <;> rfl

theorem handleRequest_of_none (store : RevocationStore) (brought : broughtBy method params = none) :
    (store.handleRequest method params now clock).2 = store := by
  unfold broughtBy at brought
  unfold handleRequest
  split at brought
  case isTrue publish =>
    cases decoded : decodePublishRequest params with
    | error error => simp [publish, handlePublish, decoded]
    | ok list => simp [decoded, Except.toOption] at brought
  case isFalse other =>
    rw [if_neg other]
    split
    · rfl
    · split <;> rfl

end RevocationStore

end Aafp.Identity
