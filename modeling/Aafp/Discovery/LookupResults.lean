import Aafp.Discovery.CapabilityRuns
import Aafp.Discovery.DhtRouter
import Aafp.Discovery.RoutingRuns
import Aafp.Foundation.Ledger

/-! When a lookup returns only records that verify and have the capability. -/
namespace Aafp.Discovery

open Foundation Identity Crypto Program
open List hiding after

section Heard

variable (prims : Primitives) (now : UInt64)

def verifies (record : AgentRecord) : Bool :=
  match record.verify prims now with
  | .ok () => true
  | .error _ => false

def answered : Event dhtTransport → List AgentRecord
  | ⟨.lookupOnPeer _ _ _, .ok records⟩ => records.filter (verifies prims now)
  | _ => []

def Remembers (results : Found) (heard : List AgentRecord) : Prop :=
  ∀ agentId, results.lookup agentId = lastWith AgentRecord.agentId agentId heard

variable {prims now}

theorem verifies_iff : verifies prims now record = true ↔ record.verify prims now = .ok () := by
  unfold verifies
  split <;> simp_all

theorem remembers_nil : Remembers ∅ [] := fun _ => rfl

theorem remembers_insert (before : Remembers results heard) (record : AgentRecord) :
    Remembers (results.insert record) (heard ++ [record]) := by
  intro agentId
  rw [lastWith_concat, Found.insert, lookup_insert_ite, before agentId]

theorem remembers_inserts (before : Remembers results heard) (records : List AgentRecord) :
    Remembers (records.foldl Found.insert results) (heard ++ records) := by
  induction records generalizing results heard with
  | nil => simpa using before
  | cons record records ih =>
    have after := ih (remembers_insert before record)
    rwa [append_assoc] at after

theorem foldl_takeVerified (results : Found) (records : List AgentRecord) :
    records.foldl (Search.takeVerified prims now) results =
      (records.filter (verifies prims now)).foldl Found.insert results := by
  induction records generalizing results with
  | nil => rfl
  | cons record records ih =>
    rw [foldl_cons, ih, Search.takeVerified]
    cases outcome : record.verify prims now with
    | ok => simp [verifies, outcome]
    | error error => simp [verifies, outcome]

theorem remembers_hear {search : Search} (before : Remembers search.results heard)
    (answer : Except DhtTransportError (List AgentRecord)) : Remembers (search.hear prims now answer).results
      (heard ++ answered prims now ⟨.lookupOnPeer peerId capability limit, answer⟩) := by
  cases answer with
  | error error => simpa [answered, Search.hear] using before
  | ok records =>
    rw [Search.hear, foldl_takeVerified]
    exact remembers_inserts before _

theorem results_learn (search : Search) (peers : List AgentRecord) :
    (peers.foldl (Search.learn prims now seen) search).results = search.results := by
  induction peers generalizing search with
  | nil => rfl
  | cons peer peers ih =>
    rw [foldl_cons, ih, Search.learn]
    split <;> rfl

theorem results_meet (search : Search) (answer : Except DhtTransportError (List AgentRecord)) :
    (search.meet prims now seen answer).results = search.results := by
  cases answer with
  | ok peers => exact results_learn search peers
  | error error => rfl

end Heard

section Rounds

variable {prims : Primitives} {now : UInt64} {seen : Instant}

variable {search after : Search}

section

variable (before : Remembers search.results heard)
include before

private theorem remembers_return
    (run : (pure search : Program dhtTransport Empty Search).Yields events (.ok after)) :
    Remembers after.results (heard ++ events.flatMap (answered prims now)) := by
  obtain ⟨rfl, rfl⟩ := yields_pure.mp run
  simpa using before

theorem remembers_queryPeer (run : (search.queryPeer prims now seen capability k peer).Yields events (.ok after)) :
    Remembers after.results (heard ++ events.flatMap (answered prims now)) := by
  obtain ⟨found, _, rest, same, rfl, run⟩ := yields_query_bind.mp run
  cases same
  obtain ⟨peers, _, rest, same, rfl, run⟩ := yields_query_bind.mp run
  cases same
  obtain ⟨rfl, rfl⟩ := yields_pure.mp run
  have more : Remembers ({ search with queried := search.queried.insert peer.agentId () }.hear prims now found).results
      (heard ++ answered prims now ⟨.lookupOnPeer peer.agentId capability (some k), found⟩) :=
    remembers_hear (by exact before) found
  rw [results_meet]
  simpa [answered] using more

theorem remembers_queryBatch
    (run : (search.queryBatch prims now seen capability k batch).Yields events (.ok after)) :
    Remembers after.results (heard ++ events.flatMap (answered prims now)) := by
  induction batch generalizing search heard events with
  | nil => exact remembers_return before run
  | cons peer batch ih =>
    obtain ⟨next, front, back, rfl, first, rest⟩ := yields_bind.mp run
    have after := ih (remembers_queryPeer before first) rest
    rwa [append_assoc, ← flatMap_append] at after

theorem remembers_rounds
    (run : (search.rounds prims now seen capability k iterations toQuery).Yields events (.ok after)) :
    Remembers after.results (heard ++ events.flatMap (answered prims now)) := by
  induction iterations generalizing search heard events toQuery with
  | zero => exact remembers_return before run
  | succ iterations ih =>
    unfold Search.rounds at run
    split at run
    · exact remembers_return before run
    split at run
    · exact remembers_return before run
    dsimp only at run
    split at run
    · exact remembers_return before run
    obtain ⟨next, front, back, rfl, first, rest⟩ := yields_bind.mp run
    have middle : Remembers next.results (heard ++ front.flatMap (answered prims now)) :=
      remembers_queryBatch (by exact before) first
    have last := ih middle rest
    rwa [append_assoc, ← flatMap_append] at last

end

end Rounds

namespace DhtRouter

section Lookup

variable (router : DhtRouter) (prims : Primitives) (now : UInt64) (seen : Instant)
  (listed : IterationOrder AgentId Unit) (capability : String) (k : Nat)

def gather : Program dhtTransport Empty Search :=
  let results := (router.lookupLocal listed capability).foldl Found.insert ∅
  let search : Search := { router, results, queried := ∅, newPeers := [] }
  let initialPeers := (router.routingTable.closestPeers (Distance.toCapabilityKey prims capability)
    router.config.alpha).filter fun peer => peer.agentId ≠ router.selfId
  if results.keys.length ≥ k then return search
  else if initialPeers.isEmpty then return search
  else search.rounds prims now seen capability k router.config.maxLookupIterations initialPeers

variable {router prims now seen listed capability k}

theorem yields_findPeers {pass : RecordOrder} :
    (router.findPeers prims now seen listed pass capability k).Yields events (.ok (records, after)) ↔
      ∃ search, (router.gather prims now seen listed capability k).Yields events (.ok search) ∧
        records = ((pass.iterate search.results).map Sigma.snd).take k ∧ after = search.router := by
  unfold findPeers gather
  dsimp only
  split
  · simp [yields_pure, and_assoc]
  next few =>
    split
    · have all (results : Found) (few : ¬ results.keys.length ≥ k) :
          ((pass.iterate results).map Sigma.snd).take k = (pass.iterate results).map Sigma.snd := by
        apply take_of_length_le
        rw [length_map, IterationOrder.iterate, (pass.perm _).length_eq]
        have short : results.entries.length < k := by simpa [AList.keys, keys] using few
        exact Nat.le_of_lt short
      simp [yields_pure, all _ few, and_assoc]
    · rw [yields_bind]
      simp [yields_pure]

/-- The local records that have the capability, and all that verifies in the answers. -/
def heard (router : DhtRouter) (prims : Primitives) (now : UInt64) (listed : IterationOrder AgentId Unit)
    (capability : String) (events : List (Event dhtTransport)) : List AgentRecord :=
  router.lookupLocal listed capability ++ events.flatMap (answered prims now)

theorem remembers_gather (run : (router.gather prims now seen listed capability k).Yields events (.ok search)) :
    Remembers search.results (router.heard prims now listed capability events) := by
  have start : Remembers ((router.lookupLocal listed capability).foldl Found.insert ∅)
      (router.lookupLocal listed capability) := by
    simpa using remembers_inserts remembers_nil (router.lookupLocal listed capability)
  unfold gather at run
  dsimp only at run
  split at run
  · exact remembers_return (by exact start) run
  · split at run
    · exact remembers_return (by exact start) run
    · exact remembers_rounds (by exact start) run

end Lookup

inductive LocalCall where
  | storeLocal (record : AgentRecord) (now : UInt64)
  | evictExpired (pass : RecordOrder) (now : UInt64)
  | removeLocalRecord (agentId : AgentId)

def serveLocal (prims : Primitives) (router : DhtRouter) : LocalCall → DhtRouter
  | .storeLocal record now => (router.storeLocal prims now record).2
  | .evictExpired pass now => (router.evictExpired now pass).2
  | .removeLocalRecord agentId => (router.removeLocalRecord agentId).2

/-- The local table is consistent, and each of its records verified when it was stored. -/
structure LocalSound (prims : Primitives) (dht : CapabilityDht) : Prop where
  consistent : dht.Consistent
  verified : ∀ agentId record, dht.getById agentId = some record → ∃ past, record.verify prims past = .ok ()

theorem localSound_serveLocal {router : DhtRouter} (sound : LocalSound prims router.localDht) (call : LocalCall) :
    LocalSound prims (router.serveLocal prims call).localDht := by
  cases call with
  | evictExpired pass now =>
    refine ⟨CapabilityDht.consistent_evictExpired sound.consistent pass now, ?_⟩
    intro agentId record found
    exact sound.verified agentId record (CapabilityDht.getById_of_evictExpired found)
  | removeLocalRecord removed =>
    refine ⟨CapabilityDht.consistent_removeById sound.consistent removed, ?_⟩
    intro agentId record found
    exact sound.verified agentId record (CapabilityDht.getById_of_removeById found)
  | storeLocal added now =>
    unfold serveLocal storeLocal
    dsimp only
    split
    · exact sound
    next verified =>
      refine ⟨CapabilityDht.consistent_put sound.consistent added, ?_⟩
      cases admitted : router.localDht.admits added with
      | false =>
        intro agentId record found
        apply sound.verified agentId record
        rwa [CapabilityDht.getById, (CapabilityDht.put_of_not_admits admitted).2] at found
      | true =>
        intro agentId record found
        rw [CapabilityDht.getById, (CapabilityDht.put_of_admits admitted).2] at found
        exact forall_lookup_insert sound.verified ⟨now, verified⟩ agentId record found

def filledBy (prims : Primitives) (router : DhtRouter) (calls : List LocalCall) : DhtRouter :=
  calls.foldl (serveLocal prims) { router with localDht := .new }

theorem localSound_filledBy (prims : Primitives) (router : DhtRouter) (calls : List LocalCall) :
    LocalSound prims (filledBy prims router calls).localDht := by
  have kept : ∀ router : DhtRouter, LocalSound prims router.localDht →
      LocalSound prims (calls.foldl (serveLocal prims) router).localDht := by
    induction calls with
    | nil => exact fun _ sound => sound
    | cons call calls ih => exact fun router sound => ih _ (localSound_serveLocal sound call)
  exact kept _ ⟨CapabilityDht.consistent_new, forall_lookup_empty⟩

end DhtRouter

theorem verify_iff_unexpired {record : AgentRecord} (verified : record.verify prims past = .ok ()) :
    record.verify prims now = .ok () ↔ now < record.expiresAt := by
  simp only [AgentRecord.verify, unit_bind_eq_ok, ensure_eq_ok] at verified ⊢
  simp [verified]

/-- At most `k` records of different agents, which all verify and have the capability. -/
structure ValidResults (prims : Primitives) (now : UInt64) (capability : String) (k : Nat)
    (records : List AgentRecord) : Prop where
  bounded : records.length ≤ k
  distinct : (records.map AgentRecord.agentId).Nodup
  valid : ∀ record ∈ records, record.verify prims now = .ok () ∧ Lists record capability

private theorem distinct_values (remembers : Remembers results heard) (pass : RecordOrder) :
    (((pass.iterate results).map Sigma.snd).map AgentRecord.agentId).Nodup := by
  have keyed : ((pass.iterate results).map Sigma.snd).map AgentRecord.agentId =
      (pass.iterate results).map Sigma.fst := by
    rw [map_map]
    apply map_congr_left
    intro entry mem
    have found := remembers entry.1
    rw [mem_iterate.mp mem] at found
    exact (mem_of_lastWith found.symm).2
  rw [keyed, IterationOrder.iterate, ((pass.perm _).map _).nodup_iff]
  exact results.keys_nodup

private theorem read_first {results : Found} (found : results.lookup agentId = some record) (positive : k ≠ 0) :
    record ∈ (((IterationOrder.startingWith ⟨agentId, record⟩).iterate results).map Sigma.snd).take k := by
  have inside : ⟨agentId, record⟩ ∈ results.entries := AList.mem_lookup_iff.mp found
  obtain ⟨more, rfl⟩ := Nat.exists_eq_succ_of_ne_zero positive
  simp [IterationOrder.iterate, IterationOrder.startingWith, inside]

private theorem heard_verifies {router : DhtRouter} (sound : DhtRouter.LocalSound prims router.localDht)
    (mem : record ∈ router.heard prims now listed capability events) (unexpired : now < record.expiresAt) :
    record.verify prims now = .ok () := by
  rcases mem_append.mp mem with inside | told
  · have stored := ((CapabilityDht.mem_get sound.consistent).mp inside).1
    obtain ⟨past, verified⟩ := sound.verified record.agentId record stored
    exact (verify_iff_unexpired verified).mpr unexpired
  · obtain ⟨event, -, taken⟩ := mem_flatMap.mp told
    unfold answered at taken
    split at taken
    · exact verifies_iff.mp (mem_filter.mp taken).2
    · cases taken

private theorem valid_iff_heard {router : DhtRouter} (sound : DhtRouter.LocalSound prims router.localDht)
    (run : (router.findPeers prims now seen listed first capability k).Yields events (.ok outcome)) :
    (∀ pass records after,
      (router.findPeers prims now seen listed pass capability k).Yields events (.ok (records, after)) →
        ValidResults prims now capability k records) ↔ (k = 0 ∨ ∀ agentId record,
        lastWith AgentRecord.agentId agentId (router.heard prims now listed capability events) =
          some record → now < record.expiresAt ∧ Lists record capability) := by
  constructor
  · intro always
    rw [or_iff_not_imp_left]
    intro positive agentId record last
    obtain ⟨search, gathered, -⟩ := DhtRouter.yields_findPeers.mp run
    have found : search.results.lookup agentId = some record := by
      rw [DhtRouter.remembers_gather gathered]
      exact last
    have results := always (.startingWith ⟨agentId, record⟩) _ _
      (DhtRouter.yields_findPeers.mpr ⟨search, gathered, rfl, rfl⟩)
    obtain ⟨verified, lists⟩ := results.valid record (read_first found positive)
    exact ⟨(verify_iff_unexpired verified).mp verified, lists⟩
  · intro condition pass records after done
    obtain ⟨search, gathered, rfl, -⟩ := DhtRouter.yields_findPeers.mp done
    have remembers := DhtRouter.remembers_gather gathered
    refine ⟨length_take_le _ _, ?_, ?_⟩
    · rw [map_take]
      exact (distinct_values remembers pass).sublist (take_sublist _ _)
    · intro record mem
      rcases condition with rfl | each
      · simp at mem
      · obtain ⟨entry, visited, rfl⟩ := mem_map.mp (mem_of_mem_take mem)
        have last := remembers entry.1
        rw [mem_iterate.mp visited, eq_comm] at last
        obtain ⟨unexpired, lists⟩ := each entry.1 entry.2 last
        exact ⟨heard_verifies sound (mem_of_lastWith last).1 unexpired, lists⟩

/-- A lookup returns valid results exactly if the last record that it heard of each agent has the
capability and has not expired, or if it was asked for none. -/
theorem find_peers_valid_iff (prims : Primitives) (node : DhtRouter) (calls : List DhtRouter.LocalCall)
    (now : UInt64) (seen : Instant) (listed : IterationOrder AgentId Unit)
    (first : RecordOrder) (capability : String) (k : Nat)
    (events : List (Event dhtTransport)) (outcome : List AgentRecord × DhtRouter)
    (run : ((node.filledBy prims calls).findPeers prims now seen listed first capability k).Yields
      events (.ok outcome)) : (∀ pass records after,
      ((node.filledBy prims calls).findPeers prims now seen listed pass capability k).Yields
          events (.ok (records, after)) → ValidResults prims now capability k records) ↔ (k = 0 ∨ ∀ agentId record,
        lastWith AgentRecord.agentId agentId
            ((node.filledBy prims calls).heard prims now listed capability events) = some record →
          now < record.expiresAt ∧ Lists record capability) :=
  valid_iff_heard (DhtRouter.localSound_filledBy prims node calls) run

def signedRecord (seed : UInt8) (capabilities : List CapabilityDescriptor) (expiresAt : UInt64) : AgentRecord :=
  (AgentRecord.new .standIn (standInKeys seed).publicKey capabilities [] 1000 expiresAt
    Identity.keyAlgMlDsa65).sign .standIn (standInKeys seed).secretKey []

def ownId : AgentId := .filled 0

def searchRecord : AgentRecord := signedRecord 1 [.new "search"] 5000

def nodeWithRecord : DhtRouter :=
  (DhtRouter.withConfig ownId {}).filledBy .standIn [.storeLocal searchRecord 1000]

private theorem lookupLocal_nodeWithRecord :
    nodeWithRecord.lookupLocal .inOrder "search" = [searchRecord] := by decide +kernel

private theorem findPeers_nodeWithRecord (now : UInt64) :
    (nodeWithRecord.findPeers .standIn now 0 .inOrder .inOrder "search" 1).Yields []
      (.ok ([searchRecord], nodeWithRecord)) := by
  unfold DhtRouter.findPeers
  rw [lookupLocal_nodeWithRecord]
  exact .here

/-- Before it expires, the stored record is returned, and is a valid result. -/
theorem find_peers_valid_before_expiry :
    (nodeWithRecord.findPeers .standIn 2000 0 .inOrder .inOrder "search" 1).Yields []
        (.ok ([searchRecord], nodeWithRecord)) ∧ ValidResults .standIn 2000 "search" 1 [searchRecord] := by
  have run := findPeers_nodeWithRecord 2000
  refine ⟨run, ?_⟩
  refine (find_peers_valid_iff .standIn (DhtRouter.withConfig ownId {}) [.storeLocal searchRecord 1000] 2000 0
    .inOrder .inOrder "search" 1 [] _ run).mpr (.inr ?_) _ _ _ run
  intro agentId record last
  have mem := (mem_of_lastWith last).1
  rw [DhtRouter.heard, ← nodeWithRecord, lookupLocal_nodeWithRecord, flatMap_nil, append_nil,
    mem_singleton] at mem
  subst mem
  exact ⟨by decide, .new "search", mem_singleton_self _, rfl⟩

def strangerRecord : AgentRecord := recordPlaceholder (.filled 1)

def nodeWithStranger : DhtRouter :=
  let node := DhtRouter.withConfig ownId {}
  { node with routingTable := (node.routingTable.addPeer strangerRecord 0).2 }

/-- It verifies, and has no capability. -/
def foreignRecord : AgentRecord := signedRecord 2 [] 9000

/-- The peer answers a lookup with a record that was not asked for. -/
def foreignAnswer : List (Event dhtTransport) := [
  ⟨.lookupOnPeer strangerRecord.agentId "search" (some 1), .ok [foreignRecord]⟩,
  ⟨.pexOnPeer strangerRecord.agentId (recordPlaceholder ownId) [], .ok []⟩]

deriving instance DecidableEq for PeerCall

private theorem replay_nodeWithStranger :
    (replay foreignAnswer (nodeWithStranger.findPeers .standIn 1000 0 .inOrder .inOrder "search" 1)).map
      (Except.map Prod.fst) = some (.ok [foreignRecord]) := by decide +kernel

/-- A record is returned after it has expired, and one without the capability if a peer
answers with it. -/
theorem invalid_records_found :
    (∃ records after, (nodeWithRecord.findPeers .standIn 6000 0 .inOrder .inOrder "search" 1).Yields []
        (.ok (records, after)) ∧ ¬ ValidResults .standIn 6000 "search" 1 records) ∧
      ∃ records after, (nodeWithStranger.findPeers .standIn 1000 0 .inOrder .inOrder "search" 1).Yields
        foreignAnswer (.ok (records, after)) ∧ ¬ ValidResults .standIn 1000 "search" 1 records := by
  constructor
  · refine ⟨_, _, findPeers_nodeWithRecord 6000, fun valid => ?_⟩
    have verified := (valid.valid searchRecord (mem_singleton_self _)).1
    have unexpired := (verify_iff_unexpired verified).mp verified
    exact absurd unexpired (by decide)
  · obtain ⟨result, run, listed⟩ := Option.map_eq_some_iff.mp replay_nodeWithStranger
    cases result with
    | error error => cases listed
    | ok found =>
      refine ⟨found.1, found.2, yields_of_replay run, fun valid => ?_⟩
      rw [Except.ok.inj listed] at valid
      obtain ⟨cap, mem, -⟩ := (valid.valid foreignRecord (mem_singleton_self _)).2
      cases mem

end Aafp.Discovery
