import Aafp.Discovery.RoutingTable
import Mathlib.Data.LawfulXor.Basic

/-! What holds of a routing table after every run. -/
namespace Aafp.Discovery

open Foundation Identity Crypto List

def idNumber (id : Bytes32) : Nat := ofBigEndian id.1

theorem number_between (a b : AgentId) : ofBigEndian (Distance.between a b).1 = idNumber a ^^^ idNumber b :=
  ofBigEndian_xorBytes (a.2.trans b.2.symm)

instance : Std.TransCmp Distance.cmp := transCmp_comap compare Subtype.val

theorem Distance.cmp_between : cmp (between a target) (between b target) =
      compare (idNumber a ^^^ idNumber target) (idNumber b ^^^ idNumber target) := by
  rw [cmp, compare_eq_compare_ofBigEndian (by simp [between, a.2, b.2, target.2]), number_between, number_between]

namespace RoutingTable

theorem bucketIndex_eq_some {table : RoutingTable} : table.bucketIndex peerId = some index ↔
      IsTopBit idBits (idNumber table.selfId ^^^ idNumber peerId) index := by
  have place : (Distance.between table.selfId peerId).bucketIndex = some index.val ↔
      IsTopBit idBits (idNumber table.selfId ^^^ idNumber peerId) index := by
    rw [Distance.bucketIndex, firstSetBit_eq_some, number_between, (Distance.between _ _).2]
    rfl
  rw [← place]
  unfold bucketIndex
  split
  next found same => simp [same, Fin.ext_iff]
  next missing => simp [missing]

end RoutingTable

namespace KBucket

def ids (bucket : KBucket) : List AgentId := bucket.entries.map PeerEntry.agentId

/-- A bucket of at most `k` entries of different peers, all of which belong in it. -/
structure Sound (k : Nat) (Belongs : AgentId → Prop) (bucket : KBucket) : Prop where
  capacity : bucket.maxSize = k
  bounded : bucket.entries.length ≤ k
  distinct : bucket.ids.Nodup
  belong : ∀ agentId ∈ bucket.ids, Belongs agentId

variable {bucket : KBucket} {Belongs : AgentId → Prop}

theorem sound_new : (KBucket.new k).Sound k Belongs := ⟨rfl, Nat.zero_le _, nodup_nil, by simp [ids, new]⟩

theorem Sound.of_sublist {changed : KBucket} (sound : bucket.Sound k Belongs)
    (capacity : changed.maxSize = bucket.maxSize) (sub : changed.ids.Sublist bucket.ids) :
    changed.Sound k Belongs where
  capacity := capacity.trans sound.capacity
  bounded := by
    have shorter := sub.length_le
    simp only [ids, length_map] at shorter
    exact Nat.le_trans shorter sound.bounded
  distinct := sound.distinct.sublist sub
  belong agentId mem := sound.belong agentId (sub.subset mem)

private theorem position_some (found : bucket.position agentId = some place) :
    ∃ entry, bucket.entries[place]? = some entry ∧ entry.agentId = agentId := by
  obtain ⟨inside, same, -⟩ := findIdx?_eq_some_iff_getElem.mp found
  exact ⟨_, getElem?_eq_getElem inside, by simpa using same⟩

private theorem position_none (missing : bucket.position agentId = none) : agentId ∉ bucket.ids := by
  intro mem
  obtain ⟨entry, inside, same⟩ := mem_map.mp mem
  have apart := findIdx?_eq_none_iff.mp missing entry inside
  simp [same] at apart

private theorem map_modify_of_same {items : List α} {write : α → α}
    (same : ∀ item, items[place]? = some item → key (write item) = key item) :
    (items.modify place write).map key = items.map key := by
  apply ext_getElem?
  intro index
  rw [getElem?_map, getElem?_map, getElem?_modify]
  by_cases here : place = index
  · subst here
    cases found : items[place]? with
    | none => rfl
    | some item => simp [same item found]
  · simp [here]

theorem ids_getMut {write : PeerEntry → PeerEntry}
    (keeps : ∀ entry, entry.agentId = agentId → (write entry).agentId = agentId)
    (written : bucket.getMut agentId write = some changed) :
    changed.maxSize = bucket.maxSize ∧ changed.ids = bucket.ids := by
  obtain ⟨place, found, rfl⟩ := Option.map_eq_some_iff.mp written
  refine ⟨rfl, map_modify_of_same fun entry held => ?_⟩
  obtain ⟨other, heldOther, same⟩ := position_some found
  cases heldOther.symm.trans held
  rw [keeps entry same, same]

theorem sound_insert (sound : bucket.Sound k Belongs) (entry : PeerEntry) (now : Instant)
    (belongs : Belongs entry.agentId) : (bucket.insert entry now).2.Sound k Belongs := by
  unfold insert
  split
  next updated written =>
    have kept := ids_getMut (by intro existing _; rfl) written
    exact sound.of_sublist kept.1 (kept.2 ▸ .refl _)
  next missing =>
    have absent : entry.agentId ∉ bucket.ids := position_none (Option.map_eq_none_iff.mp missing)
    split
    · exact sound
    next full =>
      have room : bucket.entries.length < bucket.maxSize := by simpa [isFull] using full
      rw [sound.capacity] at room
      have added : ({ bucket with entries := bucket.entries ++ [entry] } : KBucket).ids =
          bucket.ids ++ [entry.agentId] := by simp [ids]
      refine ⟨sound.capacity, by simpa [Nat.succ_le_iff] using room, ?_, ?_⟩
      · rw [added, nodup_append_comm]
        exact nodup_cons.mpr ⟨absent, sound.distinct⟩
      · intro agentId mem
        rw [added, mem_append, mem_singleton] at mem
        rcases mem with before | rfl
        · exact sound.belong agentId before
        · exact belongs

theorem sound_remove (sound : bucket.Sound k Belongs) (agentId : AgentId) :
    (bucket.remove agentId).2.Sound k Belongs := by
  unfold remove
  split
  · exact sound.of_sublist rfl ((eraseIdx_sublist _ _).map _)
  · exact sound

theorem sound_touchPeer (sound : bucket.Sound k Belongs) (agentId : AgentId) (now : Instant) :
    (bucket.touchPeer agentId now).2.Sound k Belongs := by
  unfold touchPeer
  split
  next touched written =>
    have kept := ids_getMut (by intro entry same; exact same) written
    exact sound.of_sublist kept.1 (kept.2 ▸ .refl _)
  · exact sound

end KBucket

namespace RoutingTable

/-- Each bucket keeps to its size, and has each peer that belongs in it at most once. -/
structure Sound (selfId : AgentId) (k : Nat) (table : RoutingTable) : Prop where
  self : table.selfId = selfId
  size : table.k = k
  buckets : ∀ index, (table.buckets index).Sound k fun peerId =>
    IsTopBit idBits (idNumber selfId ^^^ idNumber peerId) index

variable {table : RoutingTable} {selfId : AgentId} {k : Nat}

section

variable (sound : table.Sound selfId k)
include sound

private theorem sound_withBucket (kept : (change (table.buckets index)).2.Sound k fun peerId =>
      IsTopBit idBits (idNumber selfId ^^^ idNumber peerId) index) :
    (table.withBucket index change).2.Sound selfId k where
  self := sound.self
  size := sound.size
  buckets other := by
    change (Function.update table.buckets index _ other).Sound k _
    by_cases same : other = index
    · subst same
      rw [Function.update_self]
      exact kept
    · rw [Function.update_of_ne same]
      exact sound.buckets other

theorem sound_addPeer (record : AgentRecord) (now : Instant) : (table.addPeer record now).2.Sound selfId k := by
  unfold addPeer
  split
  · exact sound
  · cases found : table.bucketIndex record.agentId with
    | none => exact sound
    | some index =>
      apply sound_withBucket sound
      apply KBucket.sound_insert (sound.buckets index)
      rw [← sound.self]
      exact bucketIndex_eq_some.mp found

theorem sound_removePeer (agentId : AgentId) : (table.removePeer agentId).2.Sound selfId k := by
  unfold removePeer
  cases table.bucketIndex agentId with
  | none => exact sound
  | some index => exact sound_withBucket sound (KBucket.sound_remove (sound.buckets index) agentId)

theorem sound_touchPeer (agentId : AgentId) (now : Instant) : (table.touchPeer agentId now).2.Sound selfId k := by
  unfold touchPeer
  cases table.bucketIndex agentId with
  | none => exact sound
  | some index => exact sound_withBucket sound (KBucket.sound_touchPeer (sound.buckets index) agentId now)

end

inductive Change where
  | addPeer (record : AgentRecord) (now : Instant)
  | removePeer (agentId : AgentId)
  | touchPeer (agentId : AgentId) (now : Instant)

def change (table : RoutingTable) : Change → RoutingTable
  | .addPeer record now => (table.addPeer record now).2
  | .removePeer agentId => (table.removePeer agentId).2
  | .touchPeer agentId now => (table.touchPeer agentId now).2

theorem mem_entries : entry ∈ table.entries ↔ ∃ index, entry ∈ (table.buckets index).entries := by
  simp [entries, mem_flatMap]

theorem Sound.mem_bucket_iff (sound : table.Sound selfId k) (stored : entry ∈ table.entries)
    (index : Fin idBits) : entry ∈ (table.buckets index).entries ↔
      IsTopBit idBits (idNumber selfId ^^^ idNumber entry.agentId) index := by
  constructor
  · intro inside
    exact (sound.buckets index).belong entry.agentId (mem_map_of_mem inside)
  · intro top
    obtain ⟨other, inside⟩ := mem_entries.mp stored
    have topOther := (sound.buckets other).belong entry.agentId (mem_map_of_mem inside)
    obtain rfl : other = index := Fin.ext (topOther.unique top)
    exact inside

theorem Sound.nodup_ids (sound : table.Sound selfId k) : (table.entries.map PeerEntry.agentId).Nodup := by
  rw [entries, map_flatMap, nodup_flatMap]
  refine ⟨fun index _ => (sound.buckets index).distinct, ?_⟩
  refine (nodup_finRange idBits).imp fun {first second} apart agentId inFirst inSecond => ?_
  have topFirst := (sound.buckets first).belong agentId inFirst
  have topSecond := (sound.buckets second).belong agentId inSecond
  exact apart (Fin.ext (topFirst.unique topSecond))

theorem Sound.self_notMem (sound : table.Sound selfId k) : selfId ∉ table.entries.map PeerEntry.agentId := by
  intro mem
  obtain ⟨entry, stored, own⟩ := mem_map.mp mem
  obtain ⟨index, inside⟩ := mem_entries.mp stored
  have top := (sound.buckets index).belong entry.agentId (mem_map_of_mem inside)
  rw [own] at top
  simpa using top.2.1

def closer (target : Bytes32) (left right : PeerEntry) : Ordering :=
  Distance.cmp (.between left.agentId target) (.between right.agentId target)

theorem closer_isLE_iff : (closer target left right).isLE = true ↔
    idNumber left.agentId ^^^ idNumber target ≤ idNumber right.agentId ^^^ idNumber target := by
  rw [closer, Distance.cmp_between, Nat.isLE_compare]

instance (target : Bytes32) : Std.TransCmp (closer target) :=
  transCmp_comap Distance.cmp fun entry : PeerEntry => Distance.between entry.agentId target

theorem closestPeers_eq (table : RoutingTable) (target : Bytes32) (m : Nat) :
    table.closestPeers target m = ((sortBy (closer target) table.entries).take m).map PeerEntry.record := by
  have sorted := sortBy_map (closer target) (fun left right => Distance.cmp left.1 right.1)
    (fun entry => (Distance.between entry.agentId target, entry.record))
    (fun _ _ => rfl) table.entries
  change ((sortBy _ (table.entries.map fun entry =>
    (Distance.between entry.agentId target, entry.record))).take m).map Prod.snd = _
  rw [sorted, ← map_take, map_map]
  rfl

def distanceTo (target : Bytes32) (record : AgentRecord) : Nat := idNumber record.agentId ^^^ idNumber target

theorem length_closestPeers (table : RoutingTable) (target : Bytes32) (m : Nat) :
    (table.closestPeers target m).length = min m table.peerCount := by
  rw [closestPeers_eq, length_map, length_take, (sortBy_perm _ _).length_eq, entries, length_flatMap]
  rfl

theorem mem_allPeers_of_closest (mem : record ∈ table.closestPeers target m) : record ∈ table.allPeers := by
  rw [closestPeers_eq] at mem
  obtain ⟨entry, taken, rfl⟩ := mem_map.mp mem
  have stored : entry ∈ table.entries := (mem_sortBy _ _).mp (mem_of_mem_take taken)
  exact mem_map_of_mem stored

theorem Sound.nodup_closestPeers (sound : table.Sound selfId k) (target : Bytes32) (m : Nat) :
    ((table.closestPeers target m).map AgentRecord.agentId).Nodup := by
  rw [closestPeers_eq, map_map]
  have sortedIds := ((sortBy_perm (closer target) table.entries).map PeerEntry.agentId).nodup_iff.mpr
    sound.nodup_ids
  exact sortedIds.sublist ((take_sublist m _).map _)

theorem closestPeers_ordered (table : RoutingTable) (target : Bytes32) (m : Nat) :
    (table.closestPeers target m).Pairwise fun nearer farther =>
      distanceTo target nearer ≤ distanceTo target farther := by
  rw [closestPeers_eq, pairwise_map]
  have sorted := (sortBy_sorted (closer target) table.entries).sublist (take_sublist m _)
  exact sorted.imp fun ordered => closer_isLE_iff.mp ordered

theorem closestPeers_closest (stored : left ∈ table.allPeers) (out : left ∉ table.closestPeers target m)
    (returned : record ∈ table.closestPeers target m) : distanceTo target record ≤ distanceTo target left := by
  rw [closestPeers_eq] at out returned
  obtain ⟨entry, taken, rfl⟩ := mem_map.mp returned
  obtain ⟨other, held, rfl⟩ := mem_map.mp stored
  have cut : other ∉ (sortBy (closer target) table.entries).take m := fun kept =>
    out (mem_map_of_mem kept)
  exact closer_isLE_iff.mp (le_of_notMem_take_sortBy (closer target) m taken held cut)

/-- After every run, a bucket has at most `k` peers, and each peer is once in the bucket of its
distance. A query returns the closest peers, in order. -/
theorem routing_table_invariant (selfId : AgentId) (k : Nat) (calls : List Change) :
    let table := calls.foldl change (withK selfId k)
    (∀ index, (table.buckets index).entries.length ≤ k) ∧
    (∀ entry ∈ table.entries, ∀ index : Fin idBits, entry ∈ (table.buckets index).entries ↔
      IsTopBit idBits (idNumber selfId ^^^ idNumber entry.agentId) index) ∧
    (table.entries.map PeerEntry.agentId).Nodup ∧ selfId ∉ table.entries.map PeerEntry.agentId ∧
    ∀ target m,
      (table.closestPeers target m).length = min m table.peerCount ∧
      (∀ record ∈ table.closestPeers target m, record ∈ table.allPeers) ∧
      ((table.closestPeers target m).map AgentRecord.agentId).Nodup ∧
      ((table.closestPeers target m).Pairwise fun nearer farther =>
        distanceTo target nearer ≤ distanceTo target farther) ∧
      ∀ left ∈ table.allPeers, left ∉ table.closestPeers target m →
        ∀ record ∈ table.closestPeers target m, distanceTo target record ≤ distanceTo target left := by
  intro table
  have sound : table.Sound selfId k := by
    refine calls.foldlRecOn change ⟨rfl, rfl, fun _ => KBucket.sound_new⟩ fun _ before call _ => ?_
    cases call with
    | addPeer record now => exact sound_addPeer before record now
    | removePeer agentId => exact sound_removePeer before agentId
    | touchPeer agentId now => exact sound_touchPeer before agentId now
  refine ⟨fun index => (sound.buckets index).bounded, fun entry stored => sound.mem_bucket_iff stored,
    sound.nodup_ids, sound.self_notMem, fun target m => ?_⟩
  refine ⟨table.length_closestPeers target m, fun record => mem_allPeers_of_closest,
    sound.nodup_closestPeers target m, table.closestPeers_ordered target m, ?_⟩
  intro left stored out record returned
  exact closestPeers_closest stored out returned

end RoutingTable

end Aafp.Discovery
