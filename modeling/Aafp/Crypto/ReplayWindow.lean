import Aafp.Crypto.ReplayMoves
import Mathlib.Data.Finset.Card

/-! The replay window over whole runs of cache operations. -/
namespace Aafp.Crypto.ReplayCache

open Foundation Finset Option
open List hiding after

inductive Operation where
  | check (agentId : List UInt8) (nonce : Bytes32)
  | checkAndInsert (agentId : List UInt8) (nonce : Bytes32)
  | insert (agentId : List UInt8) (nonce : Bytes32)
  | evictExpired
  | clear
deriving DecidableEq

/-- An operation by any caller, with what it reads. -/
structure Step where
  operation : Operation
  reading : Reading

def Step.run (step : Step) (cache : ReplayCache) : ReplayCache :=
  match step.operation with
  | .check agentId nonce => (cache.check step.reading agentId nonce).2
  | .checkAndInsert agentId nonce => (cache.checkAndInsert step.reading agentId nonce).2
  | .insert agentId nonce => cache.insert step.reading agentId nonce
  | .evictExpired => (cache.evictExpired step.reading).2
  | .clear => cache.clear

def Step.touches (step : Step) (cache : ReplayCache) : Option (List UInt8 × Bytes32) :=
  match step.operation with
  | .check agentId nonce =>
    if (cache.check step.reading agentId nonce).1 then some (agentId, nonce) else none
  | .checkAndInsert agentId nonce =>
    if (cache.checkAndInsert step.reading agentId nonce).1 = .ok () then some (agentId, nonce) else none
  | .insert agentId nonce => some (agentId, nonce)
  | .evictExpired | .clear => none

def run (cache : ReplayCache) (steps : List Step) : ReplayCache :=
  steps.foldl (fun cache step => step.run cache) cache

def touched (cache : ReplayCache) : List Step → List (List UInt8 × Bytes32)
  | [] => []
  | step :: steps => (step.touches cache).toList ++ touched (step.run cache) steps

theorem Step.moves {step : Step} (kept : step.operation ≠ .clear) (cache : ReplayCache) :
    Move step.reading.now cache ((step.touches cache).map fun pair => makeKey pair.1 pair.2) (step.run cache) := by
  obtain ⟨operation, reading⟩ := step
  cases operation with
  | check agentId nonce =>
    have move := cache.check_moves reading agentId nonce
    simp only [Step.touches, Step.run, apply_ite, map_some, map_none]
    exact move
  | checkAndInsert agentId nonce =>
    have move := cache.checkAndInsert_moves reading agentId nonce
    simp only [Step.touches, Step.run, apply_ite, map_some, map_none]
    exact move
  | insert agentId nonce => exact cache.insert_moves reading agentId nonce
  | evictExpired => exact .shrink (cache.evictExpired_shrunk reading)
  | clear => exact absurd rfl kept

def UsedBefore (bound : Instant) (cache : ReplayCache) : Prop :=
  ∀ key entry, cache.lookup key = some entry → entry.lastAccessed < bound

variable {cache : ReplayCache} {steps : List Step}

theorem usedBefore_run (start : cache.UsedBefore bound) (kept : ∀ step ∈ steps, step.operation ≠ .clear)
    (earlier : ∀ step ∈ steps, step.reading.now < bound) : (run cache steps).UsedBefore bound := by
  induction steps generalizing cache with
  | nil => exact start
  | cons step steps ih =>
    rw [List.forall_mem_cons] at kept earlier
    refine ih (fun key entry found => ?_) kept.2 earlier.2
    rcases (Step.moves kept.1 cache).origin found with old | ⟨-, stamped⟩
    · exact start key entry old
    · rw [stamped]
      exact earlier.1

/-- The nonce of a key is recorded since `time`, and every nonce used since then
is among the recent ones. -/
structure Guarded (key : CacheKey) (time : Instant) (recent : Finset CacheKey) (cache : ReplayCache) :
    Prop where
  present : ∃ entry, cache.lookup key = some entry ∧ time + cache.retention ≤ entry.expiresAt ∧
    time ≤ entry.lastAccessed
  others : ∀ other entry, cache.lookup other = some entry → other ≠ key →
    entry.lastAccessed < time ∨ time < entry.lastAccessed ∧ other ∈ recent

theorem mem_keys_iff : key ∈ cache.entries.keys ↔ ∃ entry, cache.lookup key = some entry :=
  AList.mem_keys.symm.trans mem_iff_lookup

section

variable (guarded : cache.Guarded key time recent)
include guarded

/-- A guarded nonce is least recently used only if the cache is filled by recent
nonces, and the new one comes on top. -/
theorem Guarded.full_of_victim (shrunk : Shrunk now cache middle) (absent : middle.lookup recorded = none)
    (full : middle.maxEntries ≤ middle.len) (victim : middle.LruVictim now key entry)
    (stays : time ≤ entry.lastAccessed) (new : recorded ∈ recent) : cache.maxEntries ≤ (recent.erase key).card := by
  have keyThere : key ∈ middle.entries.keys.toFinset :=
    mem_toFinset.mpr (mem_keys_iff.mpr ⟨entry, victim.found⟩)
  have recordedAway : recorded ∉ middle.entries.keys.toFinset := by
    rw [List.mem_toFinset, mem_keys_iff, absent]
    simp
  have size : middle.entries.keys.toFinset.card = middle.len := by
    rw [toFinset_card_of_nodup middle.entries.keys_nodup]
    exact length_map _
  have included : Insert.insert recorded (middle.entries.keys.toFinset.erase key) ⊆ recent.erase key := by
    intro other mem
    rw [mem_erase]
    rcases mem_insert.mp mem with rfl | old
    · exact ⟨fun same => recordedAway (same ▸ keyThere), new⟩
    · obtain ⟨apart, there⟩ := mem_erase.mp old
      obtain ⟨visited, found⟩ := mem_keys_iff.mp (mem_toFinset.mp there)
      have newer := stays.trans (victim.least other visited found)
      rcases guarded.others other visited (shrunk.sub other visited found) apart with older | ⟨-, used⟩
      · exact absurd newer (Nat.not_le.mpr older)
      · exact ⟨apart, used⟩
  have count := card_le_card included
  rw [card_insert_of_notMem fun mem => recordedAway (mem_of_mem_erase mem),
    card_erase_of_mem keyThere] at count
  rw [← shrunk.maxEntries]
  omega

theorem Guarded.step (move : Move now cache moved after)
    (later : time < now) (window : now < time + cache.retention) (used : ∀ key, moved = some key → key ∈ recent)
    (few : (recent.erase key).card < cache.maxEntries) : after.Guarded key time recent := by
  obtain ⟨entry, found, expires, stays⟩ := guarded.present
  have live : entry.isExpired now = false := by
    simp only [Entry.isExpired, decide_eq_false_iff_not]
    exact Nat.not_le.mpr (Nat.lt_of_lt_of_le window expires)
  constructor
  · rcases move.survives found live with ⟨kept, here, same⟩ | evicted
    · refine ⟨kept, here, ?_⟩
      rw [move.retention]
      rcases same with rfl | ⟨stamped, same | fresh⟩
      · exact ⟨expires, stays⟩
      · exact ⟨same ▸ expires, stamped ▸ Nat.le_of_lt later⟩
      · exact ⟨fresh ▸ Nat.add_le_add_right (Nat.le_of_lt later) _, stamped ▸ Nat.le_of_lt later⟩
    · obtain ⟨middle, recorded, shrunk, rfl, absent, full, victim⟩ := evicted
      have crowded := guarded.full_of_victim shrunk absent full victim stays (used recorded rfl)
      omega
  · intro other visited here apart
    rcases move.origin here with old | ⟨rfl, stamped⟩
    · exact guarded.others other visited old apart
    · exact .inr ⟨stamped ▸ later, used other rfl⟩

theorem Guarded.run (kept : ∀ step ∈ steps, step.operation ≠ .clear)
    (inside : ∀ step ∈ steps, time < step.reading.now ∧ step.reading.now < time + cache.retention)
    (used : ∀ pair ∈ touched cache steps, makeKey pair.1 pair.2 ∈ recent)
    (few : (recent.erase key).card < cache.maxEntries) : (run cache steps).Guarded key time recent := by
  induction steps generalizing cache with
  | nil => exact guarded
  | cons step steps ih =>
    rw [List.forall_mem_cons] at kept inside
    have move := Step.moves kept.1 cache
    have next := guarded.step move inside.1.1 inside.1.2 ?_ few
    · refine ih next kept.2 ?_ ?_ ?_
      · rw [move.retention]
        exact inside.2
      · exact fun pair mem => used pair (mem_append_right _ mem)
      · rw [move.maxEntries]
        exact few
    · intro key stamped
      obtain ⟨pair, same, rfl⟩ := map_eq_some_iff.mp stamped
      exact used pair (mem_append_left _ (by rw [same]; simp))

end

theorem Guarded.of_accepted (start : cache.UsedBefore reading.now)
    (accepted : (cache.checkAndInsert reading agentId nonce).1 = .ok ()) (recent : Finset CacheKey) :
    (cache.checkAndInsert reading agentId nonce).2.Guarded (makeKey agentId nonce) reading.now recent := by
  have move := cache.checkAndInsert_moves reading agentId nonce
  refine ⟨⟨_, lookup_checkAndInsert accepted, ?_, ?_⟩, ?_⟩
  · rw [move.retention]
    exact Nat.le_refl _
  · exact Nat.le_refl _
  · intro other entry found apart
    rcases move.origin found with old | ⟨stamped, -⟩
    · exact .inl (start other entry old)
    · rw [accepted] at stamped
      exact absurd (some.inj stamped).symm apart

theorem run_params (cache : ReplayCache) (kept : ∀ step ∈ steps, step.operation ≠ .clear) :
    (run cache steps).retention = cache.retention ∧ (run cache steps).maxEntries = cache.maxEntries := by
  induction steps generalizing cache with
  | nil => exact ⟨rfl, rfl⟩
  | cons step steps ih =>
    rw [List.forall_mem_cons] at kept
    have move := Step.moves kept.1 cache
    obtain ⟨retention, maxEntries⟩ := ih (step.run cache) kept.2
    exact ⟨retention.trans move.retention, maxEntries.trans move.maxEntries⟩

theorem run_append (cache : ReplayCache) (steps others : List Step) :
    run cache (steps ++ others) = run (run cache steps) others :=
  foldl_append

/-- The nonce is offered to `check_and_insert`. -/
def offer (agentId : List UInt8) (nonce : Bytes32) (reading : Reading) : Step :=
  ⟨.checkAndInsert agentId nonce, reading⟩

def Increasing (steps : List Step) : Prop :=
  steps.Pairwise fun left right => left.reading.now < right.reading.now

theorem Increasing.split (increasing : Increasing (before ++ first :: middle ++ [last])) :
    (∀ step ∈ before, step.reading.now < first.reading.now) ∧
      (∀ step ∈ middle, first.reading.now < step.reading.now ∧ step.reading.now < last.reading.now) ∧
      first.reading.now < last.reading.now := by
  rw [Increasing, pairwise_append, pairwise_append, List.pairwise_cons] at increasing
  obtain ⟨⟨-, ⟨above, -⟩, below⟩, -, final⟩ := increasing
  refine ⟨fun step mem => below step mem first mem_cons_self, fun step mem => ?_, ?_⟩
  · exact ⟨above step mem, final step (by simp [mem]) last (by simp)⟩
  · exact final first (by simp) last (by simp)

/-- An accepted nonce is refused for the whole retention window, if fewer than `maxEntries` other
nonces were inserted or looked up since. -/
theorem checkAndInsert_refused_in_window (retention : Duration) (maxEntries : Nat) (before middle : List Step)
    (increasing : Increasing (before ++ offer agentId nonce first :: middle ++ [offer agentId nonce second]))
    (kept : ∀ step ∈ before ++ middle, step.operation ≠ .clear)
    (accepted : ((run (withParamsUnchecked retention maxEntries) before).checkAndInsert first agentId
      nonce).1 = .ok ()) (window : second.now < first.now + retention)
    (few : ((touched (run (withParamsUnchecked retention maxEntries)
      (before ++ [offer agentId nonce first])) middle).toFinset.erase (agentId, nonce)).card < maxEntries) :
    ((run (withParamsUnchecked retention maxEntries)
      (before ++ offer agentId nonce first :: middle)).checkAndInsert second agentId nonce).1 =
        .error .nonceReuse := by
  obtain ⟨earlier, inside, later⟩ := increasing.split
  rw [forall_mem_append] at kept
  rw [run_append] at few
  rw [run_append]
  obtain ⟨keptRetention, keptMaxEntries⟩ := run_params (withParamsUnchecked retention maxEntries) kept.1
  have start : (run (withParamsUnchecked retention maxEntries) before).UsedBefore first.now :=
    usedBefore_run (fun key entry found => by cases found) kept.1 earlier
  generalize run (withParamsUnchecked retention maxEntries) before = cache at *
  have move := cache.checkAndInsert_moves first agentId nonce
  have sameRetention := move.retention.trans keptRetention
  have guarded := Guarded.of_accepted start accepted
    ((touched (cache.checkAndInsert first agentId nonce).2 middle).toFinset.image fun pair => makeKey pair.1 pair.2)
  have ending := guarded.run kept.2 ?_ ?_ ?_
  · obtain ⟨entry, found, expires, -⟩ := ending.present
    rw [(run_params _ kept.2).1, sameRetention] at expires
    refine checkAndInsert_live found (decide_eq_false (Nat.not_le.mpr ?_))
    exact window.trans_le expires
  · intro step mem
    rw [sameRetention]
    exact ⟨(inside step mem).1, (inside step mem).2.trans window⟩
  · exact fun pair mem => mem_image_of_mem _ (mem_toFinset.mpr mem)
  · -- different nonces of the same key only make the bound easier to meet
    rw [move.maxEntries, keptMaxEntries]
    have fewer := card_le_card (erase_image_subset_image_erase
      (fun pair => makeKey pair.1 pair.2)
      (touched (cache.checkAndInsert first agentId nonce).2 middle).toFinset (agentId, nonce))
    exact (fewer.trans card_image_le).trans_lt few

def zeroNonce : Bytes32 := .filled 0

/-- A reading of the clock, with the entries passed in the order they are stored. -/
def readingAt (now : Instant) : Reading := ⟨now, now, .inOrder⟩

/-- Two agents share a cache of two entries; the nonce of the first stays refused. -/
theorem checkAndInsert_refused_in_window_of_two : ((run (withParamsUnchecked 10 2)
      [offer (.replicate 32 1) zeroNonce (readingAt 1), offer (.replicate 32 2) zeroNonce (readingAt 2)]
        ).checkAndInsert (readingAt 3) (.replicate 32 1) zeroNonce).1 = .error .nonceReuse :=
  checkAndInsert_refused_in_window 10 2 [] [offer (.replicate 32 2) zeroNonce (readingAt 2)]
    (by simp [Increasing, offer, readingAt]) (by simp [offer]) (by decide +kernel) (by decide)
    (by decide +kernel)

end Aafp.Crypto.ReplayCache
