import Aafp.Crypto.ReplayWindow
import Aafp.Foundation.Machine

/-! The size of the replay cache over whole runs. -/
namespace Aafp.Crypto.ReplayCache

open Foundation Nat

variable {cache : ReplayCache}

theorem len_remove_add_one (found : cache.lookup key = some entry) : (cache.remove key).len + 1 = cache.len :=
  length_erase_add_one (mem_iff_lookup.mpr ⟨entry, found⟩)

theorem len_put_of_found (found : cache.lookup key = some entry) (stamp : Entry) :
    (cache.put key stamp).len = cache.len :=
  length_insert_of_mem (mem_iff_lookup.mpr ⟨entry, found⟩) stamp

theorem len_put_of_absent (absent : cache.lookup key = none) (stamp : Entry) :
    (cache.put key stamp).len = cache.len + 1 :=
  length_insert_of_notMem (AList.lookup_eq_none.mp absent) stamp

/-- Some entry has expired, or was last used before the search for the least
recently used one starts. -/
def Evictable (cache : ReplayCache) (reading : Reading) : Prop :=
  ∃ key entry, cache.lookup key = some entry ∧
    (entry.isExpired reading.now = true ∨ entry.lastAccessed < reading.lruStart)

theorem evictable_congr {other : ReplayCache} (same : ∀ key, other.lookup key = cache.lookup key) :
    other.Evictable reading ↔ cache.Evictable reading := by
  simp only [Evictable, same]

theorem len_evictLru (evictable : cache.Evictable reading) : (cache.evictLru reading).len + 1 = cache.len := by
  unfold evictLru
  split
  case h_1 expired search =>
    exact len_remove_add_one (mem_iterate.mp (List.mem_of_find?_eq_some search))
  case h_2 noneExpired =>
    split
    case h_1 lru search =>
      obtain ⟨entry, mem, -⟩ := scanLeast_found search
      exact len_remove_add_one (mem_iterate.mp mem)
    case h_2 search =>
      obtain ⟨key, entry, found, expired | older⟩ := evictable
      · have live := List.find?_eq_none.mp noneExpired ⟨key, entry⟩ (mem_iterate.mpr found)
        exact absurd expired live
      · have later := scanLeast_eq_none_iff.mp search ⟨key, entry⟩ (mem_iterate.mpr found)
        exact absurd older (not_lt.mpr later)

theorem evictLru_of_not_evictable (stuck : ¬cache.Evictable reading) : cache.evictLru reading = cache := by
  have noneExpired : ((reading.pass.iterate cache.entries).find? fun entry =>
      entry.2.isExpired reading.now) = none := by
    refine List.find?_eq_none.mpr fun entry mem expired => ?_
    exact stuck ⟨entry.1, entry.2, mem_iterate.mp mem, .inl expired⟩
  have noneOlder : (scanLeast Entry.lastAccessed reading.lruStart
      (reading.pass.iterate cache.entries)).1 = none := by
    refine scanLeast_eq_none_iff.mpr fun entry mem => not_lt.mp fun older => ?_
    exact stuck ⟨entry.1, entry.2, mem_iterate.mp mem, .inr older⟩
  simp only [evictLru, noneExpired, noneOlder]

theorem Shrunk.len_le (shrunk : Shrunk now before after) : after.len ≤ before.len :=
  (length_le_of_lookup_sub shrunk.sub).1

theorem Shrunk.len_cases (shrunk : Shrunk now before after) :
    (after.len < before.len ∧ ∃ key entry, before.lookup key = some entry ∧ entry.isExpired now = true) ∨
      after.len = before.len ∧ ∀ key, after.lookup key = before.lookup key := by
  obtain ⟨smaller, same⟩ := length_le_of_lookup_sub shrunk.sub
  by_cases expired : ∃ key entry, before.lookup key = some entry ∧ entry.isExpired now = true
  · rcases lt_or_ge after.len before.len with less | large
    · exact .inl ⟨less, expired⟩
    · exact .inr ⟨le_antisymm smaller large, same large⟩
  · have back : ∀ key entry, before.lookup key = some entry → after.lookup key = some entry := by
      intro key entry found
      refine shrunk.keep key entry found (Bool.eq_false_iff.mpr fun gone => ?_)
      exact expired ⟨key, entry, found, gone⟩
    have large := (length_le_of_lookup_sub back).1
    exact .inr ⟨le_antisymm smaller large, same large⟩

/-- Room for a new nonce: the cache is not full, or has an entry to give up. -/
def HasRoomFor (cache : ReplayCache) (reading : Reading) (key : CacheKey) : Prop :=
  cache.lookup key = none → cache.maxEntries ≤ cache.len → cache.Evictable reading

theorem len_record_iff {middle : ReplayCache} (within : cache.len ≤ cache.maxEntries)
    (shrunk : Shrunk reading.now cache middle) (absent : middle.lookup key = none) (stamp : Entry) :
    ((if middle.len ≥ middle.maxEntries then middle.evictLru reading else middle).put key stamp).len ≤
        cache.maxEntries ↔ cache.HasRoomFor reading key := by
  have evictedAbsent : (middle.evictLru reading).lookup key = none := by
    rcases middle.evictLru_cases reading with smaller | ⟨victim, entry, -, removed⟩
    · cases found : (middle.evictLru reading).lookup key with
      | none => rfl
      | some entry => rw [smaller.sub key entry found] at absent; cases absent
    · rw [removed]
      by_cases same : key = victim
      · subst same
        simp
      · rwa [lookup_remove_ne middle same]
  have limit := shrunk.maxEntries
  rcases shrunk.len_cases with ⟨less, expiredKey, entry, found, expired⟩ | ⟨size, same⟩
  · refine iff_of_true ?_ fun _ _ => ⟨expiredKey, entry, found, .inl expired⟩
    rw [if_neg (by omega), len_put_of_absent absent]
    omega
  · have fresh : cache.lookup key = none := by rw [← same, absent]
    split
    · rw [len_put_of_absent evictedAbsent]
      by_cases evictable : middle.Evictable reading
      · have less := len_evictLru evictable
        exact iff_of_true (by omega) fun _ _ => (evictable_congr same).mp evictable
      · rw [evictLru_of_not_evictable evictable]
        refine iff_of_false (by omega) fun room => evictable ((evictable_congr same).mpr ?_)
        exact room fresh (by omega)
    · rw [len_put_of_absent absent]
      exact iff_of_true (by omega) fun _ large => absurd large (by omega)

theorem len_check_le (cache : ReplayCache) (reading : Reading) (agentId : List UInt8) (nonce : Bytes32) :
    (cache.check reading agentId nonce).2.len ≤ cache.len := by
  have smaller := (cache.lazyEvict_shrunk reading).len_le
  unfold check
  generalize cache.lazyEvict reading = middle at smaller
  cases found : middle.lookup (makeKey agentId nonce) with
  | none => simpa [found] using smaller
  | some entry =>
    simp only [found]
    split
    · have less := len_remove_add_one found
      change (middle.remove (makeKey agentId nonce)).len ≤ cache.len
      omega
    · rwa [len_put_of_found found]

theorem len_checkAndInsert_iff (within : cache.len ≤ cache.maxEntries) (reading : Reading) (agentId : List UInt8)
    (nonce : Bytes32) : (cache.checkAndInsert reading agentId nonce).2.len ≤ cache.maxEntries ↔
      cache.HasRoomFor reading (makeKey agentId nonce) := by
  have shrunk := cache.lazyEvict_shrunk reading
  unfold checkAndInsert
  generalize cache.lazyEvict reading = middle at shrunk
  generalize makeKey agentId nonce = key
  cases found : middle.lookup key with
  | none => simpa only [found] using len_record_iff within shrunk found _
  | some entry =>
    by_cases expired : entry.isExpired reading.now = true
    · have removed := shrunk.remove_expired found expired
      simpa only [found, expired, if_true] using
        len_record_iff within removed (lookup_remove_self middle key) _
    · have held := shrunk.sub key entry found
      simp only [found, expired]
      refine iff_of_true (shrunk.len_le.trans within) fun absent => ?_
      rw [held] at absent
      cases absent

theorem len_insert_iff (within : cache.len ≤ cache.maxEntries) (reading : Reading) (agentId : List UInt8)
    (nonce : Bytes32) : (cache.insert reading agentId nonce).len ≤ cache.maxEntries ↔
      cache.HasRoomFor reading (makeKey agentId nonce) := by
  have shrunk := cache.lazyEvict_shrunk reading
  unfold insert
  generalize cache.lazyEvict reading = middle at shrunk
  generalize makeKey agentId nonce = key
  cases found : middle.lookup key with
  | none => simpa only [found, true_and] using len_record_iff within shrunk found _
  | some entry =>
    have held := shrunk.sub key entry found
    simp only [found, reduceCtorEq, false_and, if_false]
    rw [len_put_of_found found]
    refine iff_of_true (shrunk.len_le.trans within) fun absent => ?_
    rw [held] at absent
    cases absent

def Operation.adds : Operation → Option CacheKey
  | .checkAndInsert agentId nonce | .insert agentId nonce => some (makeKey agentId nonce)
  | .check .. | .evictExpired | .clear => none

theorem len_step_iff (within : cache.len ≤ cache.maxEntries) (step : Step) :
    (step.run cache).len ≤ cache.maxEntries ↔
      ∀ key, step.operation.adds = some key → cache.HasRoomFor step.reading key := by
  obtain ⟨operation, reading⟩ := step
  cases operation with
  | check agentId nonce =>
    exact iff_of_true ((cache.len_check_le reading agentId nonce).trans within) fun _ added => by cases added
  | checkAndInsert agentId nonce =>
    simp only [Operation.adds, Option.some.injEq, forall_eq']
    exact len_checkAndInsert_iff within reading agentId nonce
  | insert agentId nonce =>
    simp only [Operation.adds, Option.some.injEq, forall_eq']
    exact len_insert_iff within reading agentId nonce
  | evictExpired =>
    exact iff_of_true ((cache.evictExpired_shrunk reading).len_le.trans within) fun _ added => by cases added
  | clear => exact iff_of_true (zero_le _) fun _ added => by cases added

theorem Step.run_maxEntries (step : Step) (cache : ReplayCache) :
    (step.run cache).maxEntries = cache.maxEntries := by
  by_cases cleared : step.operation = .clear
  · simp [Step.run, cleared, ReplayCache.clear]
  · exact (Step.moves cleared cache).maxEntries

def cacheMachine : Machine Step Unit ReplayCache where
  step cache step := ((), step.run cache)

/-- The cache keeps to its capacity exactly if every nonce that is new to a full cache finds an
entry to give up. -/
theorem capacity_kept_iff (retention : Duration) (maxEntries : Nat) (steps : List Step) :
    cacheMachine.Throughout (withParamsUnchecked retention maxEntries)
      (fun _ cache => cache.len ≤ maxEntries) steps ↔ cacheMachine.Meets (withParamsUnchecked retention maxEntries)
      (fun _ cache step => ∀ key, step.operation.adds = some key → cache.HasRoomFor step.reading key) steps := by
  apply @Machine.throughout_iff_meets _ _ _ cacheMachine (withParamsUnchecked retention maxEntries)
    fun _ cache => cache.maxEntries = maxEntries
  · rfl
  · exact zero_le _
  · intro _ cache step limit
    exact (step.run_maxEntries cache).trans limit
  · intro _ cache step limit within
    subst limit
    exact len_step_iff within step

/-- Two nonces within one tick of the clock, in a cache for one. -/
theorem burst_exceeds_capacity :
    ¬ cacheMachine.Throughout (withParamsUnchecked (.fromSecs 60) 1) (fun _ cache => cache.len ≤ 1)
      [offer (.replicate 32 1) zeroNonce (readingAt 5), offer (.replicate 32 2) zeroNonce (readingAt 5)] := by
  intro kept
  have within := kept _ (List.prefix_refl _)
  exact absurd within (by decide +kernel)

end Aafp.Crypto.ReplayCache
