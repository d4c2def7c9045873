import Aafp.Crypto.ReplayCache

/-! What an operation can do to the replay cache. -/
namespace Aafp.Crypto.ReplayCache

open Foundation Option AList

section

variable (cache : ReplayCache)

@[simp] theorem lookup_remove_self (key : CacheKey) : (cache.remove key).lookup key = none :=
  lookup_erase key cache.entries

theorem lookup_remove_ne (apart : other ≠ key) : (cache.remove key).lookup other = cache.lookup other :=
  lookup_erase_ne apart

@[simp] theorem lookup_put_self (key : CacheKey) (entry : Entry) : (cache.put key entry).lookup key = some entry :=
  lookup_insert cache.entries

theorem lookup_put_ne (apart : other ≠ key) : (cache.put key entry).lookup other = cache.lookup other :=
  lookup_insert_ne apart

end

structure Shrunk (now : Instant) (before after : ReplayCache) : Prop where
  sub : ∀ key entry, after.lookup key = some entry → before.lookup key = some entry
  keep : ∀ key entry, before.lookup key = some entry → entry.isExpired now = false →
    after.lookup key = some entry
  retention : after.retention = before.retention
  maxEntries : after.maxEntries = before.maxEntries

theorem Shrunk.refl (now : Instant) (cache : ReplayCache) : Shrunk now cache cache :=
  ⟨fun _ _ found => found, fun _ _ found _ => found, rfl, rfl⟩

theorem Shrunk.trans (first : Shrunk now before middle) (second : Shrunk now middle after) :
    Shrunk now before after where
  sub key entry found := first.sub key entry (second.sub key entry found)
  keep key entry found live := second.keep key entry (first.keep key entry found live) live
  retention := second.retention.trans first.retention
  maxEntries := second.maxEntries.trans first.maxEntries

theorem remove_shrunk (expired : ∀ entry, cache.lookup key = some entry → entry.isExpired now = true) :
    Shrunk now cache (cache.remove key) where
  sub other entry found := by
    by_cases same : other = key
    · subst same
      simp at found
    · rwa [lookup_remove_ne cache same] at found
  keep other entry found live := by
    by_cases same : other = key
    · subst same
      rw [expired entry found] at live
      cases live
    · rwa [lookup_remove_ne cache same]
  retention := rfl
  maxEntries := rfl

theorem Shrunk.remove_expired (shrunk : Shrunk now before middle) (found : middle.lookup key = some entry)
    (expired : entry.isExpired now = true) : Shrunk now before (middle.remove key) := by
  apply shrunk.trans
  apply remove_shrunk
  intro other same
  rw [found] at same
  rwa [← some.inj same]

section

variable (cache : ReplayCache) (reading : Reading)

theorem lazyEvict_shrunk : Shrunk reading.now cache (cache.lazyEvict reading) := by
  unfold lazyEvict
  split
  · exact .refl _ _
  · refine ⟨fun key entry found => ?_, fun key entry found live => ?_, rfl, rfl⟩
    · rw [lookup, lookup_eraseAll] at found
      split at found
      · cases found
      · exact found
    · rw [lookup, lookup_eraseAll, if_neg ?_]
      · exact found
      · intro removed
        obtain ⟨visited, filtered, rfl⟩ := List.mem_map.mp removed
        obtain ⟨scanned, expired⟩ := List.mem_filter.mp filtered
        have here := mem_iterate.mp (List.mem_of_mem_take scanned)
        rw [show cache.entries.lookup visited.1 = some entry from found] at here
        rw [some.inj here] at live
        rw [live] at expired
        cases expired

theorem evictExpired_shrunk :
    Shrunk reading.now cache (cache.evictExpired reading).2 where
  sub _ _ found := (lookup_retain_eq_some.mp found).1
  keep _ _ found live := lookup_retain_eq_some.mpr ⟨found, by simp [live]⟩
  retention := rfl
  maxEntries := rfl

structure LruVictim (cache : ReplayCache) (now : Instant) (key : CacheKey) (entry : Entry) : Prop where
  found : cache.lookup key = some entry
  live : ∀ other visited, cache.lookup other = some visited → visited.isExpired now = false
  least : ∀ other visited, cache.lookup other = some visited → entry.lastAccessed ≤ visited.lastAccessed

theorem evictLru_cases :
    Shrunk reading.now cache (cache.evictLru reading) ∨ ∃ victim entry,
      cache.LruVictim reading.now victim entry ∧ cache.evictLru reading = cache.remove victim := by
  unfold evictLru
  split
  next expired search =>
    left
    refine remove_shrunk fun entry found => ?_
    have here := mem_iterate.mp (List.mem_of_find?_eq_some search)
    rw [show cache.entries.lookup expired.1 = some entry from found] at here
    rw [some.inj here]
    exact List.find?_some (p := fun entry : Sigma fun _ : CacheKey => Entry =>
      entry.2.isExpired reading.now) search
  next none_expired =>
    split
    next victim search =>
      obtain ⟨entry, mem, least⟩ := scanLeast_found search
      refine .inr ⟨victim, entry, ⟨mem_iterate.mp mem, ?_, ?_⟩, rfl⟩
      · intro other visited found
        have mem : (⟨other, visited⟩ : Sigma fun _ => Entry) ∈
          reading.pass.iterate cache.entries := mem_iterate.mpr found
        simpa using List.find?_eq_none.mp none_expired _ mem
      · intro other visited found
        exact least ⟨other, visited⟩ (mem_iterate.mpr found)
    · exact .inl (.refl _ _)

end

inductive Move (now : Instant) (cache : ReplayCache) : Option CacheKey → ReplayCache → Prop where
  | shrink (shrunk : Shrunk now cache after) : Move now cache none after
  | stamp (shrunk : Shrunk now cache middle) (found : middle.lookup key = some entry)
      (live : entry.isExpired now = false) :
      Move now cache (some key) (middle.put key { entry with lastAccessed := now })
  | record (shrunk : Shrunk now cache middle) :
      Move now cache (some key) (middle.put key (cache.freshEntry now))
  | evict (shrunk : Shrunk now cache middle) (absent : middle.lookup key = none)
      (full : middle.maxEntries ≤ middle.len) (victim : middle.LruVictim now lru entry) :
      Move now cache (some key) ((middle.remove lru).put key (cache.freshEntry now))

theorem freshEntry_congr {cache other : ReplayCache} (same : other.retention = cache.retention)
    (now : Instant) : other.freshEntry now = cache.freshEntry now := by
  simp [freshEntry, same]

namespace Move

section

variable (move : Move now cache touched after)
include move

theorem retention : after.retention = cache.retention := by
  cases move with
  | shrink shrunk => exact shrunk.retention
  | stamp shrunk => exact shrunk.retention
  | record shrunk => exact shrunk.retention
  | evict shrunk => exact shrunk.retention

theorem maxEntries : after.maxEntries = cache.maxEntries := by
  cases move with
  | shrink shrunk => exact shrunk.maxEntries
  | stamp shrunk => exact shrunk.maxEntries
  | record shrunk => exact shrunk.maxEntries
  | evict shrunk => exact shrunk.maxEntries

theorem origin (found : after.lookup key = some entry) :
    cache.lookup key = some entry ∨ touched = some key ∧ entry.lastAccessed = now := by
  have put {middle : ReplayCache} {stamped : CacheKey} {stamp : Entry} (fresh : stamp.lastAccessed = now)
      (sub : ∀ key entry, middle.lookup key = some entry → cache.lookup key = some entry)
      (found : (middle.put stamped stamp).lookup key = some entry) :
      cache.lookup key = some entry ∨ some stamped = some key ∧ entry.lastAccessed = now := by
    by_cases same : key = stamped
    · subst same
      rw [lookup_put_self] at found
      exact .inr ⟨rfl, by rw [← some.inj found, fresh]⟩
    · rw [lookup_put_ne middle same] at found
      exact .inl (sub key entry found)
  cases move with
  | shrink shrunk => exact .inl (shrunk.sub key entry found)
  | stamp shrunk _ _ => exact put rfl shrunk.sub found
  | record shrunk => exact put rfl shrunk.sub found
  | @evict middle stamped lru _ shrunk _ _ _ =>
    refine put rfl (fun other visited left => shrunk.sub other visited ?_) found
    by_cases same : other = lru
    · subst same
      simp at left
    · rwa [lookup_remove_ne middle same] at left

/-- A live entry stays, possibly stamped or recorded anew, unless it is the least
recently used one and a new nonce needs its place. -/
theorem survives (found : cache.lookup key = some entry) (live : entry.isExpired now = false) :
    (∃ kept, after.lookup key = some kept ∧ (kept = entry ∨ kept.lastAccessed = now ∧
      (kept.expiresAt = entry.expiresAt ∨ kept.expiresAt = now + cache.retention))) ∨
    ∃ middle recorded, Shrunk now cache middle ∧ touched = some recorded ∧
      middle.lookup recorded = none ∧ middle.maxEntries ≤ middle.len ∧ middle.LruVictim now key entry := by
  cases move with
  | shrink shrunk => exact .inl ⟨entry, shrunk.keep key entry found live, .inl rfl⟩
  | @stamp middle stamped before shrunk here _ =>
    have kept := shrunk.keep key entry found live
    by_cases same : key = stamped
    · subst same
      rw [kept] at here
      cases here
      exact .inl ⟨_, lookup_put_self _ _ _, .inr ⟨rfl, .inl rfl⟩⟩
    · exact .inl ⟨entry, by rwa [lookup_put_ne middle same], .inl rfl⟩
  | @record middle stamped shrunk =>
    have kept := shrunk.keep key entry found live
    by_cases same : key = stamped
    · subst same
      exact .inl ⟨_, lookup_put_self _ _ _, .inr ⟨rfl, .inr rfl⟩⟩
    · exact .inl ⟨entry, by rwa [lookup_put_ne middle same], .inl rfl⟩
  | @evict middle stamped lru _ shrunk absent full victim =>
    have kept := shrunk.keep key entry found live
    by_cases evicted : key = lru
    · subst evicted
      have same := victim.found
      rw [kept] at same
      cases same
      exact .inr ⟨middle, stamped, shrunk, rfl, absent, full, victim⟩
    · by_cases same : key = stamped
      · subst same
        rw [kept] at absent
        cases absent
      · exact .inl ⟨entry, by rwa [lookup_put_ne _ same, lookup_remove_ne middle evicted], .inl rfl⟩

end

end Move

variable {cache : ReplayCache}

private theorem evictLru_moves {middle : ReplayCache} {reading : Reading}
    (shrunk : Shrunk reading.now cache middle) (absent : middle.lookup key = none)
    (full : middle.maxEntries ≤ middle.len) : Move reading.now cache (some key) ((middle.evictLru reading).put key
      ((middle.evictLru reading).freshEntry reading.now)) := by
  rcases middle.evictLru_cases reading with smaller | ⟨lru, entry, victim, same⟩
  · rw [freshEntry_congr (shrunk.trans smaller).retention]
    exact .record (shrunk.trans smaller)
  · have kept : (middle.remove lru).retention = cache.retention := shrunk.retention
    rw [same, freshEntry_congr kept]
    exact .evict shrunk absent full victim

section

variable (cache : ReplayCache) (reading : Reading) (agentId : List UInt8) (nonce : Bytes32)

theorem check_moves :
    Move reading.now cache (if (cache.check reading agentId nonce).1 then some (makeKey agentId nonce) else none)
      (cache.check reading agentId nonce).2 := by
  have shrunk := cache.lazyEvict_shrunk reading
  unfold check
  generalize cache.lazyEvict reading = middle at shrunk
  cases found : middle.lookup (makeKey agentId nonce) with
  | none => simpa [found] using .shrink shrunk
  | some entry =>
    by_cases expired : entry.isExpired reading.now = true
    · simp only [found, expired]
      exact .shrink (shrunk.remove_expired found expired)
    · simp only [found, expired]
      exact .stamp shrunk found (by simpa using expired)

theorem checkAndInsert_moves :
    Move reading.now cache
      (if (cache.checkAndInsert reading agentId nonce).1 = .ok () then some (makeKey agentId nonce) else none)
      (cache.checkAndInsert reading agentId nonce).2 := by
  have shrunk := cache.lazyEvict_shrunk reading
  unfold checkAndInsert
  generalize cache.lazyEvict reading = middle at shrunk
  -- the nonce is absent, or its entry has expired and is removed first
  have admits (admitted : ReplayCache) (smaller : Shrunk reading.now cache admitted)
      (absent : admitted.lookup (makeKey agentId nonce) = none) :
      let room := if admitted.len ≥ admitted.maxEntries then admitted.evictLru reading else admitted
      Move reading.now cache (some (makeKey agentId nonce))
        (room.put (makeKey agentId nonce) (room.freshEntry reading.now)) := by
    intro room
    by_cases full : admitted.len ≥ admitted.maxEntries
    · simp only [room, full, ↓reduceIte]
      exact evictLru_moves smaller absent full
    · simp only [room, full, ↓reduceIte, freshEntry_congr smaller.retention]
      exact .record smaller
  cases found : middle.lookup (makeKey agentId nonce) with
  | none => simpa [found] using admits middle shrunk found
  | some entry =>
    by_cases expired : entry.isExpired reading.now = true
    · have removed := shrunk.remove_expired found expired
      simpa [found, expired] using admits _ removed (lookup_remove_self _ _)
    · simpa [found, expired] using .shrink shrunk

theorem insert_moves :
    Move reading.now cache (some (makeKey agentId nonce)) (cache.insert reading agentId nonce) := by
  have shrunk := cache.lazyEvict_shrunk reading
  unfold insert
  generalize cache.lazyEvict reading = middle at shrunk
  by_cases full : middle.lookup (makeKey agentId nonce) = none ∧ middle.len ≥ middle.maxEntries
  · simp only [full, and_self, ↓reduceIte]
    exact evictLru_moves shrunk full.1 full.2
  · simp only [full, ↓reduceIte, freshEntry_congr shrunk.retention]
    exact .record shrunk

private theorem evictLru_retention : (cache.evictLru reading).retention = cache.retention := by
  unfold evictLru
  split
  · rfl
  · split <;> rfl

theorem lookup_insert :
    (cache.insert reading agentId nonce).lookup (makeKey agentId nonce) = some (cache.freshEntry reading.now) := by
  have shrunk := cache.lazyEvict_shrunk reading
  unfold insert
  rw [lookup_put_self]
  split
  · rw [freshEntry_congr ((evictLru_retention _ reading).trans shrunk.retention)]
  · rw [freshEntry_congr shrunk.retention]

end

theorem lookup_checkAndInsert (accepted : (cache.checkAndInsert reading agentId nonce).1 = .ok ()) :
    (cache.checkAndInsert reading agentId nonce).2.lookup (makeKey agentId nonce) =
      some (cache.freshEntry reading.now) := by
  have shrunk := cache.lazyEvict_shrunk reading
  unfold checkAndInsert at accepted ⊢
  simp only at accepted ⊢
  split at accepted
  · cases accepted
  next admitted taken =>
    have kept : admitted.retention = cache.retention := by
      rw [← shrunk.retention]
      split at taken
      · split at taken <;> cases taken
        rfl
      · cases taken
        rfl
    simp only [lookup_put_self]
    split
    · rw [freshEntry_congr ((evictLru_retention _ reading).trans kept)]
    · rw [freshEntry_congr kept]

theorem checkAndInsert_live (found : cache.lookup (makeKey agentId nonce) = some entry)
    (live : entry.isExpired reading.now = false) :
    (cache.checkAndInsert reading agentId nonce).1 = .error .nonceReuse := by
  have kept := (cache.lazyEvict_shrunk reading).keep _ _ found live
  simp [checkAndInsert, kept, live]

/-- An insertion needs the place of an entry and finds none that has expired. -/
def EvictsLive (cache : ReplayCache) (reading : Reading) (agentId : List UInt8) (nonce : Bytes32) : Prop :=
  let swept := cache.lazyEvict reading
  swept.lookup (makeKey agentId nonce) = none ∧ swept.len ≥ swept.maxEntries ∧
    ∃ victim entry, swept.LruVictim reading.now victim entry

theorem insert_keeps (roomy : ¬cache.EvictsLive reading agentId nonce) (apart : key ≠ makeKey agentId nonce)
    (found : cache.lookup key = some entry) (live : entry.isExpired reading.now = false) :
    (cache.insert reading agentId nonce).lookup key = some entry := by
  have kept := (cache.lazyEvict_shrunk reading).keep key entry found live
  unfold EvictsLive at roomy
  unfold insert
  generalize cache.lazyEvict reading = swept at kept roomy ⊢
  rw [lookup_put_ne _ apart]
  split
  next full =>
    rcases swept.evictLru_cases reading with shrunk | ⟨victim, evicted, lru, -⟩
    · exact shrunk.keep key entry kept live
    · exact absurd ⟨full.1, full.2, victim, evicted, lru⟩ roomy
  · exact kept

theorem check_keeps (cache : ReplayCache) (agentId : List UInt8) (nonce : Bytes32)
    (found : cache.lookup key = some entry) (live : entry.isExpired reading.now = false) :
    ∃ kept, (cache.check reading agentId nonce).2.lookup key = some kept ∧ kept.expiresAt = entry.expiresAt := by
  have kept := (cache.lazyEvict_shrunk reading).keep key entry found live
  unfold check
  generalize cache.lazyEvict reading = swept at kept
  by_cases same : key = makeKey agentId nonce
  · subst same
    simp only [kept, live]
    exact ⟨_, lookup_put_self _ _ _, rfl⟩
  · refine ⟨entry, ?_, rfl⟩
    simp only
    split
    · split
      · exact (lookup_remove_ne swept same).trans kept
      · exact (lookup_put_ne swept same).trans kept
    · exact kept

theorem check_live (found : cache.lookup (makeKey agentId nonce) = some entry)
    (live : entry.isExpired reading.now = false) : (cache.check reading agentId nonce).1 = true := by
  have kept := (cache.lazyEvict_shrunk reading).keep _ _ found live
  simp [check, kept, live]

end Aafp.Crypto.ReplayCache
