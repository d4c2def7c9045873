import Aafp.Crypto.ReplayCapacity

/-! When the entries of the replay cache expire. -/
namespace Aafp.Crypto.ReplayCache

open Foundation Option

def isLive (cache : ReplayCache) (key : CacheKey) (now : Instant) : Bool :=
  (cache.lookup key).any fun entry => !entry.isExpired now

theorem isLive_eq_true {cache : ReplayCache} {key : CacheKey} :
    cache.isLive key now = true ↔ ∃ entry, cache.lookup key = some entry ∧ entry.isExpired now = false := by
  simp [isLive, any_eq_true]

structure Dated where
  cache : ReplayCache
  recordedAt : CacheKey → Option Nat

/-- A nonce is recorded by an operation that adds it while it has no live entry, and is forgotten
with its entry. -/
def Dated.next (dated : Dated) (step : Step) : Dated where
  cache := step.run dated.cache
  recordedAt key :=
    if (step.run dated.cache).lookup key = none then none
    else if step.operation.adds = some key ∧ dated.cache.isLive key step.reading.now = false then some step.reading.now
    else dated.recordedAt key

def datedMachine : Machine Step Unit Dated where
  step dated step := ((), dated.next step)

def emptyDated (retention : Duration) (maxEntries : Nat) : Dated :=
  ⟨withParamsUnchecked retention maxEntries, fun _ => none⟩

/-- A live entry that is still there after a step expires when it was to expire before. -/
def KeepsExpiry (cache : ReplayCache) (step : Step) : Prop :=
  ∀ key entry kept, cache.lookup key = some entry → entry.isExpired step.reading.now = false →
    (step.run cache).lookup key = some kept → kept.expiresAt = entry.expiresAt

def Dated.Punctual (dated : Dated) : Prop :=
  ∀ key entry, dated.cache.lookup key = some entry →
    ∃ time, dated.recordedAt key = some time ∧ entry.expiresAt = time + dated.cache.retention

structure ExpiryFixed (start : Dated) (steps : List Step) : Prop where
  kept : datedMachine.Meets start (fun _ dated step => KeepsExpiry dated.cache step) steps
  punctual : datedMachine.Throughout start (fun _ dated => dated.Punctual) steps

/-- An insertion of a nonce with a live entry comes at the very time at which the entry was made. -/
def ExtendsNothing (cache : ReplayCache) (step : Step) : Prop :=
  ∀ agentId nonce entry, step.operation = .insert agentId nonce → cache.lookup (makeKey agentId nonce) = some entry →
    entry.isExpired step.reading.now = false → entry.expiresAt = step.reading.now + cache.retention

section steps

variable {cache : ReplayCache} {key : CacheKey} {entry kept : Entry}

section

variable {reading : Reading} {agentId : List UInt8} {step : Step}

theorem lookup_of_apart (apart : ∀ pair, step.touches cache = some pair → makeKey pair.1 pair.2 ≠ key)
    (found : (step.run cache).lookup key = some kept) : cache.lookup key = some kept := by
  by_cases cleared : step.operation = .clear
  · simp [Step.run, cleared, ReplayCache.clear, lookup] at found
  · rcases (Step.moves cleared cache).origin found with old | ⟨touched, -⟩
    · exact old
    · obtain ⟨pair, touches, same⟩ := map_eq_some_iff.mp touched
      exact absurd same (apart pair touches)

theorem isLive_of_check (found : (cache.check reading agentId nonce).1 = true) :
    cache.isLive (makeKey agentId nonce) reading.now = true := by
  have shrunk := cache.lazyEvict_shrunk reading
  unfold check at found
  simp only at found
  split at found
  next entry there =>
    split at found
    · cases found
    next live => exact isLive_eq_true.mpr ⟨entry, shrunk.sub _ _ there, by simpa using live⟩
  · cases found

theorem checkAndInsert_of_not_isLive (dead : cache.isLive (makeKey agentId nonce) reading.now = false) :
    (cache.checkAndInsert reading agentId nonce).1 = .ok () := by
  have shrunk := cache.lazyEvict_shrunk reading
  unfold checkAndInsert
  generalize cache.lazyEvict reading = swept at shrunk
  cases found : swept.lookup (makeKey agentId nonce) with
  | none => simp [found]
  | some entry =>
    have expired : entry.isExpired reading.now = true := by
      by_contra live
      have there := isLive_eq_true.mpr ⟨entry, shrunk.sub _ _ found, by simpa using live⟩
      rw [dead] at there
      cases there
    simp [found, expired]

theorem lookup_of_recorded (adds : step.operation.adds = some key)
    (dead : cache.isLive key step.reading.now = false) :
    (step.run cache).lookup key = some (cache.freshEntry step.reading.now) := by
  obtain ⟨operation, reading⟩ := step
  cases operation with
  | checkAndInsert agentId nonce =>
    cases adds
    exact lookup_checkAndInsert (checkAndInsert_of_not_isLive dead)
  | insert agentId nonce =>
    cases adds
    exact cache.lookup_insert reading agentId nonce
  | check agentId nonce => cases adds
  | evictExpired => cases adds
  | clear => cases adds

theorem lookup_of_not_recorded
    (other : ¬ (step.operation.adds = some key ∧ cache.isLive key step.reading.now = false))
    (found : (step.run cache).lookup key = some kept) :
    cache.lookup key = some kept ∨ cache.isLive key step.reading.now = true := by
  by_cases dead : cache.isLive key step.reading.now = false
  · left
    apply lookup_of_apart _ found
    rintro ⟨agentId, nonce⟩ touches same
    subst same
    obtain ⟨operation, reading⟩ := step
    cases operation with
    | check agent sent =>
      obtain ⟨looked, same⟩ := ite_none_right_eq_some.mp touches
      cases same
      rw [isLive_of_check looked] at dead
      cases dead
    | checkAndInsert agent sent =>
      obtain ⟨-, same⟩ := ite_none_right_eq_some.mp touches
      cases same
      exact other ⟨rfl, dead⟩
    | insert agent sent =>
      cases touches
      exact other ⟨rfl, dead⟩
    | evictExpired => cases touches
    | clear => cases touches
  · exact .inr (by simpa using dead)

theorem expiresAt_of_apart (found : cache.lookup key = some entry) (after : (step.run cache).lookup key = some kept)
    (apart : ∀ pair, step.touches cache = some pair → makeKey pair.1 pair.2 ≠ key) :
    kept.expiresAt = entry.expiresAt := by
  have same := lookup_of_apart apart after
  rw [found] at same
  cases same
  rfl

end

theorem keepsExpiry_iff (step : Step) : KeepsExpiry cache step ↔ ExtendsNothing cache step := by
  obtain ⟨operation, reading⟩ := step
  constructor
  · intro keeps agentId nonce entry inserted found live
    cases inserted
    exact (keeps _ _ _ found live (cache.lookup_insert reading agentId nonce)).symm
  · intro extends_ key entry kept found live after
    cases operation with
    | check agentId nonce =>
      obtain ⟨stamped, there, expires⟩ := cache.check_keeps agentId nonce found live
      rw [show (cache.check reading agentId nonce).2.lookup key = some kept from after] at there
      cases there
      exact expires
    | checkAndInsert agentId nonce =>
      apply expiresAt_of_apart found after
      rintro ⟨agent, sent⟩ touches same
      obtain ⟨accepted, pair⟩ := ite_none_right_eq_some.mp touches
      cases pair
      subst same
      rw [checkAndInsert_live found live] at accepted
      cases accepted
    | insert agentId nonce =>
      by_cases own : makeKey agentId nonce = key
      · subst own
        have fresh := cache.lookup_insert reading agentId nonce
        rw [show (cache.insert reading agentId nonce).lookup _ = some kept from after] at fresh
        cases fresh
        exact (extends_ agentId nonce entry rfl found live).symm
      · apply expiresAt_of_apart found after
        intro pair touches
        cases touches
        exact own
    | evictExpired => exact expiresAt_of_apart found after nofun
    | clear => exact expiresAt_of_apart found after nofun

theorem Step.run_retention (step : Step) (cache : ReplayCache) : (step.run cache).retention = cache.retention := by
  by_cases cleared : step.operation = .clear
  · simp [Step.run, cleared, ReplayCache.clear]
  · exact (Step.moves cleared cache).retention

theorem Dated.Punctual.next {dated : Dated} (punctual : dated.Punctual)
    (keeps : KeepsExpiry dated.cache step) : (dated.next step).Punctual := by
  intro key kept found
  have present : (step.run dated.cache).lookup key = some kept := found
  simp only [Dated.next, step.run_retention, present, reduceCtorEq, if_false]
  split
  next recorded =>
    rw [lookup_of_recorded recorded.1 recorded.2] at present
    cases present
    exact ⟨_, rfl, rfl⟩
  next recorded =>
    rcases lookup_of_not_recorded recorded present with old | live
    · exact punctual key kept old
    · obtain ⟨entry, before, live⟩ := isLive_eq_true.mp live
      rw [keeps key entry kept before live present]
      exact punctual key entry before

end steps

/-- The expiry of every nonce is fixed exactly if none is inserted again while it has a live entry,
unless at the same time. -/
theorem expiryFixed_iff (retention : Duration) (maxEntries : Nat) (steps : List Step) :
    ExpiryFixed (emptyDated retention maxEntries) steps ↔
      datedMachine.Meets (emptyDated retention maxEntries)
        (fun _ dated step => ExtendsNothing dated.cache step) steps := by
  simp only [← keepsExpiry_iff]
  refine ⟨fun fixed => fixed.kept, fun kept => ⟨kept, ?_⟩⟩
  induction steps using List.reverseRecOn with
  | nil => exact Machine.throughout_nil.mpr forall_lookup_empty
  | append_singleton steps step ih =>
    obtain ⟨before, last⟩ := Machine.meets_concat.mp kept
    have throughout := ih before
    refine Machine.throughout_concat.mpr ⟨throughout, ?_⟩
    rw [Machine.after_concat]
    exact (throughout steps (List.prefix_refl steps)).next last

def insertedTwice : List Step :=
  [⟨.insert (.replicate 32 1) zeroNonce, readingAt 0⟩, ⟨.insert (.replicate 32 1) zeroNonce, readingAt 1⟩]

/-- The second insertion extends the live entry. -/
theorem insertedTwice_not_fixed : ¬ ExpiryFixed (emptyDated defaultRetention defaultMaxEntries) insertedTwice ∧
      ((run .new (insertedTwice.take 1)).lookup (makeKey (.replicate 32 1) zeroNonce)).map Entry.expiresAt =
        some defaultRetention ∧
      ((run .new insertedTwice).lookup (makeKey (.replicate 32 1) zeroNonce)).map Entry.expiresAt =
        some (defaultRetention + 1) := by
  refine ⟨?_, by decide +kernel, by decide +kernel⟩
  intro fixed
  have kept := fixed.kept (insertedTwice.take 1) ⟨.insert (.replicate 32 1) zeroNonce, readingAt 1⟩ (List.prefix_refl _)
  have moved := kept (makeKey (.replicate 32 1) zeroNonce) ⟨defaultRetention, 0⟩ ⟨defaultRetention + 1, 1⟩
    (by decide +kernel) (by decide +kernel) (by decide +kernel)
  exact absurd moved (by decide)

end Aafp.Crypto.ReplayCache
