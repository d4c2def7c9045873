import Aafp.Foundation.Saturating
import Mathlib.Data.List.Basic

/-! Limits on how many events fall into any window of time. -/
namespace Aafp.Foundation

open List Nat

def within (width time stamp : Nat) : Bool := stamp ≤ time && time ≤ stamp + width

theorem within_eq_true : within width time stamp = true ↔ stamp ≤ time ∧ time ≤ stamp + width := by
  simp [within]

theorem within_of_later (past : stamp ≤ time) (after : time ≤ later)
    (inside : within width later stamp = true) : within width time stamp = true := by
  rw [within_eq_true] at inside ⊢
  omega

/-- The stamps that are kept are as good as all for every window that ends now or later, and no
window holds more than the limit. -/
structure Tracks (width limit time : Nat) (kept stamps : List Nat) : Prop where
  keptPast : ∀ stamp ∈ kept, stamp ≤ time
  past : ∀ stamp ∈ stamps, stamp ≤ time
  agree : ∀ later, time ≤ later → kept.countP (within width later) = stamps.countP (within width later)
  limited : ∀ anytime, stamps.countP (within width anytime) ≤ limit

section tracks

variable {width limit time now : Nat} {kept stamps : List Nat}

theorem tracks_nil (width limit time : Nat) : Tracks width limit time [] [] := by
  constructor <;> simp

theorem Tracks.later (tracks : Tracks width limit time kept stamps) (after : time ≤ now) :
    Tracks width limit now kept stamps where
  keptPast stamp mem := le_trans (tracks.keptPast stamp mem) after
  past stamp mem := le_trans (tracks.past stamp mem) after
  agree later further := tracks.agree later (le_trans after further)
  limited := tracks.limited

theorem Tracks.prune (tracks : Tracks width limit time kept stamps) :
    Tracks width limit time (kept.filter (within width time)) stamps where
  keptPast stamp mem := tracks.keptPast stamp (mem_of_mem_filter mem)
  past := tracks.past
  agree later further := by
    rw [← tracks.agree later further, countP_filter]
    apply countP_congr
    intro stamp mem
    rw [Bool.and_eq_true, and_iff_left_iff_imp]
    exact within_of_later (tracks.keptPast stamp mem) further
  limited := tracks.limited

theorem countP_within_concat (width time stamp : Nat) (stamps : List Nat) :
    (stamps ++ [stamp]).countP (within width time) =
      stamps.countP (within width time) + if within width time stamp then 1 else 0 := by
  rw [countP_append, countP_singleton]

/-- A window that ends after an event holds no more of the stamps before than the window that ends
with the event. -/
theorem Tracks.countP_le (tracks : Tracks width limit time kept stamps) (after : time ≤ now) :
    stamps.countP (within width now) ≤ stamps.countP (within width time) := by
  apply countP_mono_left
  intro stamp mem
  exact within_of_later (tracks.past stamp mem) after

theorem Tracks.record (tracks : Tracks width limit time kept stamps)
    (room : kept.countP (within width time) < limit) :
    Tracks width limit time (kept ++ [time]) (stamps ++ [time]) where
  keptPast := forall_mem_append.mpr ⟨tracks.keptPast, forall_mem_singleton.mpr (le_refl time)⟩
  past := forall_mem_append.mpr ⟨tracks.past, forall_mem_singleton.mpr (le_refl time)⟩
  agree later further := by
    rw [countP_within_concat, countP_within_concat, tracks.agree later further]
  limited := by
    intro anytime
    rw [countP_within_concat]
    split
    next inside =>
      have fewer := tracks.countP_le (within_eq_true.mp inside).1
      rw [tracks.agree time (le_refl time)] at room
      omega
    · exact tracks.limited anytime

end tracks

section words

variable {Entry : Type} {stampOf : Entry → UInt64} {width now : UInt64} {limit : UInt32} {entries : List Entry}
  {stamps : List Nat}

def timesOf (stampOf : Entry → UInt64) (entries : List Entry) : List Nat :=
  entries.map fun entry => (stampOf entry).toNat

theorem timesOf_recent (past : ∀ stamp ∈ timesOf stampOf entries, stamp ≤ now.toNat) :
    timesOf stampOf (entries.filter fun entry => saturatingSub now (stampOf entry) ≤ width) =
      (timesOf stampOf entries).filter (within width.toNat now.toNat) := by
  rw [timesOf, timesOf, filter_map]
  congr 1
  apply filter_congr
  intro entry mem
  have before : (stampOf entry).toNat ≤ now.toNat := past _ (mem_map_of_mem mem)
  rw [Function.comp_apply, Bool.eq_iff_iff, within_eq_true, decide_eq_true_eq, UInt64.le_iff_toNat_le,
    toNat_saturatingSub]
  omega

/-- A limiter that finds its limit not reached has room. Its count fits into 32 bits, since the limit
does. -/
theorem Tracks.room (tracks : Tracks width.toNat limit.toNat now.toNat (timesOf stampOf entries) stamps)
    (free : ¬ limit ≤ .ofNat (entries.filter fun entry => saturatingSub now (stampOf entry) ≤ width).length) :
    (timesOf stampOf entries).countP (within width.toNat now.toNat) < limit.toNat := by
  have count : (entries.filter fun entry => saturatingSub now (stampOf entry) ≤ width).length =
      (timesOf stampOf entries).countP (within width.toNat now.toNat) := by
    rw [countP_eq_length_filter, ← timesOf_recent tracks.keptPast, timesOf, length_map]
  have few := tracks.limited now.toNat
  rw [← tracks.agree now.toNat (le_refl _)] at few
  rw [count, UInt32.not_le, UInt32.lt_iff_toNat_lt,
    UInt32.toNat_ofNat_of_lt' (lt_of_le_of_lt few limit.toNat_lt_size)] at free
  exact free

end words

end Aafp.Foundation
