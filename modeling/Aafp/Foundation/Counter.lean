import Aafp.Foundation.HashMap

/-! Ids that are given out by a counter of 64 bits, tables that are keyed by them, and counters
of 32 bits that stop at their bounds. -/
namespace Aafp.Foundation

theorem toNat_add_one {id : UInt64} (small : ¬ id.toNat + 1 = UInt64.size) : (id + 1).toNat = id.toNat + 1 := by
  have bound := id.toNat_lt_size
  have room : id.toNat + 1 < 2 ^ 64 := by
    simp only [UInt64.size] at small bound
    omega
  exact Nat.mod_eq_of_lt room

/-- How a call moves a counter: it gives out the present id and steps, or does neither. -/
def Counts (issued : Option UInt64) (next after : UInt64) : Prop :=
  issued = none ∧ after = next ∨ issued = some next ∧ after.toNat = next.toNat + 1

variable {next after : UInt64} {β : Type} {count : UInt32}

theorem lt_of_toNat_eq (more : after.toNat = next.toNat + 1) : next < after := by
  rw [UInt64.lt_iff_toNat_lt]
  omega

theorem Counts.lt {id : UInt64} (counts : Counts issued next after) (below : id < next) : id < after := by
  obtain ⟨_, rfl⟩ | ⟨_, more⟩ := counts
  · exact below
  · exact UInt64.lt_trans below (lt_of_toNat_eq more)

theorem filterMap_concat (f : α → Option β) (items : List α) (item : α) :
    (items ++ [item]).filterMap f = items.filterMap f ++ (f item).toList := by
  cases same : f item <;> simp [same]

structure Issued (ids : List UInt64) (next : UInt64) : Prop where
  nodup : ids.Nodup
  below : ∀ id ∈ ids, id < next

theorem Issued.step (given : Issued ids next)
    (counts : Counts issued next after) : Issued (ids ++ issued.toList) after := by
  obtain ⟨nothing, same⟩ | ⟨present, more⟩ := counts
  · subst nothing same
    simpa using given
  · subst present
    have growing := lt_of_toNat_eq more
    constructor
    · rw [Option.toList_some, ← List.concat_eq_append, List.nodup_concat]
      exact ⟨fun again => absurd (given.below next again) (UInt64.lt_irrefl next), given.nodup⟩
    · intro id mem
      obtain old | new := List.mem_append.mp mem
      · exact UInt64.lt_trans (given.below id old) growing
      · rw [List.mem_singleton.mp new]
        exact growing

section

variable {table : AList fun _ : UInt64 => β} (below : ∀ id value, table.lookup id = some value → id < next)
include below

theorem lookup_eq_none_of_below : table.lookup next = none := by
  cases found : table.lookup next with
  | none => rfl
  | some value => exact absurd (below next value found) (UInt64.lt_irrefl next)

theorem below_insert (more : after.toNat = next.toNat + 1) :
    ∀ id found, (table.insert next value).lookup id = some found → id < after := by
  have growing := lt_of_toNat_eq more
  apply forall_lookup_insert
  · intro id found stored
    exact UInt64.lt_trans (below id found stored) growing
  · exact growing

end

theorem label_inj {first second : UInt64}
    (same : label ++ toString first = label ++ toString second) : first = second := by
  have texts : first.toNat.repr = second.toNat.repr := (String.append_right_inj label).mp same
  have values := congrArg (Nat.ofDigitChars 10 · 0) (String.ofList_injective texts)
  rw [Nat.ofDigitChars_ten_toDigits, Nat.ofDigitChars_ten_toDigits] at values
  exact UInt64.toNat_inj.mp values

/-- `saturating_add(1)`. -/
def saturatingSucc (count : UInt32) : UInt32 := if count.toNat + 1 = UInt32.size then count else count + 1

/-- `saturating_sub(1)`. -/
def saturatingPred (count : UInt32) : UInt32 := if count = 0 then 0 else count - 1

theorem toNat_succ_of_lt (below : count < limit) : (count + 1).toNat = count.toNat + 1 := by
  have bound := limit.toNat_lt_size
  exact Nat.mod_eq_of_lt (Nat.lt_of_le_of_lt below bound)

theorem toNat_saturatingSucc (small : count.toNat + 1 < UInt32.size) :
    (saturatingSucc count).toNat = count.toNat + 1 := by
  rw [saturatingSucc, if_neg (Nat.ne_of_lt small)]
  exact Nat.mod_eq_of_lt small

theorem saturatingPred_succ (small : (count + 1).toNat = count.toNat + 1) : saturatingPred (count + 1) = count := by
  have positive : count + 1 ≠ 0 := by
    intro zero
    rw [zero, UInt32.toNat_zero] at small
    omega
  rw [saturatingPred, if_neg positive, UInt32.add_sub_cancel]

theorem saturatingSucc_counts_iff :
    ((saturatingSucc count).toNat = count.toNat + 1 ∧ saturatingPred (saturatingSucc count) = count) ↔
      count.toNat + 1 ≠ UInt32.size := by
  constructor
  · intro ⟨more, _⟩ full
    rw [saturatingSucc, if_pos full] at more
    omega
  · intro room
    have small : count.toNat + 1 < UInt32.size := Nat.lt_of_le_of_ne count.toNat_lt_size room
    have more := toNat_saturatingSucc small
    refine ⟨more, ?_⟩
    rw [saturatingSucc, if_neg room] at more ⊢
    exact saturatingPred_succ more

end Aafp.Foundation
