import Aafp.Foundation.HashMap

/-! Hash maps from keys to lists, and indexes of a hash map that lead from an owner to its entries. -/
namespace Aafp.Foundation

variable {α κ β : Type}

section Pairs

open List

def pairs (map : AList fun _ : α => List β) : List (α × β) :=
  map.entries.flatMap fun entry => entry.2.map (Prod.mk entry.1)

variable [DecidableEq α] {map : AList fun _ : α => List β}

theorem mem_pairs : pair ∈ pairs map ↔ ∃ values, map.lookup pair.1 = some values ∧ pair.2 ∈ values := by
  unfold pairs
  rw [mem_flatMap]
  constructor
  · rintro ⟨⟨key, values⟩, inside, mem⟩
    obtain ⟨value, held, rfl⟩ := mem_map.mp mem
    exact ⟨values, AList.mem_lookup_iff.mpr inside, held⟩
  · rintro ⟨values, found, held⟩
    exact ⟨⟨pair.1, values⟩, AList.mem_lookup_iff.mp found, mem_map_of_mem held⟩

theorem mem_pairs_erase : pair ∈ pairs (map.erase key) ↔ pair ∈ pairs map ∧ pair.1 ≠ key := by
  rw [mem_pairs, mem_pairs]
  by_cases same : pair.1 = key
  · subst same
    simp
  · simp [same, AList.lookup_erase_ne same]

theorem pairs_insert (key : α) (values : List β) :
    pairs (map.insert key values) = values.map (Prod.mk key) ++ pairs (map.erase key) := by
  rfl

theorem pairs_perm (map : AList fun _ : α => List β) (key : α) :
    (pairs map).Perm (((map.lookup key).getD []).map (Prod.mk key) ++ pairs (map.erase key)) := by
  cases found : map.lookup key with
  | none =>
    have same : map.erase key = map := by
      apply AList.ext
      exact kerase_of_notMem_keys (AList.lookup_eq_none.mp found)
    rw [same]
    exact .refl _
  | some values =>
    have there : key ∈ map.entries.keys := AList.mem_keys.mp (mem_iff_lookup.mpr ⟨_, found⟩)
    obtain ⟨held, front, back, -, split, rest⟩ := exists_of_kerase there
    have inside : ⟨key, held⟩ ∈ map.entries := by simp [split]
    obtain rfl : values = held := by
      rw [AList.mem_lookup_iff.mpr inside] at found
      exact (Option.some.inj found).symm
    have entries : map.entries.Perm (⟨key, values⟩ :: (map.erase key).entries) := by
      change map.entries.Perm (⟨key, values⟩ :: map.entries.kerase key)
      rw [rest, split]
      exact perm_middle
    exact entries.flatMap_right _

theorem pairs_push (map : AList fun _ : α => List β) (key : α) (value : β) :
    (pairs (map.insert key ((map.lookup key).getD [] ++ [value]))).Perm (pairs map ++ [(key, value)]) := by
  rw [pairs_insert, map_append, append_assoc]
  refine (perm_append_comm.append_left _).trans ?_
  rw [← append_assoc]
  exact (pairs_perm map key).symm.append_right _

end Pairs

variable [DecidableEq α] {lists : AList fun _ : α => List κ} {owner other : α} {key : κ}

def listedKeys (lists : AList fun _ : α => List κ) (owner : α) : List κ := (lists.lookup owner).getD []

/-- `entry(owner).or_default().push(key)` -/
def pushKey (lists : AList fun _ : α => List κ) (owner : α) (key : κ) : AList fun _ : α => List κ :=
  lists.insert owner (listedKeys lists owner ++ [key])

theorem listedKeys_insert :
    listedKeys (lists.insert owner keys) other = if other = owner then keys else listedKeys lists other := by
  simp only [listedKeys, lookup_insert_ite, @eq_comm _ other]
  split <;> rfl

theorem listedKeys_pushKey : listedKeys (pushKey lists owner key) other =
      if other = owner then listedKeys lists owner ++ [key] else listedKeys lists other :=
  listedKeys_insert

variable [DecidableEq κ] {table : AList fun _ : κ => β} {value : β}

/-- The key is taken out of the owner's list, if there is one. -/
def dropKey (lists : AList fun _ : α => List κ) (owner : α) (key : κ) : AList fun _ : α => List κ :=
  match lists.lookup owner with
  | some keys => lists.insert owner (keys.filter (· ≠ key))
  | none => lists

def listedValues (lists : AList fun _ : α => List κ) (table : AList fun _ : κ => β) (owner : α) : List β :=
  (listedKeys lists owner).filterMap table.lookup

structure KeyLists (ownerOf : β → α) (lists : AList fun _ : α => List κ) (table : AList fun _ : κ => β) : Prop where
  listed : ∀ owner key, key ∈ listedKeys lists owner ↔ ∃ value, table.lookup key = some value ∧ ownerOf value = owner
  once : ∀ owner, (listedKeys lists owner).Nodup

theorem listedKeys_dropKey : listedKeys (dropKey lists owner key) other =
      if other = owner then (listedKeys lists owner).filter (· ≠ key) else listedKeys lists other := by
  unfold dropKey
  cases found : lists.lookup owner with
  | some keys =>
    have listed : listedKeys lists owner = keys := congrArg (Option.getD · []) found
    rw [listed]
    exact listedKeys_insert
  | none =>
    have unlisted : listedKeys lists owner = [] := congrArg (Option.getD · []) found
    split_ifs with same
    · rw [same, unlisted, List.filter_nil]
    · rfl

theorem listedValues_insert_of_notMem (unlisted : key ∉ listedKeys lists owner) (value : β) :
    listedValues lists (table.insert key value) owner = listedValues lists table owner := by
  apply List.filterMap_congr
  intro other mem
  rw [AList.lookup_insert_ne]
  rintro rfl
  exact unlisted mem

theorem listedValues_pushKey : listedValues (pushKey lists owner key) (table.insert key value) other =
      listedValues lists (table.insert key value) other ++ if other = owner then [value] else [] := by
  unfold listedValues
  rw [listedKeys_pushKey]
  split
  next same =>
    subst same
    simp
  next => rw [List.append_nil]

namespace KeyLists

variable {ownerOf : β → α}

theorem empty : KeyLists ownerOf (∅ : AList fun _ : α => List κ) (∅ : AList fun _ : κ => β) where
  listed owner key := by simp [listedKeys]
  once owner := by simp [listedKeys]

section

variable (index : KeyLists ownerOf lists table)
include index

theorem unlisted (fresh : table.lookup key = none) (owner : α) : key ∉ listedKeys lists owner := by
  intro mem
  obtain ⟨value, found, -⟩ := (index.listed owner key).mp mem
  rw [fresh] at found
  cases found

theorem push (fresh : table.lookup key = none) (value : β) :
    KeyLists ownerOf (pushKey lists (ownerOf value) key) (table.insert key value) where
  listed owner other := by
    rw [listedKeys_pushKey]
    by_cases same : other = key
    · subst same
      have absent := index.unlisted fresh
      by_cases owned : owner = ownerOf value
      · simp [owned]
      · simp [owned, absent, Ne.symm owned]
    · rw [AList.lookup_insert_ne same, ← index.listed]
      by_cases owned : owner = ownerOf value
      · simp [owned, same]
      · simp [owned]
  once owner := by
    rw [listedKeys_pushKey]
    split
    · rw [← List.concat_eq_append]
      exact (index.once _).concat (index.unlisted fresh _)
    · exact index.once owner

theorem drop (found : table.lookup key = some value) :
    KeyLists ownerOf (dropKey lists (ownerOf value) key) (table.erase key) where
  listed owner other := by
    rw [listedKeys_dropKey]
    by_cases same : other = key
    · subst same
      by_cases owned : owner = ownerOf value
      · simp [owned]
      · rw [if_neg owned, index.listed]
        simp [found, Ne.symm owned]
    · rw [AList.lookup_erase_ne same, ← index.listed]
      by_cases owned : owner = ownerOf value
      · simp [owned, same]
      · simp [owned]
  once owner := by
    rw [listedKeys_dropKey]
    split
    · exact (index.once _).filter _
    · exact index.once owner

theorem listedValues_drop (found : table.lookup key = some value) (owner : α) :
    (listedValues (dropKey lists (ownerOf value) key) (table.erase key) owner).Sublist
      (listedValues lists table owner) := by
  have rest : listedValues (dropKey lists (ownerOf value) key) (table.erase key) owner =
      (listedKeys (dropKey lists (ownerOf value) key) owner).filterMap table.lookup := by
    apply List.filterMap_congr
    intro other mem
    rw [AList.lookup_erase_ne]
    rintro rfl
    obtain ⟨kept, still, -⟩ := ((index.drop found).listed owner other).mp mem
    rw [AList.lookup_erase] at still
    cases still
  rw [rest, listedKeys_dropKey]
  split
  next owned =>
    subst owned
    exact List.filter_sublist.filterMap _
  next => exact List.Sublist.refl _

end

end KeyLists

/-- The index leads to a key exactly if the table has an entry of that owner there. -/
def Mirrors (ownerOf : β → α) (owners : AList fun _ : α => κ) (table : AList fun _ : κ => β) : Prop :=
  ∀ owner key, owners.lookup owner = some key ↔ ∃ value, table.lookup key = some value ∧ ownerOf value = owner

variable {ownerOf : β → α} {owners : AList fun _ : α => κ} {changed : β}

namespace Mirrors

section

variable (mirrors : Mirrors ownerOf owners table)
include mirrors

theorem unique {other : κ} (found : table.lookup key = some value)
    (also : table.lookup other = some changed) (same : ownerOf changed = ownerOf value) : other = key := by
  have first := (mirrors (ownerOf value) key).mpr ⟨value, found, rfl⟩
  have second := (mirrors (ownerOf value) other).mpr ⟨changed, also, same⟩
  rw [first] at second
  exact (Option.some.inj second).symm

theorem drop (found : table.lookup key = some value) :
    Mirrors ownerOf (owners.erase (ownerOf value)) (table.erase key) := by
  intro owner other
  by_cases owned : owner = ownerOf value
  · -- all entries of this owner are gone, since there was one only
    rw [owned]
    refine iff_of_false (by simp) ?_
    intro ⟨entry, there, same⟩
    by_cases here : other = key
    · rw [here, AList.lookup_erase] at there
      cases there
    · rw [AList.lookup_erase_ne here] at there
      exact here (mirrors.unique found there same)
  · rw [AList.lookup_erase_ne owned, mirrors]
    refine exists_congr fun entry => and_congr_left fun same => ?_
    by_cases here : other = key
    · rw [here, found]
      refine iff_of_false ?_ (by simp)
      intro stored
      exact owned (same.symm.trans (congrArg ownerOf (Option.some.inj stored)).symm)
    · rw [AList.lookup_erase_ne here]

theorem put (value : β) (free : owners.lookup (ownerOf value) = none) (fresh : table.lookup key = none) :
    Mirrors ownerOf (owners.insert (ownerOf value) key) (table.insert key value) := by
  intro owner other
  by_cases here : other = key
  · subst here
    by_cases owned : owner = ownerOf value
    · subst owned
      simp
    · rw [AList.lookup_insert_ne owned, mirrors, fresh]
      simp [Ne.symm owned]
  · rw [AList.lookup_insert_ne here, ← mirrors]
    by_cases owned : owner = ownerOf value
    · subst owned
      rw [free]
      simp [Ne.symm here]
    · rw [AList.lookup_insert_ne owned]

theorem update (found : table.lookup key = some value)
    (same : ownerOf changed = ownerOf value) : Mirrors ownerOf owners (table.insert key changed) := by
  intro owner other
  rw [mirrors]
  by_cases here : other = key
  · subst here
    rw [found]
    simp [same]
  · rw [AList.lookup_insert_ne here]

end

end Mirrors
end Aafp.Foundation
