import Aafp.Foundation.HashMap
import Aafp.Foundation.SortBy
import Mathlib.Data.List.Induction

/-! Items in groups of one key, the groups by their size, and how large two groups can be. -/
namespace Aafp.Foundation

open Std List

theorem length_filter_add_le (first second : α → Bool) (apart : ∀ item, first item → ¬ second item)
    (items : List α) : (items.filter first).length + (items.filter second).length ≤ items.length := by
  induction items with
  | nil => simp
  | cons item items ih =>
    have here := apart item
    rw [filter_cons, filter_cons]
    split <;> split <;> simp_all only [length_cons, not_true_eq_false, forall_const] <;> omega

variable {α κ : Type} [DecidableEq κ]

def groupBy (key : α → κ) (items : List α) : AList fun _ : κ => List α :=
  items.foldl (fun groups item =>
    groups.insert (key item) ((groups.lookup (key item)).getD [] ++ [item])) ∅

theorem getD_lookup_groupBy (key : α → κ) (items : List α) (wanted : κ) :
    ((groupBy key items).lookup wanted).getD [] = items.filter (key · = wanted) := by
  unfold groupBy
  induction items using reverseRecOn with
  | nil => rfl
  | append_singleton items item ih =>
    rw [foldl_append, foldl_cons, foldl_nil, lookup_insert_ite]
    split
    · subst wanted
      simp [ih]
    next apart => simp [apart, ih]

variable {key : α → κ} {groups : AList fun _ : κ => List α} {items : List α} {pass : IterationOrder κ (List α)}

private theorem filter_flatMap_groups {entries : List (Sigma fun _ : κ => List α)}
    (keyed : ∀ entry ∈ entries, ∀ item ∈ entry.2, key item = entry.1) (distinct : entries.NodupKeys) (wanted : κ) :
    (entries.flatMap fun entry => entry.2).filter (key · = wanted) = (entries.dlookup wanted).getD [] := by
  induction entries with
  | nil => rfl
  | cons entry entries ih =>
    obtain ⟨here, keyed⟩ := forall_mem_cons.mp keyed
    obtain ⟨fresh, distinct⟩ := nodupKeys_cons.mp distinct
    rw [flatMap_cons, filter_append, ih keyed distinct]
    by_cases same : entry.1 = wanted
    · subst same
      have whole : entry.2.filter (key · = entry.1) = entry.2 :=
        filter_eq_self.mpr fun item mem => decide_eq_true (here item mem)
      rw [whole, dlookup_cons_eq, dlookup_eq_none.mpr fresh]
      simp
    · have none : entry.2.filter (key · = wanted) = [] :=
        filter_eq_nil_iff.mpr fun item mem => by simp [here item mem, same]
      rw [none, dlookup_cons_ne _ _ (Ne.symm same), nil_append]

theorem filter_iterate_groups
    (keyed : ∀ wanted items, groups.lookup wanted = some items → ∀ item ∈ items, key item = wanted)
    (pass : IterationOrder κ (List α)) (wanted : κ) :
    ((pass.iterate groups).flatMap fun entry => entry.2).filter (key · = wanted) =
      (groups.lookup wanted).getD [] := by
  have visited := pass.perm groups.entries
  have distinct := (perm_nodupKeys visited).mpr groups.nodupKeys
  have each : ∀ entry ∈ pass.iterate groups, ∀ item ∈ entry.2, key item = entry.1 :=
    fun entry mem => keyed entry.1 entry.2 (mem_iterate.mp mem)
  rw [filter_flatMap_groups each distinct, IterationOrder.iterate, perm_dlookup wanted distinct visited]
  rfl

theorem nonempty_of_lookup_groupBy (found : (groupBy key items).lookup wanted = some group) : group ≠ [] := by
  unfold groupBy at found
  induction items using reverseRecOn with
  | nil => cases found
  | append_singleton items item ih =>
    rw [foldl_append] at found
    rcases lookup_insert_eq_some.mp found with ⟨-, rfl⟩ | ⟨-, before⟩
    · simp
    · exact ih before

def largestFirst (pass : IterationOrder κ (List α)) (groups : AList fun _ : κ => List α) : List (List α) :=
  sortBy (fun left right => compare right.length left.length) ((pass.iterate groups).map Sigma.snd)

theorem mem_largestFirst : group ∈ largestFirst pass groups ↔ ∃ wanted, groups.lookup wanted = some group := by
  rw [largestFirst, mem_sortBy, mem_map]
  constructor
  · rintro ⟨entry, visited, rfl⟩
    exact ⟨entry.1, mem_iterate.mp visited⟩
  · rintro ⟨wanted, found⟩
    exact ⟨⟨wanted, group⟩, mem_iterate.mpr found, rfl⟩

omit [DecidableEq κ] in
theorem length_le_of_largestFirst (sorted : largestFirst pass groups = best :: rest)
    (mem : group ∈ largestFirst pass groups) : group.length ≤ best.length := by
  have trans : TransCmp fun left right : List α => compare right.length left.length :=
    transCmp_comap (fun left right : Nat => compare right left) length
  have order := sortBy_sorted (fun left right : List α => compare right.length left.length)
    ((pass.iterate groups).map Sigma.snd)
  rw [← largestFirst, sorted, pairwise_cons] at order
  rw [sorted] at mem
  rcases mem_cons.mp mem with rfl | later
  · exact Nat.le_refl _
  · exact Nat.isLE_compare.mp (order.1 group later)

theorem largestFirst_groupBy (sorted : largestFirst pass (groupBy key items) = best :: rest) :
    (∃ wanted, best = items.filter (key · = wanted)) ∧ best ≠ [] ∧
      ∀ wanted, (items.filter (key · = wanted)).length ≤ best.length := by
  have first : best ∈ largestFirst pass (groupBy key items) := by simp [sorted]
  obtain ⟨wanted, found⟩ := mem_largestFirst.mp first
  refine ⟨⟨wanted, ?_⟩, nonempty_of_lookup_groupBy found, ?_⟩
  · rw [← getD_lookup_groupBy, found, Option.getD_some]
  · intro other
    rw [← getD_lookup_groupBy]
    cases group : (groupBy key items).lookup other with
    | none => exact Nat.zero_le _
    | some members => exact length_le_of_largestFirst sorted (mem_largestFirst.mpr ⟨other, group⟩)

theorem largestFirst_ne_nil (mem : item ∈ items) : largestFirst pass (groupBy key items) ≠ [] := by
  have held : item ∈ items.filter (key · = key item) := by simp [mem]
  rw [← getD_lookup_groupBy] at held
  cases group : (groupBy key items).lookup (key item) with
  | none =>
    rw [group] at held
    cases held
  | some members => exact ne_nil_of_mem (mem_largestFirst.mpr ⟨_, group⟩)

end Aafp.Foundation
