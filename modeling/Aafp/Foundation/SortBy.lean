import Mathlib.Data.List.Sort

/-! Stable sorting by a three-way comparison. -/
namespace Aafp.Foundation

open Std List

/-- Stable ascending sort by `cmp`, as `slice::sort_by`. -/
def sortBy (cmp : α → α → Ordering) (items : List α) : List α :=
  items.insertionSort (fun left right => (cmp left right).isLE = true)

def lengthFirst [Ord α] : List α → List α → Ordering :=
  compareLex (compareOn length) compare

instance [Ord α] [TransOrd α] : TransCmp (lengthFirst (α := α)) :=
  inferInstanceAs (TransCmp (compareLex _ _))

theorem transCmp_comap (cmp : β → β → Ordering) [TransCmp cmp] (key : α → β) :
    TransCmp (fun left right => cmp (key left) (key right)) where
  eq_swap {_ _} := @OrientedCmp.eq_swap _ cmp _ _ _
  isLE_trans {_ _ _} := @TransCmp.isLE_trans _ cmp _ _ _ _

theorem lengthFirst_eq_eq [Ord α] [LawfulEqOrd α] {left right : List α}
    (tied : lengthFirst left right = .eq) : left = right := by
  have both := compareLex_eq_eq.mp tied
  exact LawfulEqOrd.eq_of_compare both.2

theorem lengthFirst_of_length_eq [Ord α] {left right : List α} (same : left.length = right.length) :
    lengthFirst left right = compare left right := by
  simp [lengthFirst, compareLex, compareOn, same]

theorem lengthFirst_of_length_lt [Ord α] {left right : List α} (shorter : left.length < right.length) :
    lengthFirst left right = .lt := by
  simp [lengthFirst, compareLex, compareOn, Nat.compare_eq_lt.mpr shorter]

variable (cmp : α → α → Ordering)

theorem sortBy_perm (items : List α) : (sortBy cmp items).Perm items :=
  perm_insertionSort _ items

@[simp] theorem mem_sortBy (items : List α) :
    item ∈ sortBy cmp items ↔ item ∈ items := (sortBy_perm cmp items).mem_iff

theorem sortBy_sorted [TransCmp cmp] (items : List α) :
    (sortBy cmp items).Pairwise (fun left right => (cmp left right).isLE = true) := by
  have total : Std.Total (fun left right => (cmp left right).isLE = true) := ⟨by
    intro left right
    rw [@OrientedCmp.eq_swap _ cmp _ right]
    cases cmp left right <;> simp⟩
  have trans : IsTrans α (fun left right => (cmp left right).isLE = true) :=
    ⟨fun _ _ _ => TransCmp.isLE_trans⟩
  exact pairwise_insertionSort _ items

theorem le_of_notMem_take_sortBy [TransCmp cmp] (count : Nat) (kept : left ∈ (sortBy cmp items).take count)
    (mem : right ∈ items) (cut : right ∉ (sortBy cmp items).take count) : (cmp left right).isLE = true := by
  have sorted := sortBy_sorted cmp items
  rw [← mem_sortBy cmp] at mem
  rw [← take_append_drop count (sortBy cmp items)] at sorted mem
  have after : right ∈ (sortBy cmp items).drop count := (mem_append.mp mem).resolve_left cut
  exact (pairwise_append.mp sorted).2.2 left kept right after

theorem sortBy_eq_self (sorted : items.Pairwise (fun left right => (cmp left right).isLE = true)) :
    sortBy cmp items = items := sorted.insertionSort_eq

theorem sortBy_map (mapped : β → β → Ordering) (f : α → β)
    (same : ∀ left right, mapped (f left) (f right) = cmp left right) (items : List α) :
    sortBy mapped (items.map f) = (sortBy cmp items).map f := by
  symm
  apply map_insertionSort
  intro left _ right _
  rw [same]

/-- A comparison that ties no two different entries sorts every rearrangement
of the entries to one list. -/
theorem sortBy_eq_of_perm {cmp : α → α → Ordering} [TransCmp cmp]
    (separated : ∀ left ∈ first, ∀ right ∈ first, cmp left right = .eq → left = right)
    (perm : first.Perm second) : sortBy cmp first = sortBy cmp second := by
  have sorted : (sortBy cmp first).Perm (sortBy cmp second) :=
    (sortBy_perm cmp first).trans (perm.trans (sortBy_perm cmp second).symm)
  refine sorted.eq_of_pairwise ?_ (sortBy_sorted cmp first) (sortBy_sorted cmp second)
  intro left right leftMember rightMember below above
  apply separated left (by simpa using leftMember) right
  · exact perm.mem_iff.mpr (by simpa using rightMember)
  · rw [@OrientedCmp.eq_swap _ cmp] at above
    generalize cmp left right = ordering at below above
    cases ordering <;> simp_all

/-- Keyed entries with pairwise distinct keys are separated by any comparison
of their keys that ties equal keys only. -/
theorem separated_of_nodup_keys {cmp : κ → κ → Ordering} {entries : List (κ × α)}
    (ties : ∀ {left right}, cmp left right = .eq → left = right) (distinct : (entries.map Prod.fst).Nodup) :
    ∀ left ∈ entries, ∀ right ∈ entries, cmp left.1 right.1 = .eq → left = right := by
  intro left leftMember right rightMember tied
  exact inj_on_of_nodup_map distinct leftMember rightMember (ties tied)

/-- The first of the smallest items, as `Iterator::min_by`. -/
def minBy (cmp : α → α → Ordering) : List α → Option α
  | [] => none
  | first :: items => some (items.foldl (fun least item => if cmp least item = .gt then item else least) first)

/-- The last of the greatest items, as `Iterator::max_by`. -/
def maxBy (cmp : α → α → Ordering) : List α → Option α
  | [] => none
  | first :: items =>
    some (items.foldl (fun greatest item => if cmp greatest item = .gt then greatest else item) first)

theorem mem_of_foldl_choice {choice : α → α → α} (either : ∀ left right, choice left right = left ∨
    choice left right = right) (first : α) (items : List α) : items.foldl choice first ∈ first :: items := by
  induction items generalizing first with
  | nil => exact mem_singleton_self first
  | cons item items ih =>
    have found := ih (choice first item)
    rw [foldl_cons]
    rcases mem_cons.mp found with here | later
    · rw [here]
      rcases either first item with same | same <;> simp [same]
    · simp [later]

theorem mem_of_minBy {cmp : α → α → Ordering} (found : minBy cmp items = some item) : item ∈ items := by
  cases items with
  | nil => cases found
  | cons first items =>
    obtain rfl := Option.some.inj found
    apply mem_of_foldl_choice
    intro left right
    split <;> simp

theorem exists_minBy (nonempty : items ≠ []) : ∃ item ∈ items, minBy cmp items = some item := by
  cases items with
  | nil => exact absurd rfl nonempty
  | cons first items => exact ⟨_, mem_of_minBy rfl, rfl⟩

theorem minBy_concat (items : List α) (item : α) :
    minBy cmp (items ++ [item]) = match minBy cmp items with
      | none => some item
      | some least => if cmp least item = .gt then some item else some least := by
  cases items with
  | nil => rfl
  | cons first items =>
    simp only [minBy, cons_append, foldl_append, foldl_cons, foldl_nil]
    split <;> rfl

theorem mem_of_maxBy {cmp : α → α → Ordering} (found : maxBy cmp items = some item) : item ∈ items := by
  cases items with
  | nil => cases found
  | cons first items =>
    obtain rfl := Option.some.inj found
    apply mem_of_foldl_choice
    intro left right
    split <;> simp

theorem exists_maxBy (nonempty : items ≠ []) : ∃ item ∈ items, maxBy cmp items = some item := by
  cases items with
  | nil => exact absurd rfl nonempty
  | cons first items => exact ⟨_, mem_of_maxBy rfl, rfl⟩

theorem isLE_maxBy {cmp : α → α → Ordering} [TransCmp cmp] {items : List α}
    (found : maxBy cmp items = some greatest) (mem : item ∈ items) : (cmp item greatest).isLE = true := by
  cases items with
  | nil => cases mem
  | cons first items =>
    obtain rfl := Option.some.inj found
    clear found
    induction items generalizing first item with
    | nil =>
      cases mem_singleton.mp mem
      exact ReflCmp.isLE_rfl
    | cons next items ih =>
      rw [foldl_cons]
      split
      case isTrue above =>
        rcases mem_cons.mp mem with rfl | later
        · exact ih item mem_cons_self
        · rcases mem_cons.mp later with rfl | rest
          · have below : (cmp item first).isLE = true := by rw [OrientedCmp.gt_iff_lt.mp above]; rfl
            exact TransCmp.isLE_trans below (ih first mem_cons_self)
          · exact ih first (mem_cons_of_mem first rest)
      case isFalse below =>
        rcases mem_cons.mp mem with rfl | later
        · exact TransCmp.isLE_trans (Ordering.isLE_iff_ne_gt.mpr below) (ih next mem_cons_self)
        · exact ih next later

end Aafp.Foundation
