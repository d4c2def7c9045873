import Mathlib.Algebra.GroupWithZero.Nat
import Mathlib.Data.List.Basic

/-! Sequences whose parts are kept apart by separators. -/
namespace Aafp.Foundation

open List

variable {isSep : α → Bool}

private theorem mem_modifyHead_cons (nonempty : parts ≠ []) (mem : part ∈ parts.modifyHead (first :: ·)) :
    (∃ head ∈ parts, part = first :: head) ∨ part ∈ parts := by
  cases parts with
  | nil => exact absurd rfl nonempty
  | cons head tail =>
    rcases mem_cons.mp mem with here | later
    · exact .inl ⟨head, mem_cons_self, here⟩
    · exact .inr (mem_cons_of_mem _ later)

variable {items front back : List α}

theorem of_mem_splitOnP (mem : part ∈ items.splitOnP isSep) : ∀ item ∈ part, isSep item = false ∧ item ∈ items := by
  induction items generalizing part with
  | nil =>
    rw [splitOnP_nil, mem_singleton] at mem
    simp [mem]
  | cons first items ih =>
    have later : ∀ part ∈ items.splitOnP isSep, ∀ item ∈ part, isSep item = false ∧ item ∈ first :: items :=
      fun part mem item held => (ih mem item held).imp_right (mem_cons_of_mem first)
    rw [splitOnP_cons_eq_if_modifyHead] at mem
    split at mem
    · rcases mem_cons.mp mem with rfl | inside
      · simp
      · exact later part inside
    next free =>
      rcases mem_modifyHead_cons (splitOnP_ne_nil isSep items) mem with
        ⟨head, inside, rfl⟩ | inside
      · exact forall_mem_cons.mpr ⟨⟨by simpa using free, mem_cons_self⟩, later head inside⟩
      · exact later part inside

theorem splitOnP_intercalate (separates : isSep sep = true) (nonempty : parts ≠ [])
    (free : ∀ part ∈ parts, ∀ item ∈ part, isSep item = false) :
    ([sep].intercalate parts).splitOnP isSep = parts := by
  induction parts with
  | nil => exact absurd rfl nonempty
  | cons part parts ih =>
    rw [forall_mem_cons] at free
    cases parts with
    | nil =>
      rw [intercalate_singleton]
      exact splitOnP_eq_singleton free.1
    | cons next rest =>
      rw [intercalate_cons_cons, append_assoc, singleton_append,
        splitOnP_append_cons_of_forall_mem free.1 sep separates, ih (cons_ne_nil next rest) free.2]

theorem weight_splitOnP (weight : α → Nat) (unit : ∀ item, isSep item = true → weight item = 1) (items : List α) :
    (items.map weight).sum + 1 = ((items.splitOnP isSep).map fun part => (part.map weight).sum + 1).sum := by
  induction items with
  | nil => simp [splitOnP_nil]
  | cons first items ih =>
    rw [splitOnP_cons_eq_if_modifyHead]
    split
    next separates =>
      rw [map_cons, sum_cons, map_cons, sum_cons, unit first separates]
      simp only [map_nil, sum_nil]
      omega
    · cases split : items.splitOnP isSep with
      | nil => exact absurd split (splitOnP_ne_nil isSep items)
      | cons head tail =>
        rw [split] at ih
        simp only [map_cons, sum_cons, modifyHead_cons] at ih ⊢
        omega

/-- What stands before and after the last separator. -/
def splitLast (isSep : α → Bool) : List α → Option (List α × List α)
  | [] => none
  | item :: items =>
    match splitLast isSep items with
    | some (front, back) => some (item :: front, back)
    | none => if isSep item then some ([], items) else none

theorem splitLast_eq_none (free : ∀ item ∈ items, isSep item = false) : splitLast isSep items = none := by
  induction items with
  | nil => rfl
  | cons item items ih =>
    rw [forall_mem_cons] at free
    simp [splitLast, ih free.2, free.1]

theorem splitLast_append (separates : isSep sep = true) (free : ∀ item ∈ back, isSep item = false) :
    splitLast isSep (front ++ sep :: back) = some (front, back) := by
  induction front with
  | nil => simp [splitLast, splitLast_eq_none free, separates]
  | cons item front ih => simp [splitLast, ih]

/-- What stands before and after the first separator. -/
def splitFirst (isSep : α → Bool) : List α → Option (List α × List α)
  | [] => none
  | item :: items =>
    if isSep item then some ([], items) else (splitFirst isSep items).map (.map (item :: ·) id)

theorem splitFirst_append (separates : isSep sep = true) (free : ∀ item ∈ front, isSep item = false) :
    splitFirst isSep (front ++ sep :: back) = some (front, back) := by
  induction front with
  | nil => simp [splitFirst, separates]
  | cons item front ih =>
    rw [forall_mem_cons] at free
    simp [splitFirst, free.1, ih free.2]

theorem front_eq_of_append_eq (separates : isSep sep = true)
    (free : ∀ item ∈ front, isSep item = false) (otherFree : ∀ item ∈ other, isSep item = false)
    (same : front ++ sep :: back = other ++ sep :: rest) : front = other ∧ back = rest := by
  have split : splitFirst isSep (front ++ sep :: back) = some (front, back) :=
    splitFirst_append separates free
  rw [same, splitFirst_append separates otherFree] at split
  exact ⟨(congrArg Prod.fst (Option.some.inj split)).symm, (congrArg Prod.snd (Option.some.inj split)).symm⟩

end Aafp.Foundation
