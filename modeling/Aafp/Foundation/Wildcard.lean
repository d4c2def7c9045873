import Mathlib.Data.List.Forall2

/-! Filters over paths. -/
namespace Aafp.Foundation

open List

/-- The two levels that stand for others. -/
structure Wildcards (α : Type) where
  one : α
  many : α
  distinct : one ≠ many

namespace Wildcards

variable {α : Type} [DecidableEq α] (w : Wildcards α)

def accepts : (filter path : List α) → Bool
  | [], [] => true
  | level :: _, [] => level = w.many
  | [], _ :: _ => false
  | level :: filter, segment :: path =>
    if level = w.many then true
    else if level = w.one then accepts filter path
    else level = segment && accepts filter path

/-- The path has the filter's levels, with any segment in place of `one`. -/
def Fills (filter path : List α) : Prop :=
  List.Forall₂ (fun level segment => level = w.one ∨ level = segment) filter path

variable {w}

variable {filter path : List α}

theorem accepts_cons_nil : w.accepts (level :: filter) [] = true ↔ level = w.many := by
  rw [accepts, decide_eq_true_eq]

theorem accepts_cons {level segment : α} : w.accepts (level :: filter) (segment :: path) = true ↔
    level = w.many ∨ ((level = w.one ∨ level = segment) ∧ w.accepts filter path = true) := by
  rw [accepts]
  by_cases rest : level = w.many
  · simp [rest]
  by_cases any : level = w.one
  · simp [any, w.distinct]
  · simp [rest, any]

theorem accepts_iff_fills (bounded : w.many ∉ filter) : w.accepts filter path = true ↔ w.Fills filter path := by
  unfold Fills
  induction filter generalizing path with
  | nil => cases path <;> simp [accepts]
  | cons level filter ih =>
    rw [mem_cons, not_or] at bounded
    cases path with
    | nil => simp [accepts_cons_nil, Ne.symm bounded.1]
    | cons segment path =>
      rw [accepts_cons, forall₂_cons, ← ih bounded.2]
      simp [Ne.symm bounded.1]

theorem accepts_literal (notOne : w.one ∉ filter) (notMany : w.many ∉ filter) :
    w.accepts filter path = true ↔ filter = path := by
  induction filter generalizing path with
  | nil => cases path <;> simp [accepts]
  | cons level filter ih =>
    rw [mem_cons, not_or] at notOne notMany
    cases path with
    | nil => simp [accepts_cons_nil, Ne.symm notMany.1]
    | cons segment path =>
      rw [accepts_cons, ih notOne.2 notMany.2]
      simp [Ne.symm notOne.1, Ne.symm notMany.1]

theorem accepts_concat_many {stem : List α} (bounded : w.many ∉ stem) : w.accepts (stem ++ [w.many]) path = true ↔
      ∃ front back, path = front ++ back ∧ w.Fills stem front := by
  unfold Fills
  induction stem generalizing path with
  | nil =>
    refine iff_of_true ?_ ⟨[], path, rfl, .nil⟩
    cases path <;> simp [accepts]
  | cons level stem ih =>
    rw [mem_cons, not_or] at bounded
    cases path with
    | nil => simp [accepts_cons_nil, Ne.symm bounded.1, forall₂_cons_left_iff]
    | cons segment path =>
      rw [cons_append, accepts_cons, ih bounded.2]
      constructor
      · rintro (rest | ⟨fill, front, back, rfl, fills⟩)
        · exact absurd rest.symm bounded.1
        · exact ⟨segment :: front, back, rfl, .cons fill fills⟩
      · rintro ⟨front, back, same, fills⟩
        cases fills with
        | @cons _ first _ front fill fills =>
          obtain ⟨rfl, rfl⟩ := cons.inj same
          exact .inr ⟨fill, front, back, rfl, fills⟩

theorem accepts_of_fills (fills : w.Fills filter path) (accepted : w.accepts grant filter = true) :
    w.accepts grant path = true := by
  induction fills generalizing grant with
  | nil => exact accepted
  | @cons level segment filter path fill _ ih =>
    cases grant with
    | nil => simp [accepts] at accepted
    | cons granted grant =>
      rw [accepts_cons] at accepted ⊢
      rcases accepted with rest | ⟨any | same, later⟩
      · exact .inl rest
      · exact .inr ⟨.inl any, ih later⟩
      · subst same
        exact .inr ⟨fill, ih later⟩

omit [DecidableEq α] in
theorem Fills.mem (fills : w.Fills filter path) (mem : level ∈ filter) (literal : level ≠ w.one) : level ∈ path := by
  induction fills with
  | nil => cases mem
  | cons fill _ ih =>
    rcases mem_cons.mp mem with rfl | later
    · rcases fill with any | rfl
      · exact absurd any literal
      · exact mem_cons_self
    · exact mem_cons_of_mem _ (ih later)

omit [DecidableEq α] in
theorem fills_replicate (path : List α) : w.Fills (replicate path.length w.one) path := by
  induction path with
  | nil => exact .nil
  | cons segment path ih => exact .cons (.inl rfl) ih

/-- A filter with one segment in place of each `one`. -/
def fillWith (w : Wildcards α) (segment : α) (filter : List α) : List α :=
  filter.map fun level => if level = w.one then segment else level

theorem fills_fillWith (segment : α) (filter : List α) : w.Fills filter (w.fillWith segment filter) := by
  unfold Fills fillWith
  rw [forall₂_map_right_iff, forall₂_same]
  intro level _
  by_cases any : level = w.one
  · exact .inl any
  · exact .inr (by rw [if_neg any])

theorem accepts_of_fillWith {segment : α} {grant : List α} (fresh : segment ∉ grant)
    (accepted : w.accepts grant (w.fillWith segment filter) = true) : w.accepts grant filter = true := by
  unfold fillWith at accepted
  induction filter generalizing grant with
  | nil => exact accepted
  | cons level filter ih =>
    cases grant with
    | nil => simp [accepts] at accepted
    | cons granted grant =>
      rw [mem_cons, not_or] at fresh
      rw [map_cons, accepts_cons] at accepted
      rw [accepts_cons]
      rcases accepted with rest | ⟨any | same, later⟩
      · exact .inl rest
      · exact .inr ⟨.inl any, ih fresh.2 later⟩
      · split at same
        · exact absurd same.symm fresh.1
        · exact .inr ⟨.inr same, ih fresh.2 later⟩

end Wildcards

end Aafp.Foundation
