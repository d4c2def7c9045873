import Mathlib.Data.List.Forall2

/-! Peeling apart computations that may fail. -/
namespace Aafp.Foundation

open List

variable {first : Except ε α} {step : α → Except ε β}

theorem bind_eq_ok {next : α → Except ε β} :
    (first >>= next) = .ok result ↔ ∃ value, first = .ok value ∧ next value = .ok result := by
  cases first <;> simp [bind, Except.bind]

theorem unit_bind_eq_ok {first : Except ε Unit} {next : Unit → Except ε β} :
    (first >>= next) = .ok result ↔ first = .ok () ∧ next () = .ok result := by
  cases first <;> simp [bind, Except.bind]

@[simp] theorem ok_bind (value : α) (next : α → Except ε β) :
    ((.ok value : Except ε α) >>= next) = next value := rfl

theorem mapError_eq_ok : first.mapError wrap = .ok result ↔ first = .ok result := by
  cases first with
  | error error => exact ⟨nofun, nofun⟩
  | ok value =>
    constructor
    · rintro ⟨⟩
      rfl
    · rintro ⟨⟩
      rfl

theorem mapM_ok (each : ∀ item, step item = .ok (result item))
    (items : List α) : items.mapM step = .ok (items.map result) := by
  induction items with
  | nil => rfl
  | cons item items ih =>
    rw [mapM_cons, each, ih]
    rfl

theorem mapM_eq_ok {value : α → β} {Holds : α → Prop} {items : List α}
    (sound : ∀ item ∈ items, ∀ result, step item = .ok result → Holds item ∧ result = value item)
    (done : items.mapM step = .ok results) : (∀ item ∈ items, Holds item) ∧ results = items.map value := by
  induction items generalizing results with
  | nil =>
    cases done
    exact ⟨nofun, rfl⟩
  | cons item items ih =>
    rw [forall_mem_cons] at sound
    rw [mapM_cons, bind_eq_ok] at done
    obtain ⟨result, first, rest⟩ := done
    obtain ⟨later, others, last⟩ := bind_eq_ok.mp rest
    obtain ⟨holds, rfl⟩ := sound.1 result first
    obtain ⟨each, rfl⟩ := ih sound.2 others
    cases last
    exact ⟨forall_mem_cons.mpr ⟨holds, each⟩, rfl⟩

theorem exists_forall₂_iff :
    (∃ others, List.Forall₂ Relates items others) ↔ ∀ item ∈ items, ∃ other, Relates item other := by
  induction items with
  | nil => simp
  | cons item items ih =>
    rw [forall_mem_cons, ← ih]
    constructor
    · intro ⟨others, related⟩
      cases related with
      | cons here rest => exact ⟨⟨_, here⟩, _, rest⟩
    · intro ⟨⟨other, here⟩, others, rest⟩
      exact ⟨other :: others, .cons here rest⟩

theorem forall₂_ok_or_first_error (step : α → Except ε β) (items : List α) :
    (∃ results, List.Forall₂ (fun item result => step item = .ok result) items results) ∨
      ∃ before bad after results error, items = before ++ bad :: after ∧
        List.Forall₂ (fun item result => step item = .ok result) before results ∧ step bad = .error error := by
  induction items with
  | nil => exact .inl ⟨[], .nil⟩
  | cons item items ih =>
    cases here : step item with
    | error error => exact .inr ⟨[], item, items, [], error, rfl, .nil, here⟩
    | ok result =>
      rcases ih with ⟨results, all⟩ | ⟨before, bad, after, results, error, same, passed, failed⟩
      · exact .inl ⟨result :: results, .cons here all⟩
      · refine .inr ⟨item :: before, bad, after, result :: results, error, ?_, .cons here passed, failed⟩
        rw [same, cons_append]

theorem ite_error_eq_ok [Decidable condition] {error : ε} {next : Except ε α} :
    (if condition then .error error else next) = .ok result ↔ ¬condition ∧ next = .ok result := by
  by_cases failed : condition
  · simp [failed]
  · simp [failed]

/-- Go on only if the condition holds. -/
def ensure (condition : Prop) [Decidable condition] (error : ε) : Except ε Unit :=
  if condition then .ok () else .error error

@[simp] theorem ensure_eq_ok [Decidable condition] : ensure condition error = .ok () ↔ condition := by
  unfold ensure
  split <;> simp_all

end Aafp.Foundation
