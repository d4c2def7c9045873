import Mathlib.Data.List.Infix

/-! The `LIKE` operator of SQL, as SQLite documents it. -/
namespace Aafp.Foundation

open List

def sameLetter (letter char : Char) : Bool := letter.toLower = char.toLower

def like : (pattern text : List Char) → Bool
  | [], text => text.isEmpty
  | letter :: pattern, text =>
    if letter = '%' then text.tails.any (like pattern)
    else match text with
      | [] => false
      | char :: text => (letter = '_' || sameLetter letter char) && like pattern text

theorem like_nil : like [] text = true ↔ text = [] := isEmpty_iff

private theorem like_letter (letter : Char) (pattern text : List Char) : like (letter :: pattern) text =
    if letter = '%' then text.tails.any (like pattern) else match text with
      | [] => false
      | char :: text => (letter = '_' || sameLetter letter char) && like pattern text := by
  cases text <;> rfl

theorem like_many : like ('%' :: pattern) text = true ↔
    ∃ skipped rest, text = skipped ++ rest ∧ like pattern rest = true := by
  rw [like_letter, if_pos rfl, any_eq_true]
  constructor
  · intro ⟨rest, suffix, matched⟩
    obtain ⟨skipped, same⟩ := (mem_tails _ _).mp suffix
    exact ⟨skipped, rest, same.symm, matched⟩
  · intro ⟨skipped, rest, same, matched⟩
    exact ⟨rest, (mem_tails _ _).mpr ⟨skipped, same.symm⟩, matched⟩

theorem like_cons (single : letter ≠ '%') : like (letter :: pattern) text = true ↔
    ∃ char rest, text = char :: rest ∧ (letter = '_' ∨ sameLetter letter char) ∧ like pattern rest = true := by
  rw [like_letter, if_neg single]
  cases text with
  | nil => simp
  | cons char text => simp

theorem like_self (text : List Char) : like text text = true := by
  induction text with
  | nil => rfl
  | cons char text ih =>
    by_cases many : char = '%'
    · subst many
      exact like_many.mpr ⟨['%'], text, rfl, ih⟩
    · exact (like_cons many).mpr ⟨char, text, rfl, .inr (by simp [sameLetter]), ih⟩

theorem like_append : like (first ++ second) text = true ↔
    ∃ front back, text = front ++ back ∧ like first front = true ∧ like second back = true := by
  induction first generalizing text with
  | nil => simp [like_nil]
  | cons letter first ih =>
    rw [cons_append]
    by_cases many : letter = '%'
    · subst many
      simp only [like_many, ih]
      constructor
      · rintro ⟨skipped, _, rfl, front, back, rfl, matched, after⟩
        exact ⟨skipped ++ front, back, by simp, ⟨skipped, front, rfl, matched⟩, after⟩
      · rintro ⟨_, back, rfl, ⟨skipped, front, rfl, matched⟩, after⟩
        exact ⟨skipped, front ++ back, by simp, front, back, rfl, matched, after⟩
    · simp only [like_cons many, ih]
      constructor
      · rintro ⟨char, _, rfl, same, front, back, rfl, matched, after⟩
        exact ⟨char :: front, back, rfl, ⟨char, front, rfl, same, matched⟩, after⟩
      · rintro ⟨_, back, rfl, ⟨char, front, rfl, same, matched⟩, after⟩
        exact ⟨char, front ++ back, rfl, same, front, back, rfl, matched, after⟩

theorem like_within : like ('%' :: pattern ++ ['%']) text = true ↔
    ∃ window, window <:+: text ∧ like pattern window = true := by
  have anything (back : List Char) : like ['%'] back = true :=
    like_many.mpr ⟨back, [], by simp, rfl⟩
  rw [cons_append, like_many]
  simp only [like_append, anything, and_true]
  constructor
  · rintro ⟨skipped, _, rfl, window, back, rfl, matched⟩
    exact ⟨window, ⟨skipped, back, by simp⟩, matched⟩
  · rintro ⟨window, ⟨skipped, back, rfl⟩, matched⟩
    exact ⟨skipped, window ++ back, by simp, window, back, rfl, matched⟩

end Aafp.Foundation
