import Mathlib.Data.List.Perm.Basic

/-! Removal from an array by filling the hole with the last item. -/
namespace Aafp.Foundation

variable {α : Type}

/-- Take out the item at a position and put the last one there. Nothing is returned outside of the
array. -/
def swapRemove (items : List α) (position : Nat) : Option (α × List α) :=
  match items[position]?, items.getLast? with
  | some item, some last => some (item, (items.set position last).dropLast)
  | _, _ => none

theorem swapRemove_last (before : List α) (item : α) :
    swapRemove (before ++ [item]) before.length = some (item, before) := by
  simp [swapRemove]

theorem swapRemove_inner (before between : List α) (item last : α) :
    swapRemove (before ++ item :: (between ++ [last])) before.length = some (item, before ++ last :: between) := by
  have here : (before ++ item :: (between ++ [last]))[before.length]? = some item := by simp
  have ends : (before ++ item :: (between ++ [last])).getLast? = some last := by
    rw [← List.cons_append, ← List.append_assoc, List.getLast?_concat]
  have filled : (before ++ item :: (between ++ [last])).set before.length last =
      before ++ last :: between ++ [last] := by
    simp
  rw [swapRemove, here, ends]
  simp only [filled, List.dropLast_concat]

variable {items : List α} {item : α} {position : Nat}

theorem split_at_position (found : items[position]? = some item) :
    (∃ before, items = before ++ [item] ∧ position = before.length) ∨
      ∃ before between last, items = before ++ item :: (between ++ [last]) ∧ position = before.length := by
  obtain ⟨inside, same⟩ := List.getElem?_eq_some_iff.mp found
  have length : position = (items.take position).length := by simp; omega
  have parts : items = items.take position ++ item :: items.drop (position + 1) := by
    rw [← same, List.getElem_cons_drop, List.take_append_drop]
  rcases List.eq_nil_or_concat (items.drop (position + 1)) with none | ⟨between, last, rest⟩
  · rw [none] at parts
    exact .inl ⟨items.take position, parts, length⟩
  · rw [rest, List.concat_eq_append] at parts
    exact .inr ⟨items.take position, between, last, parts, length⟩

theorem swapRemove_eq_some (taken : swapRemove items position = some (item, rest)) :
    items[position]? = some item ∧ items.Perm (item :: rest) := by
  have found : items[position]? = some item := by
    unfold swapRemove at taken
    split at taken
    next here _ =>
      cases taken
      exact here
    · cases taken
  refine ⟨found, ?_⟩
  rcases split_at_position found with ⟨before, rfl, rfl⟩ | ⟨before, between, last, rfl, rfl⟩
  · rw [swapRemove_last] at taken
    cases taken
    exact List.perm_append_singleton item rest
  · rw [swapRemove_inner] at taken
    cases taken
    refine List.perm_middle.trans (.cons item ?_)
    exact (List.perm_append_singleton last between).append_left before

theorem exists_swapRemove (found : items[position]? = some item) :
    ∃ rest, swapRemove items position = some (item, rest) := by
  rcases split_at_position found with ⟨before, rfl, rfl⟩ | ⟨before, between, last, rfl, rfl⟩
  · exact ⟨before, swapRemove_last before item⟩
  · exact ⟨_, swapRemove_inner before between item last⟩

end Aafp.Foundation
