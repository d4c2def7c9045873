import Aafp.Foundation.HashMap
import Aafp.Foundation.Machine

/-! Machines that keep a cell for every key, and act on one of them at a time. -/
namespace Aafp.Foundation

open List AList

variable {κ Input Output Cell : Type}

def cellMachine (act : Option Cell → Input → Output × Cell) : Machine Input Output (Option Cell) where
  step cell input := ((act cell input).1, some (act cell input).2)

variable [DecidableEq κ]

def tableMachine (act : Option Cell → Input → Output × Cell) :
    Machine (κ × Input) Output (AList fun _ : κ => Cell) where
  step table input :=
    ((act (table.lookup input.1) input.2).1, table.insert input.1 (act (table.lookup input.1) input.2).2)

def ownOf (key : κ) (inputs : List (κ × Input)) : List Input :=
  inputs.filterMap fun input => if input.1 = key then some input.2 else none

theorem ownOf_cons (key : κ) (input : κ × Input) (inputs : List (κ × Input)) :
    ownOf key (input :: inputs) = (if input.1 = key then [input.2] else []) ++ ownOf key inputs := by
  by_cases same : input.1 = key <;> simp [ownOf, same]

variable (act : Option Cell → Input → Output × Cell)
variable (table : AList fun _ : κ => Cell) (inputs : List (κ × Input)) (key : κ)

theorem lookup_after_tableMachine : ((tableMachine act).after table inputs).lookup key =
      (cellMachine act).after (table.lookup key) (ownOf key inputs) := by
  induction inputs generalizing table with
  | nil => rfl
  | cons input inputs ih =>
    rw [Machine.after, ih, ownOf_cons]
    by_cases same : input.1 = key
    · subst same
      rw [if_pos rfl]
      exact congrArg (fun cell => (cellMachine act).after cell _) (lookup_insert ..)
    · rw [if_neg same]
      exact congrArg (fun cell => (cellMachine act).after cell _) (lookup_insert_ne (Ne.symm same))

theorem log_tableMachine :
    ownOf key (((tableMachine act).log table inputs).map fun entry => (entry.1.1, (entry.1.2, entry.2))) =
      (cellMachine act).log (table.lookup key) (ownOf key inputs) := by
  induction inputs generalizing table with
  | nil => rfl
  | cons input inputs ih =>
    rw [Machine.log, map_cons, ownOf_cons, ownOf_cons, ih]
    by_cases same : input.1 = key
    · subst same
      rw [if_pos rfl, if_pos rfl]
      exact congrArg (fun cell => _ :: (cellMachine act).log cell _) (lookup_insert ..)
    · rw [if_neg same, if_neg same, nil_append]
      exact congrArg (fun cell => (cellMachine act).log cell _) (lookup_insert_ne (Ne.symm same))

end Aafp.Foundation
