import Mathlib.Data.List.Infix

/-! Machines that answer one input at a time, and rules for what holds in all of
their runs. -/
namespace Aafp.Foundation

open List

structure Machine (Input Output State : Type) where
  step : State → Input → Output × State

namespace Machine

def after (machine : Machine Input Output State) : State → List Input → State
  | state, [] => state
  | state, input :: inputs => machine.after (machine.step state input).2 inputs

def log (machine : Machine Input Output State) : State → List Input → List (Input × Output)
  | _, [] => []
  | state, input :: inputs =>
    (input, (machine.step state input).1) :: machine.log (machine.step state input).2 inputs

def met (machine : Machine Input Output State) : State → List Input → List (State × Input)
  | _, [] => []
  | state, input :: inputs => (state, input) :: machine.met (machine.step state input).2 inputs

variable (machine : Machine Input Output State) (start : State)

theorem after_append (inputs later : List Input) :
    machine.after start (inputs ++ later) = machine.after (machine.after start inputs) later := by
  induction inputs generalizing start with
  | nil => rfl
  | cons input inputs ih => exact ih _

theorem log_append (inputs later : List Input) : machine.log start (inputs ++ later) =
      machine.log start inputs ++ machine.log (machine.after start inputs) later := by
  induction inputs generalizing start with
  | nil => rfl
  | cons input inputs ih => exact congrArg (cons _) (ih _)

theorem met_append (inputs later : List Input) : machine.met start (inputs ++ later) =
      machine.met start inputs ++ machine.met (machine.after start inputs) later := by
  induction inputs generalizing start with
  | nil => rfl
  | cons input inputs ih => exact congrArg (cons _) (ih _)

theorem after_concat (inputs : List Input) (input : Input) : machine.after start (inputs ++ [input]) =
      (machine.step (machine.after start inputs) input).2 := by
  rw [after_append]
  rfl

theorem log_concat (inputs : List Input) (input : Input) : machine.log start (inputs ++ [input]) =
      machine.log start inputs ++ [(input, (machine.step (machine.after start inputs) input).1)] := by
  rw [log_append]
  rfl

theorem met_concat (inputs : List Input) (input : Input) : machine.met start (inputs ++ [input]) =
      machine.met start inputs ++ [(machine.after start inputs, input)] := by
  rw [met_append]
  rfl

variable {machine start} {Holds Good : List (Input × Output) → State → Prop}
  {Condition : List (Input × Output) → State → Input → Prop} {inputs : List Input}

theorem mem_log (mem : (input, output) ∈ machine.log start inputs) :
    ∃ state, output = (machine.step state input).1 := by
  induction inputs generalizing start with
  | nil => cases mem
  | cons first inputs ih =>
    rcases mem_cons.mp mem with same | later
    · cases same
      exact ⟨start, rfl⟩
    · exact ih later

/-- What holds at the start, and is kept by every step, holds after every run.
It may speak of what was done so far. -/
theorem invariant (initially : Holds [] start) (kept : ∀ past state input, Holds past state →
      Holds (past ++ [(input, (machine.step state input).1)]) (machine.step state input).2)
    (inputs : List Input) : Holds (machine.log start inputs) (machine.after start inputs) := by
  induction inputs using reverseRecOn with
  | nil => exact initially
  | append_singleton inputs input ih =>
    rw [log_concat, after_concat]
    exact kept _ _ _ ih

theorem run_of_simulates {other : Machine Input Output Image} {image : State → Image}
    (same : ∀ state input, other.step (image state) input =
      ((machine.step state input).1, image (machine.step state input).2)) (inputs : List Input) :
    other.after (image start) inputs = image (machine.after start inputs) ∧
      other.log (image start) inputs = machine.log start inputs := by
  induction inputs generalizing start with
  | nil => exact ⟨rfl, rfl⟩
  | cons input inputs ih =>
    rw [after, log, same]
    exact ⟨(@ih _).1, congrArg (cons _) (@ih _).2⟩

/-- What all steps of a run have in common may be read off the states that they met, or
off their answers. -/
theorem forall_met_iff (InState : State → Input → Prop) (Seen : Input → Output → Prop)
    (same : ∀ state input, InState state input ↔ Seen input (machine.step state input).1) (inputs : List Input) :
    (∀ entry ∈ machine.met start inputs, InState entry.1 entry.2) ↔
      ∀ entry ∈ machine.log start inputs, Seen entry.1 entry.2 := by
  induction inputs generalizing start with
  | nil => simp [met, log]
  | cons input inputs ih =>
    simp only [met, log, forall_mem_cons]
    exact and_congr (same _ _) ih

theorem length_filter_log_cons (seen : Input × Output → Bool) (inputs : List Input) :
    ((machine.log start (input :: inputs)).filter seen).length =
      (if seen (input, (machine.step start input).1) then 1 else 0) +
        ((machine.log (machine.step start input).2 inputs).filter seen).length := by
  rw [log, filter_cons]
  split
  · rw [length_cons, Nat.add_comm]
  · rw [Nat.zero_add]

variable (machine start)

def Throughout (Good : List (Input × Output) → State → Prop) (inputs : List Input) : Prop :=
  ∀ past, past <+: inputs → Good (machine.log start past) (machine.after start past)

/-- Every step of a run meets a condition on the past, the state and the input. -/
def Meets (Condition : List (Input × Output) → State → Input → Prop) (inputs : List Input) : Prop :=
  ∀ past input, past ++ [input] <+: inputs →
    Condition (machine.log start past) (machine.after start past) input

variable {machine start}

theorem throughout_nil : machine.Throughout start Good [] ↔ Good [] start := by
  simp [Throughout, after, log]

theorem meets_nil : machine.Meets start Condition [] := by
  simp [Meets]

theorem throughout_concat :
    machine.Throughout start Good (inputs ++ [input]) ↔ machine.Throughout start Good inputs ∧
      Good (machine.log start (inputs ++ [input])) (machine.after start (inputs ++ [input])) := by
  simp only [Throughout, prefix_concat_iff]
  constructor
  · intro each
    exact ⟨fun past initial => each past (.inr initial), each _ (.inl rfl)⟩
  · intro ⟨each, last⟩ past initial
    rcases initial with rfl | initial
    · exact last
    · exact each past initial

theorem meets_concat : machine.Meets start Condition (inputs ++ [input]) ↔ machine.Meets start Condition inputs ∧
      Condition (machine.log start inputs) (machine.after start inputs) input := by
  simp only [Meets, prefix_concat_iff]
  constructor
  · intro each
    exact ⟨fun past next initial => each past next (.inr initial), each _ _ (.inl rfl)⟩
  · intro ⟨each, last⟩ past next initial
    rcases initial with same | initial
    · obtain ⟨rfl, sameLast⟩ := append_inj' same rfl
      rw [singleton_inj.mp sameLast]
      exact last
    · exact each past next initial

theorem map_fst_log (inputs : List Input) : (machine.log start inputs).map Prod.fst = inputs := by
  induction inputs generalizing start with
  | nil => rfl
  | cons input inputs ih => exact congrArg (cons input) ih

/-- What holds at the start, and is kept by every allowed step into a state of which something is
assumed, holds after every such run. -/
theorem invariant_throughout {Assumed : List (Input × Output) → State → Prop} {Allowed : Input → Prop}
    (initially : Holds [] start) (kept : ∀ past state input, Allowed input → Holds past state →
      Assumed (past ++ [(input, (machine.step state input).1)]) (machine.step state input).2 →
      Holds (past ++ [(input, (machine.step state input).1)]) (machine.step state input).2)
    (inputs : List Input) (allowed : ∀ input ∈ inputs, Allowed input)
    (assumed : machine.Throughout start Assumed inputs) :
    Holds (machine.log start inputs) (machine.after start inputs) := by
  induction inputs using reverseRecOn with
  | nil => exact initially
  | append_singleton inputs input ih =>
    obtain ⟨before, now⟩ := throughout_concat.mp assumed
    have held := ih (fun other mem => allowed other (mem_append_left _ mem)) before
    rw [log_concat, after_concat] at now ⊢
    exact kept _ _ _ (allowed input (by simp)) held now

/-- If times never go back, what a step and the passing of time keep holds at every time after a
run. -/
theorem invariant_clocked {Time : Type} [LE Time] {now? : Input → Option Time}
    {Held : Time → List (Input × Output) → State → Prop} (initially : ∀ time, Held time [] start)
    (later : ∀ {time after past state}, time ≤ after → Held time past state → Held after past state)
    (kept : ∀ time past state input, (∀ now, now? input = some now → now = time) → Held time past state →
      Held time (past ++ [(input, (machine.step state input).1)]) (machine.step state input).2)
    (inputs : List Input) (ordered : (inputs.filterMap now?).Pairwise (· ≤ ·)) (time : Time)
    (passed : ∀ now ∈ inputs.filterMap now?, now ≤ time) :
    Held time (machine.log start inputs) (machine.after start inputs) := by
  induction inputs using reverseRecOn generalizing time with
  | nil => exact initially time
  | append_singleton inputs input ih =>
    rw [filterMap_append, pairwise_append] at ordered
    rw [filterMap_append, forall_mem_append] at passed
    rw [log_concat, after_concat]
    cases reading : now? input with
    | none =>
      refine kept time _ _ _ ?_ (ih ordered.1 time passed.1)
      simp [reading]
    | some now =>
      have own : now ∈ [input].filterMap now? := by simp [reading]
      refine later (passed.2 now own) (kept now _ _ _ ?_ (ih ordered.1 now fun earlier mem => ?_))
      · simp [reading]
      · exact ordered.2.2 earlier mem now own

/-- A reflexive and transitive relation holds between any two states of a run exactly if it holds
across every step. -/
theorem related_iff_steps {Related : State → State → Prop} (refl : ∀ state, Related state state)
    (trans : ∀ {first second third}, Related first second → Related second third → Related first third) :
    (∀ past more, past ++ more <+: inputs → Related (machine.after start past) (machine.after start (past ++ more))) ↔
      machine.Meets start (fun _ state input => Related state (machine.step state input).2) inputs := by
  constructor
  · intro related past input initial
    have step := related past [input] initial
    rwa [after_concat] at step
  · intro steps past more
    induction more using reverseRecOn with
    | nil =>
      intro _
      rw [append_nil]
      exact refl _
    | append_singleton more input ih =>
      intro initial
      rw [← append_assoc] at initial ⊢
      have before := ih ((prefix_append _ _).trans initial)
      have step := steps _ _ initial
      rw [after_concat]
      exact trans before step

/-- If a condition on a step decides whether it keeps a property, in runs that so far have kept it
and what such steps carry along, then the property holds throughout exactly the runs whose steps all
meet it. -/
theorem throughout_iff_meets_carrying {Assumed : List (Input × Output) → Prop}
    (closed : ∀ past entry, Assumed (past ++ [entry]) → Assumed past)
    (initially : Holds [] start) (good : Good [] start)
    (carried : ∀ past state input, Assumed (past ++ [(input, (machine.step state input).1)]) →
      Holds past state → Condition past state input →
      Holds (past ++ [(input, (machine.step state input).1)]) (machine.step state input).2)
    (decides : ∀ past state input, Assumed (past ++ [(input, (machine.step state input).1)]) →
      Holds past state → Good past state →
      (Good (past ++ [(input, (machine.step state input).1)]) (machine.step state input).2 ↔
        Condition past state input)) (inputs : List Input) (assumed : Assumed (machine.log start inputs)) :
    machine.Throughout start Good inputs ↔ machine.Meets start Condition inputs := by
  suffices both : (machine.Throughout start Good inputs ↔ machine.Meets start Condition inputs) ∧
      (machine.Meets start Condition inputs → Holds (machine.log start inputs) (machine.after start inputs)) from both.1
  induction inputs using reverseRecOn with
  | nil => exact ⟨iff_of_true (throughout_nil.mpr good) meets_nil, fun _ => initially⟩
  | append_singleton inputs input ih =>
    rw [log_concat] at assumed
    obtain ⟨same, held⟩ := ih (closed _ _ assumed)
    rw [throughout_concat, meets_concat, ← same, log_concat, after_concat]
    constructor
    · refine and_congr_right fun before => ?_
      exact decides _ _ _ assumed (held (same.mp before)) (before inputs (prefix_refl inputs))
    · intro ⟨before, met⟩
      exact carried _ _ _ assumed (held (same.mp before)) met

/-- If a condition on a step decides whether it keeps a property, then the
property holds throughout exactly the runs whose steps all meet the condition. -/
theorem throughout_iff_meets (initially : Holds [] start) (good : Good [] start)
    (kept : ∀ past state input, Holds past state →
      Holds (past ++ [(input, (machine.step state input).1)]) (machine.step state input).2)
    (decides : ∀ past state input, Holds past state → Good past state →
      (Good (past ++ [(input, (machine.step state input).1)]) (machine.step state input).2 ↔
        Condition past state input)) (inputs : List Input) :
    machine.Throughout start Good inputs ↔ machine.Meets start Condition inputs := by
  apply @throughout_iff_meets_carrying _ _ _ machine start Holds Good Condition fun _ => True
  · exact fun _ _ _ => trivial
  · exact initially
  · exact good
  · exact fun past state input _ held _ => kept past state input held
  · exact fun past state input _ => decides past state input
  · trivial

end Machine

end Aafp.Foundation
