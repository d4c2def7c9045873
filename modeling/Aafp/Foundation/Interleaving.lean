import Aafp.Foundation.Program

/-! Programs side by side. -/
namespace Aafp.Foundation

open Function

namespace Program

variable {I : Interface} {ε δ α β Q : Type}

def OnlyAsks (allowed : I.Call → Prop) : Program I ε α → Prop
  | .done _ => True
  | .ask call next => allowed call ∧ ∀ answer, (next answer).OnlyAsks allowed

namespace OnlyAsks

variable {allowed : I.Call → Prop}

theorem bind {next : α → Program I ε β} (first : program.OnlyAsks allowed)
    (rest : ∀ value, (next value).OnlyAsks allowed) : (program >>= next).OnlyAsks allowed := by
  induction program with
  | done outcome =>
    cases outcome with
    | error error => trivial
    | ok value => exact rest value
  | ask call further ih => exact ⟨first.1, fun answer => ih answer (first.2 answer)⟩

theorem query {read : I.Answer request → Except ε α} (permitted : allowed request) :
    (query request read).OnlyAsks allowed :=
  ⟨permitted, fun _ => trivial⟩

theorem require [Decidable condition] : (require condition error : Program I ε Unit).OnlyAsks allowed := by
  unfold Program.require
  split <;> trivial

theorem mapError {program : Program I ε α} (asks : program.OnlyAsks allowed) :
    (program.mapError wrap).OnlyAsks allowed := by
  induction program with
  | done outcome => trivial
  | ask call next ih => exact ⟨asks.1, fun answer => ih answer (asks.2 answer)⟩

end OnlyAsks

/-- The program makes only calls that the protocol has in the phase reached, and returns a value in
a phase it fits. -/
def Obeys (advance : Q → Event I → Option Q) (post : α → Q → Prop) : Program I ε α → Q → Prop
  | .done (.ok value), phase => post value phase
  | .done (.error _), _ => True
  | .ask call next, phase =>
    ∀ answer, ∃ after, advance phase ⟨call, answer⟩ = some after ∧ (next answer).Obeys advance post after

namespace Obeys

variable {advance : Q → Event I → Option Q}

theorem bind {next : α → Program I ε β}
    (first : program.Obeys advance (fun value after => (next value).Obeys advance post after) phase) :
    (program >>= next).Obeys advance post phase := by
  induction program generalizing phase with
  | done outcome =>
    cases outcome with
    | error error => trivial
    | ok value => exact first
  | ask call further ih =>
    intro answer
    obtain ⟨after, advanced, rest⟩ := first answer
    exact ⟨after, advanced, ih answer rest⟩

theorem of_onlyAsks {program : Program I ε α} (asks : program.OnlyAsks allowed)
    (still : ∀ call answer, allowed call → advance phase ⟨call, answer⟩ = some phase)
    (returned : ∀ value, post value phase) : program.Obeys advance post phase := by
  induction program with
  | done outcome =>
    cases outcome with
    | error error => trivial
    | ok value => exact returned value
  | ask call next ih =>
    exact fun answer => ⟨phase, still call answer asks.1, ih answer (asks.2 answer)⟩

end Obeys

end Program

/-- One step of one of the programs. The reading is what the shared state takes
from elsewhere when it answers. -/
structure Moment (ι ρ : Type) (I : Interface) where
  run : ι
  reading : ρ
  event : Event I

structure Running (ι : Type) (I : Interface) (ε α σ : Type) where
  programs : ι → Program I ε α
  shared : σ

section Interleaving

variable {ι ρ σ ε α : Type} {I : Interface} [DecidableEq ι]

/-- One program makes its call. The shared state either gives this answer and
moves on, or does not give it. -/
structure Running.Step (serve : ρ → Event I → σ → Option σ) (before : Running ι I ε α σ)
    (moment : Moment ι ρ I) (after : Running ι I ε α σ) : Prop where
  served : serve moment.reading moment.event before.shared = some after.shared
  asked : ∃ next, before.programs moment.run = .ask moment.event.call next ∧
    after.programs = update before.programs moment.run (next moment.event.answer)

theorem Running.Step.other {before after : Running ι I ε α σ} (taken : before.Step serve moment after)
    (apart : run ≠ moment.run) : after.programs run = before.programs run := by
  obtain ⟨next, -, moved⟩ := taken.asked
  rw [moved, update_of_ne apart]

theorem Running.Step.own {before after : Running ι I ε α σ} (taken : before.Step serve moment after) :
    ∃ next, before.programs moment.run = .ask moment.event.call next ∧
      after.programs moment.run = next moment.event.answer := by
  obtain ⟨next, asks, moved⟩ := taken.asked
  exact ⟨next, asks, by rw [moved, update_self]⟩

/-- The programs take steps in any order, each of them an allowed one. -/
inductive Interleaves (serve : ρ → Event I → σ → Option σ)
    (allowed : Running ι I ε α σ → Moment ι ρ I → Prop) :
    Running ι I ε α σ → List (Moment ι ρ I) → Running ι I ε α σ → Prop where
  | idle : Interleaves serve allowed before [] before
  | step (permitted : allowed before moment) (taken : before.Step serve moment middle)
      (rest : Interleaves serve allowed middle log after) :
      Interleaves serve allowed before (moment :: log) after

namespace Interleaves

variable {serve : ρ → Event I → σ → Option σ} {allowed : Running ι I ε α σ → Moment ι ρ I → Prop}

theorem trans (first : Interleaves serve allowed before log middle)
    (second : Interleaves serve allowed middle others after) :
    Interleaves serve allowed before (log ++ others) after := by
  induction first with
  | idle => exact second
  | step permitted taken rest ih => exact .step permitted taken (ih second)

theorem turn (run : ι) (asks : before.programs run = .ask call next)
    (served : serve reading ⟨call, answer⟩ before.shared = some shared)
    (permitted : allowed before ⟨run, reading, ⟨call, answer⟩⟩)
    (rest : Interleaves serve allowed ⟨update before.programs run (next answer), shared⟩ log after) :
    Interleaves serve allowed before (⟨run, reading, ⟨call, answer⟩⟩ :: log) after :=
  .step permitted ⟨served, next, asks, rfl⟩ rest

theorem cut (run : Interleaves serve allowed before (past ++ moment :: future) after) :
    ∃ here there, Interleaves serve allowed before past here ∧ allowed here moment ∧
      here.Step serve moment there ∧ Interleaves serve allowed there future after := by
  induction past generalizing before with
  | nil =>
    cases run with
    | step permitted taken rest => exact ⟨before, _, .idle, permitted, taken, rest⟩
  | cons first past ih =>
    cases run with
    | step permitted taken rest =>
      obtain ⟨here, there, sofar, allows, step, later⟩ := ih rest
      exact ⟨here, there, .step permitted taken sofar, allows, step, later⟩

theorem invariant (Holds : Running ι I ε α σ → Prop) (run : Interleaves serve allowed start log final)
    (initially : Holds start) (preserved : ∀ before moment after, moment ∈ log → allowed before moment →
      before.Step serve moment after → Holds before → Holds after) : Holds final := by
  induction run with
  | idle => exact initially
  | step permitted taken rest ih =>
    refine ih (preserved _ _ _ List.mem_cons_self permitted taken initially) ?_
    exact fun before other after mem => preserved before other after (List.mem_cons_of_mem _ mem)

theorem once (reaches : program.Reaches [event] target) (served : serve reading event shared = some after)
    (permitted : allowed ⟨update programs run program, shared⟩ ⟨run, reading, event⟩) :
    Interleaves serve allowed ⟨update programs run program, shared⟩ [⟨run, reading, event⟩]
      ⟨update programs run target, after⟩ := by
  cases reaches with
  | step answer rest =>
    cases rest.of_nil
    exact .step permitted ⟨served, _, update_self .., (update_idem ..).symm⟩ .idle

theorem stretch (reading : ρ) (reaches : program.Reaches events target)
    (unnoticed : ∀ event ∈ events, serve reading event shared = some shared)
    (permitted : ∀ here, ∀ event ∈ events, allowed here ⟨run, reading, event⟩) :
    Interleaves serve allowed ⟨update programs run program, shared⟩
      (events.map (Moment.mk run reading)) ⟨update programs run target, shared⟩ := by
  induction reaches with
  | here => exact .idle
  | step answer rest ih =>
    rw [List.forall_mem_cons] at unnoticed
    refine .step (permitted _ _ List.mem_cons_self)
      ⟨unnoticed.1, _, update_self .., (update_idem ..).symm⟩ (ih unnoticed.2 ?_)
    exact fun here event mem => permitted here event (List.mem_cons_of_mem _ mem)

end Interleaves

end Interleaving

end Aafp.Foundation
