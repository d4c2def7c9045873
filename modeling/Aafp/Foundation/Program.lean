import Aafp.Foundation.Result

/-! Programs that ask their surroundings. -/
namespace Aafp.Foundation

structure Interface where
  Call : Type
  Answer : Call → Type

structure Event (I : Interface) where
  call : I.Call
  answer : I.Answer call

inductive Program (I : Interface) (ε α : Type) where
  | done (result : Except ε α)
  | ask (call : I.Call) (next : I.Answer call → Program I ε α)

namespace Program

variable {I : Interface} {ε δ α β : Type}

def bind (program : Program I ε α) (next : α → Program I ε β) : Program I ε β :=
  match program with
  | .done (.ok value) => next value
  | .done (.error error) => .done (.error error)
  | .ask call rest => .ask call fun answer => (rest answer).bind next

instance : Monad (Program I ε) where
  pure value := .done (.ok value)
  bind := bind

def query (request : I.Call) (read : I.Answer request → Except ε α) : Program I ε α :=
  .ask request fun answer => .done (read answer)

def fail (error : ε) : Program I ε α := .done (.error error)

/-- Go on only if the condition holds. -/
def require (condition : Prop) [Decidable condition] (error : ε) : Program I ε Unit :=
  if condition then .done (.ok ()) else .done (.error error)

def mapError (wrap : ε → δ) : Program I ε α → Program I δ α
  | .done result => .done (result.mapError wrap)
  | .ask call next => .ask call fun answer => (next answer).mapError wrap

inductive Reaches : Program I ε α → List (Event I) → Program I ε α → Prop where
  | here : Reaches program [] program
  | step {request : I.Call} {next : I.Answer request → Program I ε α} (answer : I.Answer request)
      (rest : Reaches (next answer) events target) :
      Reaches (.ask request next) (⟨request, answer⟩ :: events) target

def Yields (program : Program I ε α) (events : List (Event I)) (result : Except ε α) : Prop :=
  program.Reaches events (.done result)

def replay [DecidableEq I.Call] : List (Event I) → Program I ε α → Option (Except ε α)
  | [], .done result => some result
  | event :: events, .ask request next =>
    if same : event.call = request then replay events (next (same ▸ event.answer)) else none
  | _, _ => none

variable {program : Program I ε α} {next : α → Program I ε β}

theorem yields_of_replay [DecidableEq I.Call] (run : replay events program = some result) :
    program.Yields events result := by
  induction events, program using replay.induct with
  | case1 => exact Option.some.inj run ▸ .here
  | case2 event events next ih =>
    rw [replay, dif_pos rfl] at run
    exact .step event.answer (ih run)
  | case3 event events request next differs =>
    rw [replay, dif_neg differs] at run
    cases run
  | case4 => simp_all [replay]

theorem Reaches.of_nil (run : program.Reaches [] target) : target = program := by
  cases run
  rfl

theorem Reaches.cut (front : List (Event I)) (run : program.Reaches (front ++ back) target) :
    ∃ middle, program.Reaches front middle ∧ middle.Reaches back target := by
  induction front generalizing program with
  | nil => exact ⟨program, .here, run⟩
  | cons event front ih =>
    cases run with
    | step answer rest =>
      obtain ⟨middle, first, second⟩ := ih rest
      exact ⟨middle, .step answer first, second⟩

theorem yields_done : (done result : Program I ε α).Yields events outcome ↔ events = [] ∧ outcome = result := by
  constructor
  · intro run
    cases run
    exact ⟨rfl, rfl⟩
  · rintro ⟨rfl, rfl⟩
    exact .here

theorem yields_ask {next : I.Answer request → Program I ε α} : (ask request next).Yields events result ↔
      ∃ answer rest, events = ⟨request, answer⟩ :: rest ∧ (next answer).Yields rest result := by
  constructor
  · intro run
    cases run with
    | step answer rest => exact ⟨answer, _, rfl, rest⟩
  · rintro ⟨answer, rest, rfl, run⟩
    exact .step answer run

theorem yields_bind : (program >>= next).Yields events (.ok result) ↔
      ∃ value front back, events = front ++ back ∧ program.Yields front (.ok value) ∧
        (next value).Yields back (.ok result) := by
  change (program.bind next).Yields events (.ok result) ↔ _
  induction program generalizing events with
  | done outcome =>
    cases outcome with
    | error error => simp [bind, yields_done]
    | ok value =>
      simp only [bind, yields_done, Except.ok.injEq]
      constructor
      · intro run
        exact ⟨value, [], events, rfl, ⟨rfl, rfl⟩, run⟩
      · rintro ⟨_, _, _, rfl, ⟨rfl, rfl⟩, run⟩
        exact run
  | ask request rest ih =>
    simp only [bind, yields_ask, ih]
    constructor
    · rintro ⟨answer, _, rfl, value, front, back, rfl, first, second⟩
      exact ⟨value, ⟨request, answer⟩ :: front, back, rfl, ⟨answer, front, rfl, first⟩, second⟩
    · rintro ⟨value, _, back, rfl, ⟨answer, front, rfl, first⟩, second⟩
      exact ⟨answer, front ++ back, rfl, value, front, back, rfl, first, second⟩

@[simp] theorem yields_pure :
    (pure value : Program I ε α).Yields events (.ok result) ↔ events = [] ∧ result = value := by
  simp [pure, yields_done]

@[simp] theorem yields_done_bind : (done outcome >>= next).Yields events (.ok result) ↔
      ∃ value, outcome = .ok value ∧ (next value).Yields events (.ok result) := by
  simp only [yields_bind, yields_done]
  constructor
  · rintro ⟨value, _, _, rfl, ⟨rfl, same⟩, run⟩
    exact ⟨value, same.symm, run⟩
  · rintro ⟨value, rfl, run⟩
    exact ⟨value, [], events, rfl, ⟨rfl, rfl⟩, run⟩

theorem yields_query {read : I.Answer request → Except ε α} : (query request read).Yields events (.ok value) ↔
      ∃ answer, read answer = .ok value ∧ events = [⟨request, answer⟩] := by
  simp only [query, yields_ask, yields_done]
  constructor
  · rintro ⟨answer, _, rfl, rfl, same⟩
    exact ⟨answer, same.symm, rfl⟩
  · rintro ⟨answer, same, rfl⟩
    exact ⟨answer, [], rfl, rfl, same.symm⟩

theorem yields_query_bind {read : I.Answer request → Except ε α} :
    (query request read >>= next).Yields events (.ok result) ↔
      ∃ answer value rest, read answer = .ok value ∧ events = ⟨request, answer⟩ :: rest ∧
        (next value).Yields rest (.ok result) := by
  simp only [yields_bind, yields_query]
  constructor
  · rintro ⟨value, _, back, rfl, ⟨answer, same, rfl⟩, run⟩
    exact ⟨answer, value, back, same, rfl, run⟩
  · rintro ⟨answer, value, rest, same, rfl, run⟩
    exact ⟨value, _, rest, rfl, ⟨answer, same, rfl⟩, run⟩

@[simp] theorem yields_require [Decidable condition] :
    (require condition error : Program I ε Unit).Yields events (.ok result) ↔ events = [] ∧ condition := by
  unfold require
  split <;> simp_all [yields_done]

@[simp] theorem yields_require_bind [Decidable condition] {error : ε} {next : Unit → Program I ε β} :
    (require condition error >>= next).Yields events (.ok result) ↔
      condition ∧ (next ()).Yields events (.ok result) := by
  unfold require
  split
  next holds => exact ⟨fun run => ⟨holds, run⟩, fun run => run.2⟩
  next fails => simp [fails]

@[simp] theorem yields_mapError {wrap : ε → δ} :
    (program.mapError wrap).Yields events (.ok value) ↔ program.Yields events (.ok value) := by
  induction program generalizing events with
  | done result =>
    simp only [mapError, yields_done, eq_comm (a := Except.ok value), mapError_eq_ok]
  | ask request next ih => simp [mapError, yields_ask, ih]

end Program

end Aafp.Foundation
