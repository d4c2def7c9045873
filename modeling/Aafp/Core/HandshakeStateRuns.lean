import Aafp.Core.HandshakeState
import Aafp.Foundation.Machine

/-! Whole runs of the handshake machines. -/
namespace Aafp.Core

open Foundation

structure Transition (State : Type) where
  next : State
  now : Instant

abbrev TransitionLog (State : Type) := List (Transition State × Except HandshakeStateError Unit)

variable {State Seen : Type}

def entries (log : TransitionLog State) : List (Transition State) :=
  log.filterMap fun entry =>
    match entry.2 with
    | .ok _ => some entry.1
    | .error _ => none

@[simp] theorem entries_concat_ok (log : TransitionLog State) (call : Transition State) :
    entries (log ++ [(call, .ok ())]) = entries log ++ [call] := by
  simp [entries]

@[simp] theorem entries_concat_error (log : TransitionLog State) (call : Transition State)
    (error : HandshakeStateError) : entries (log ++ [(call, .error error)]) = entries log := by
  simp [entries]

def lastWait (waits : State → Bool) (entered : List (Transition State)) : Option (Transition State) :=
  (entered.filter fun entry => waits entry.next).getLast?

theorem lastWait_concat (waits : State → Bool) (entered : List (Transition State)) (call : Transition State) :
    lastWait waits (entered ++ [call]) =
      if waits call.next then some call else lastWait waits entered := by
  by_cases waiting : waits call.next = true
  · simp [lastWait, waiting]
  · simp [lastWait, waiting]

section Step

variable [ToString State] (rules : HandshakeRules State Seen)

def HandshakeRules.machine :
    Machine (Transition State) (Except HandshakeStateError Unit) (HandshakeMachine State Seen) where
  step machine call :=
    match machine.transitionTo rules call.next call.now with
    | .ok entered => (.ok (), entered)
    | .error error => (.error error, machine)

def HandshakeMachine.enter (machine : HandshakeMachine State Seen) (call : Transition State) :
    HandshakeMachine State Seen :=
  { machine with
    deadline := machine.deadlineOnEntry call.now (rules.deadlineChange call.next)
    seen := rules.seenOnEntry call.next machine.seen
    state := call.next }

theorem HandshakeRules.step_cases (current : HandshakeMachine State Seen) (call : Transition State) :
    (rules.canTransitionTo current.state call.next = false ∧
      ∃ error, rules.machine.step current call = (.error error, current)) ∨
    (rules.canTransitionTo current.state call.next = true ∧
      rules.machine.step current call = (.ok (), current.enter rules call)) := by
  by_cases edge : rules.canTransitionTo current.state call.next = true
  · right
    refine ⟨edge, ?_⟩
    simp only [machine, HandshakeMachine.transitionTo, edge, ↓reduceIte]
    rfl
  · left
    refine ⟨by simpa using edge, ?_⟩
    simp [machine, HandshakeMachine.transitionTo, edge]

end Step

variable (rules : HandshakeRules State Seen) (waits : State → Bool)

/-- No edge leaves the closed state, and `waits` are the states that set a deadline when they are
entered. -/
structure HandshakeRules.Waiting : Prop where
  final : ∀ next, rules.canTransitionTo rules.closed next = false
  cleared : ∀ state, rules.deadlineChange state = .cleared ↔ state = rules.closed
  closing : ∀ state, rules.deadlineChange state = .closeTimeout ↔ state = rules.closing
  waits : ∀ state, waits state = true ↔
    rules.deadlineChange state = .handshakeTimeout ∨ rules.deadlineChange state = .closeTimeout

variable {rules waits}

theorem HandshakeRules.Waiting.closed_rests (laws : rules.Waiting waits) : waits rules.closed = false := by
  have cleared := (laws.cleared rules.closed).mpr rfl
  have waiting := laws.waits rules.closed
  rw [cleared] at waiting
  simpa using waiting

variable [DecidableEq State]

theorem HandshakeRules.Waiting.deadlineOnEntry (laws : rules.Waiting waits)
    (machine : HandshakeMachine State Seen) (call : Transition State) :
    machine.deadlineOnEntry call.now (rules.deadlineChange call.next) =
      if waits call.next then some (call.now + machine.timeoutFor rules call.next)
      else if call.next = rules.closed then none else machine.deadline := by
  have closing := laws.closing call.next
  have cleared := laws.cleared call.next
  have waiting := laws.waits call.next
  cases change : rules.deadlineChange call.next <;>
    simp_all [HandshakeMachine.deadlineOnEntry, HandshakeMachine.timeoutFor]

variable (rules waits)

/-- The deadline is that of the last waiting state, whichever state was entered
since, until the machine is closed. -/
structure DeadlineKept (entered : List (Transition State)) (machine : HandshakeMachine State Seen) :
    Prop where
  current : waits machine.state = true →
    ∃ entry, entered.getLast? = some entry ∧ lastWait waits entered = some entry ∧
      entry.next = machine.state
  deadline : machine.deadline =
    if machine.state = rules.closed then none
    else (lastWait waits entered).map fun wait => wait.now + machine.timeoutFor rules wait.next

variable {rules waits}

theorem DeadlineKept.enter (laws : rules.Waiting waits) (kept : DeadlineKept rules waits entered machine)
    (edge : rules.canTransitionTo machine.state call.next = true) :
    DeadlineKept rules waits (entered ++ [call]) (machine.enter rules call) := by
  have live : machine.state ≠ rules.closed := by
    intro closed
    rw [closed, laws.final] at edge
    cases edge
  have before := kept.deadline
  rw [if_neg live] at before
  refine ⟨?_, ?_⟩
  · intro waiting
    change waits call.next = true at waiting
    refine ⟨call, List.getLast?_concat, ?_, rfl⟩
    rw [lastWait_concat, if_pos waiting]
  · change machine.deadlineOnEntry call.now (rules.deadlineChange call.next) =
      if call.next = rules.closed then none
      else (lastWait waits (entered ++ [call])).map fun wait =>
        wait.now + machine.timeoutFor rules wait.next
    rw [laws.deadlineOnEntry, lastWait_concat, before]
    by_cases waiting : waits call.next = true
    · have unclosed : call.next ≠ rules.closed := by
        intro closed
        rw [closed, laws.closed_rests] at waiting
        cases waiting
      rw [if_pos waiting, if_neg unclosed, if_pos waiting, Option.map_some]
    · rw [if_neg waiting, if_neg waiting]

variable [ToString State]

theorem DeadlineKept.step (laws : rules.Waiting waits)
    (kept : DeadlineKept rules waits (entries log) machine) (call : Transition State) :
    DeadlineKept rules waits (entries (log ++ [(call, (rules.machine.step machine call).1)]))
      (rules.machine.step machine call).2 := by
  rcases rules.step_cases machine call with ⟨-, error, failed⟩ | ⟨edge, succeeded⟩
  · rw [failed, entries_concat_error]
    exact kept
  · rw [succeeded, entries_concat_ok]
    exact kept.enter laws edge

variable (rules waits)

/-- In a waiting state the check fails exactly when more than the timeout has passed since it was
entered. In any other state it succeeds. -/
structure TimesOutRightly (entered : List (Transition State)) (machine : HandshakeMachine State Seen)
    (now later : Instant) : Prop where
  resting : waits machine.state = false → machine.checkTimeout rules now later = .ok ()
  waiting : waits machine.state = true →
    ((∃ error, machine.checkTimeout rules now later = .error error) ↔
      ∃ entry, entered.getLast? = some entry ∧ now > entry.now + machine.timeoutFor rules machine.state)

/-- In a state that does not wait and is not closed, the timeout of the last
waiting state has not passed. -/
def WaitStillFresh (entered : List (Transition State)) (machine : HandshakeMachine State Seen)
    (now : Instant) : Prop :=
  waits machine.state = false → machine.state ≠ rules.closed →
    ∀ wait, lastWait waits entered = some wait → now ≤ wait.now + machine.timeoutFor rules wait.next

variable {rules waits}

theorem checkTimeout_eq_ok_iff {machine : HandshakeMachine State Seen} :
    machine.checkTimeout rules now later = .ok () ↔
      ∀ deadline, machine.deadline = some deadline → now ≤ deadline := by
  unfold HandshakeMachine.checkTimeout
  cases machine.deadline with
  | none => simp
  | some deadline =>
    by_cases late : now > deadline
    · simp [late]
    · simp [late, Nat.le_of_not_gt late]

theorem checkTimeout_eq_error_iff {machine : HandshakeMachine State Seen} :
    (∃ error, machine.checkTimeout rules now later = .error error) ↔
      ∃ deadline, machine.deadline = some deadline ∧ now > deadline := by
  have ok : machine.checkTimeout rules now later = .ok () ↔ _ := checkTimeout_eq_ok_iff
  cases result : machine.checkTimeout rules now later with
  | ok _ =>
    have early := ok.mp result
    simpa using early
  | error error =>
    rw [result] at ok
    simpa using ok

theorem DeadlineKept.timesOutRightly_iff (laws : rules.Waiting waits)
    (kept : DeadlineKept rules waits entered machine) (now later : Instant) :
    TimesOutRightly rules waits entered machine now later ↔ WaitStillFresh rules waits entered machine now := by
  have deadline := kept.deadline
  cases state : waits machine.state with
  | true =>
    obtain ⟨entry, last, wait, current⟩ := kept.current state
    have unclosed : machine.state ≠ rules.closed := by
      intro closed
      rw [closed, laws.closed_rests] at state
      cases state
    rw [if_neg unclosed, wait, Option.map_some, current] at deadline
    refine iff_of_true ⟨by simp [state], fun _ => ?_⟩ (by simp [WaitStillFresh, state])
    rw [checkTimeout_eq_error_iff, deadline, last]
    simp
  | false =>
    have rests : TimesOutRightly rules waits entered machine now later ↔
        machine.checkTimeout rules now later = .ok () :=
      ⟨fun right => right.resting state, fun ok => ⟨fun _ => ok, by simp [state]⟩⟩
    rw [rests, checkTimeout_eq_ok_iff, deadline]
    by_cases closed : machine.state = rules.closed
    · simp [WaitStillFresh, closed]
    · simp [WaitStillFresh, closed, state]

theorem timesOutRightly_run (laws : rules.Waiting waits) (start : HandshakeMachine State Seen)
    (rests : waits start.state = false) (unset : start.deadline = none)
    (calls : List (Transition State)) (now later : Instant) :
    let entered := entries (rules.machine.log start calls)
    let machine := rules.machine.after start calls
    TimesOutRightly rules waits entered machine now later ↔
      WaitStillFresh rules waits entered machine now := by
  have initially : DeadlineKept rules waits (entries []) start := by
    refine ⟨by simp [rests], ?_⟩
    rw [unset]
    split <;> rfl
  have kept := @Machine.invariant _ _ _ rules.machine start
    (fun log machine => DeadlineKept rules waits (entries log) machine)
    initially (fun _ _ call kept => kept.step laws call) calls
  exact kept.timesOutRightly_iff laws now later

def ClientHandshakeState.isWaiting : ClientHandshakeState → Bool
  | connecting | chSent | closing => true
  | idle | shVerified | cfSent | authorized | messaging | closed => false

def ServerHandshakeState.isWaiting : ServerHandshakeState → Bool
  | transportReady | shSent | closing => true
  | listening | chVerified | cfVerified | authorized | messaging | closed => false

theorem client_waiting : clientRules.Waiting ClientHandshakeState.isWaiting where
  final next := by cases next <;> rfl
  cleared state := by cases state <;> decide
  closing state := by cases state <;> decide
  waits state := by cases state <;> decide

theorem server_waiting : serverRules.Waiting ServerHandshakeState.isWaiting where
  final next := by cases next <;> rfl
  cleared state := by cases state <;> decide
  closing state := by cases state <;> decide
  waits state := by cases state <;> decide

/-- A check after any run of either machine is right exactly if no waiting state that was left long
ago still counts. -/
theorem timeout_right_iff (handshakeTimeout closeTimeout : Duration) (now later : Instant) :
    (∀ calls : List (Transition ClientHandshakeState),
      let start := ClientHandshakeMachine.new.configured handshakeTimeout closeTimeout
      let entered := entries (clientRules.machine.log start calls)
      let machine := clientRules.machine.after start calls
      TimesOutRightly clientRules ClientHandshakeState.isWaiting entered machine now later ↔
        WaitStillFresh clientRules ClientHandshakeState.isWaiting entered machine now) ∧
    (∀ calls : List (Transition ServerHandshakeState),
      let start := ServerHandshakeMachine.new.configured handshakeTimeout closeTimeout
      let entered := entries (serverRules.machine.log start calls)
      let machine := serverRules.machine.after start calls
      TimesOutRightly serverRules ServerHandshakeState.isWaiting entered machine now later ↔
        WaitStillFresh serverRules ServerHandshakeState.isWaiting entered machine now) := by
  constructor
  · intro calls
    exact timesOutRightly_run client_waiting _ rfl rfl calls now later
  · intro calls
    exact timesOutRightly_run server_waiting _ rfl rfl calls now later

/-- A client that is messaging since the first second has timed out half a
minute later. -/
theorem messaging_client_times_out :
    let second := Duration.fromSecs 1
    let check := Duration.fromSecs 31
    let start := ClientHandshakeMachine.new
    let calls : List (Transition ClientHandshakeState) :=
      [⟨.connecting, 0⟩, ⟨.chSent, 0⟩, ⟨.shVerified, second⟩, ⟨.cfSent, second⟩,
        ⟨.authorized, second⟩, ⟨.messaging, second⟩]
    let machine := clientRules.machine.after start calls
    machine.state = .messaging ∧
      ClientHandshakeMachine.checkTimeout machine check check =
        .error { state := "C_MESSAGING", elapsed := second, limit := .fromSecs 30 } ∧
      ¬TimesOutRightly clientRules ClientHandshakeState.isWaiting
        (entries (clientRules.machine.log start calls)) machine check check := by
  refine ⟨rfl, rfl, ?_⟩
  intro right
  cases right.resting rfl

end Aafp.Core
