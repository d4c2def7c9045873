import Aafp.Messaging.CloseManager

/-! Whole runs of the close manager. -/
namespace Aafp.Messaging

open Foundation List Option

abbrev CloseFrame := UInt32 × String

def CloseAction.frames : CloseAction → List CloseFrame
  | sendCloseFrame code message => [(code, message)]
  | closeQuic | none => []

/-- The frame, if any, that is received while open or after the own CLOSE. -/
def CloseManager.receives (manager : CloseManager) : CloseEvent → List CloseFrame
  | .onCloseReceived code message _ =>
    if manager.state = .open_ ∨ manager.state = .localCloseSent then [(code, message)] else []
  | _ => []

inductive CloseMove (manager : CloseManager) : CloseEvent → CloseAction × CloseManager → Prop where
  | ignored (event : CloseEvent) (nothing : manager.receives event = []) :
      CloseMove manager event (.none, manager)
  | initiated (code : UInt32) (message : String) (now : Instant) (fresh : manager.state = .open_) :
      CloseMove manager (.initiateClose code message now)
        (.sendCloseFrame code (truncateMessage message),
          { manager with state := .localCloseSent, deadline := some (now + manager.closeTimeout) })
  | noted (code : UInt32) (message : String) (now : Instant) (fresh : manager.state = .open_) :
      CloseMove manager (.onCloseReceived code message now)
        (.none,
          { manager with
            remoteCode := some code, remoteMessage := some (truncateMessage message)
            state := .remoteCloseReceived, deadline := some (now + manager.closeTimeout) })
  | answered (code : UInt32) (message : String) (now : Instant) (sent : manager.state = .localCloseSent) :
      CloseMove manager (.onCloseReceived code message now)
        (.closeQuic,
          { manager with
            remoteCode := some code, remoteMessage := some (truncateMessage message)
            deadline := none, state := .closed })
  | responded (code : UInt32) (message : String) (received : manager.state = .remoteCloseReceived) :
      CloseMove manager (.respondClose code message)
        (.sendCloseFrame code (truncateMessage message),
          { manager with deadline := none, state := .closed })
  | tornDown (event : CloseEvent) (nothing : manager.receives event = [])
      (alive : manager.state ≠ .closed) :
      CloseMove manager event (.closeQuic, { manager with deadline := none, state := .closed })

variable {manager : CloseManager}

theorem CloseMove.tearDown (nothing : manager.receives event = []) : CloseMove manager event manager.tearDown := by
  unfold CloseManager.tearDown
  split
  · exact .ignored event nothing
  · exact .tornDown event nothing ‹_›

theorem CloseMove.onTimeout (nothing : manager.receives event = []) : CloseMove manager event manager.onTimeout := by
  unfold CloseManager.onTimeout
  split
  next sent => exact .tornDown event nothing (by simp [sent])
  next received => exact .tornDown event nothing (by simp [received])
  · exact .ignored event nothing

theorem closeMachine_move (manager : CloseManager) (event : CloseEvent) :
    CloseMove manager event (closeMachine.step manager event) := by
  cases event with
  | initiateClose code message now =>
    change CloseMove manager _ (manager.initiateClose code message now)
    unfold CloseManager.initiateClose
    split
    · exact .initiated code message now ‹_›
    · exact .ignored _ rfl
  | onCloseReceived code message now =>
    change CloseMove manager _ (manager.onCloseReceived code message now)
    cases state : manager.state with
    | open_ =>
      simp only [CloseManager.onCloseReceived, state]
      exact .noted code message now state
    | localCloseSent =>
      simp only [CloseManager.onCloseReceived, state]
      exact .answered code message now state
    | _ =>
      simp only [CloseManager.onCloseReceived, state]
      exact .ignored _ (by simp [CloseManager.receives, state])
  | respondClose code message =>
    change CloseMove manager _ (manager.respondClose code message)
    unfold CloseManager.respondClose
    split
    · exact .responded code message ‹_›
    · exact .ignored _ rfl
  | onFatalErrorReceived => exact .tearDown rfl
  | onTransportReset => exact .tearDown rfl
  | abort => exact .tearDown rfl
  | onTimeout => exact .onTimeout rfl
  | checkTimer now =>
    change CloseMove manager _ (manager.checkTimer now)
    unfold CloseManager.checkTimer
    split
    · split
      · exact .onTimeout rfl
      · exact .ignored _ rfl
    · exact .ignored _ rfl

structure CloseHistory (sent received : List CloseFrame) (manager : CloseManager) : Prop where
  sent_once : sent.length ≤ 1
  unsent : manager.state = .open_ ∨ manager.state = .remoteCloseReceived → sent = []
  received_once : received.length ≤ 1
  unreceived : manager.state = .open_ ∨ manager.state = .localCloseSent → received = []
  settled : manager.state ≠ .closeReceived
  timer : manager.timerActive = true ↔
    manager.state = .localCloseSent ∨ manager.state = .remoteCloseReceived
  remoteCode : manager.remoteCode = received.head?.map Prod.fst
  remoteMessage : manager.remoteMessage = received.head?.map fun frame => truncateMessage frame.2

variable (closeTimeout : Duration)

section

variable (history : CloseHistory sent received manager)
include history

theorem CloseHistory.close (once : frames.length ≤ 1) :
    CloseHistory frames received { manager with deadline := none, state := .closed } where
  sent_once := once
  unsent := by simp
  received_once := history.received_once
  unreceived := by simp
  settled := by simp
  timer := by simp [CloseManager.timerActive]
  remoteCode := history.remoteCode
  remoteMessage := history.remoteMessage

theorem CloseHistory.move {next : CloseManager} (move : CloseMove manager event (action, next)) :
    CloseHistory (sent ++ action.frames) (received ++ manager.receives event) next := by
  cases move with
  | ignored _ nothing =>
    rw [nothing, CloseAction.frames, append_nil, append_nil]
    exact history
  | initiated code message now fresh =>
    have unsent := history.unsent (.inl fresh)
    have unreceived := history.unreceived (.inl fresh)
    have remoteCode := history.remoteCode
    have remoteMessage := history.remoteMessage
    constructor <;> simp_all [CloseAction.frames, CloseManager.receives, CloseManager.timerActive]
  | noted code message now fresh =>
    have unsent := history.unsent (.inl fresh)
    have unreceived := history.unreceived (.inl fresh)
    subst unsent unreceived
    constructor <;> simp [CloseAction.frames, CloseManager.receives, CloseManager.timerActive, fresh]
  | answered code message now fresh =>
    have once := history.sent_once
    have unreceived := history.unreceived (.inr fresh)
    subst unreceived
    constructor <;> simp [CloseAction.frames, CloseManager.receives, CloseManager.timerActive, fresh, once]
  | responded code message noted =>
    have unsent := history.unsent (.inr noted)
    have nothing : manager.receives (.respondClose code message) = [] := rfl
    rw [unsent, nothing, append_nil]
    exact history.close (le_refl _)
  | tornDown _ nothing alive =>
    rw [nothing, CloseAction.frames, append_nil, append_nil]
    exact history.close history.sent_once

theorem CloseHistory.step (event : CloseEvent) :
    CloseHistory (sent ++ (closeMachine.step manager event).1.frames)
      (received ++ manager.receives event) (closeMachine.step manager event).2 :=
  history.move (closeMachine_move manager event)

end

variable (events : List CloseEvent)

abbrev closeAfter : CloseManager :=
  closeMachine.after (.untouched closeTimeout) events

def framesSent (log : List (CloseEvent × CloseAction)) : List CloseFrame :=
  log.flatMap fun entry => entry.2.frames

def closesReceived (met : List (CloseManager × CloseEvent)) : List CloseFrame :=
  met.flatMap fun entry => entry.1.receives entry.2

theorem closeHistory_run : CloseHistory (framesSent (closeMachine.log (.untouched closeTimeout) events))
      (closesReceived (closeMachine.met (.untouched closeTimeout) events)) (closeAfter closeTimeout events) := by
  induction events using reverseRecOn with
  | nil =>
    change CloseHistory [] [] (.untouched closeTimeout)
    constructor <;> simp [CloseManager.untouched, CloseManager.timerActive]
  | append_singleton events event ih =>
    rw [closeAfter, Machine.log_concat, Machine.met_concat, Machine.after_concat, framesSent,
      closesReceived, flatMap_append, flatMap_append, flatMap_singleton, flatMap_singleton]
    exact ih.step event

theorem CloseHistory.no_send (history : CloseHistory sent received manager) (done : sent ≠ [])
    (other : frameType ≠ 0x06) : manager.canSend frameType = false := by
  unfold CloseManager.canSend
  cases state : manager.state with
  | open_ => exact absurd (history.unsent (.inl state)) done
  | localCloseSent => simpa using other
  | remoteCloseReceived => exact absurd (history.unsent (.inr state)) done
  | closeReceived => rfl
  | closed => rfl

theorem closed_ignores (closed : manager.state = .closed) (event : CloseEvent) :
    closeMachine.step manager event = (.none, manager) := by
  have move := closeMachine_move manager event
  generalize closeMachine.step manager event = outcome at move
  cases move with
  | ignored => rfl
  | initiated _ _ _ fresh => simp [fresh] at closed
  | noted _ _ _ fresh => simp [fresh] at closed
  | answered _ _ _ sent => simp [sent] at closed
  | responded _ _ received => simp [received] at closed
  | tornDown _ _ alive => exact absurd closed alive

theorem closed_forever (closed : manager.state = .closed) (events : List CloseEvent) :
    closeMachine.after manager events = manager := by
  induction events with
  | nil => rfl
  | cons event events ih =>
    rw [Machine.after, closed_ignores closed]
    exact ih

theorem sent_frame (sends : (closeMachine.step manager event).1 = .sendCloseFrame code message) :
    ∃ given rest, ((∃ now, event = .initiateClose code given now) ∨ event = .respondClose code given) ∧
      given = message ++ rest ∧ message.utf8ByteSize ≤ maxCloseMessageLen := by
  have move := closeMachine_move manager event
  generalize closeMachine.step manager event = outcome at move sends
  cases move with
  | initiated _ given now _ =>
    cases sends
    obtain ⟨rest, whole⟩ := truncateMessage_append given
    exact ⟨given, rest, .inl ⟨now, rfl⟩, whole, truncateMessage_size given⟩
  | responded _ given _ =>
    cases sends
    obtain ⟨rest, whole⟩ := truncateMessage_append given
    exact ⟨given, rest, .inr rfl, whole, truncateMessage_size given⟩
  | _ => cases sends

/-- The guarantees of a close manager after some events, and for those that follow. -/
structure CloseGuarantees (closeTimeout : Duration) (past later : List CloseEvent) : Prop where
  /-- At most one CLOSE is sent, -/
  sent_once : (framesSent (closeMachine.log (.untouched closeTimeout) past)).length ≤ 1
  /-- with a first part of the message it was given. -/
  sent_frame : ∀ event code message,
    (event, .sendCloseFrame code message) ∈ closeMachine.log (.untouched closeTimeout) past →
    ∃ given rest, ((∃ now, event = .initiateClose code given now) ∨ event = .respondClose code given) ∧
      given = message ++ rest ∧ message.utf8ByteSize ≤ maxCloseMessageLen
  no_send : framesSent (closeMachine.log (.untouched closeTimeout) past) ≠ [] →
    ∀ frameType, frameType ≠ 0x06 → (closeAfter closeTimeout past).canSend frameType = false
  closed_ignores : (closeAfter closeTimeout past).state = .closed →
    ∀ event, (closeMachine.step (closeAfter closeTimeout past) event).1 = .none
  closed_forever : (closeAfter closeTimeout past).state = .closed →
    (closeAfter closeTimeout (past ++ later)).state = .closed
  timer : (closeAfter closeTimeout past).timerActive = true ↔
    (closeAfter closeTimeout past).state = .localCloseSent ∨
      (closeAfter closeTimeout past).state = .remoteCloseReceived
  /-- What the peer sent is written at most once, -/
  received_once : (closesReceived (closeMachine.met (.untouched closeTimeout) past)).length ≤ 1
  code_kept : ∀ code, (closeAfter closeTimeout past).remoteCode = some code →
    (closeAfter closeTimeout (past ++ later)).remoteCode = some code
  message_kept : ∀ message, (closeAfter closeTimeout past).remoteMessage = some message →
    (closeAfter closeTimeout (past ++ later)).remoteMessage = some message
  /-- and is the first CLOSE received, its message truncated like one to be sent. -/
  remoteCode : (closeAfter closeTimeout past).remoteCode =
    (closesReceived (closeMachine.met (.untouched closeTimeout) past)).head?.map Prod.fst
  remoteMessage : (closeAfter closeTimeout past).remoteMessage =
    (closesReceived (closeMachine.met (.untouched closeTimeout) past)).head?.map
      fun frame => truncateMessage frame.2

theorem close_guarantees (past later : List CloseEvent) : CloseGuarantees closeTimeout past later := by
  have history := closeHistory_run closeTimeout past
  have after := closeHistory_run closeTimeout (past ++ later)
  -- the first CLOSE of the whole run is that of its first part, if there is one there
  have first {frame : CloseFrame}
      (found : (closesReceived (closeMachine.met (.untouched closeTimeout) past)).head? = some frame) :
      (closesReceived (closeMachine.met (.untouched closeTimeout) (past ++ later))).head? = some frame := by
    rw [Machine.met_append, closesReceived, flatMap_append, head?_append]
    rw [closesReceived] at found
    rw [found, some_or]
  refine
    { sent_once := history.sent_once
      sent_frame := ?_
      no_send := fun done frameType other => history.no_send done other
      closed_ignores := ?_
      closed_forever := ?_
      timer := history.timer
      received_once := history.received_once
      code_kept := ?_
      message_kept := ?_
      remoteCode := history.remoteCode
      remoteMessage := history.remoteMessage }
  · intro event code message mem
    obtain ⟨manager, sends⟩ := Machine.mem_log mem
    exact sent_frame sends.symm
  · intro closed event
    rw [Messaging.closed_ignores closed]
  · intro closed
    rw [closeAfter, Machine.after_append, Messaging.closed_forever closed]
    exact closed
  · intro code found
    rw [history.remoteCode, map_eq_some_iff] at found
    obtain ⟨frame, received, rfl⟩ := found
    rw [after.remoteCode, first received, map_some]
  · intro message found
    rw [history.remoteMessage, map_eq_some_iff] at found
    obtain ⟨frame, received, rfl⟩ := found
    rw [after.remoteMessage, first received, map_some]

/-- The message of a CLOSE of 257 bytes is not the one that is remembered. -/
theorem long_message_not_remembered :
    let message := String.ofList (replicate 257 'x')
    (closeMachine.after .new [.onCloseReceived 0 message 0]).remoteMessage ≠ some message := by
  intro message remembered
  have cut : truncateMessage message = message := some.inj remembered
  have short := truncateMessage_size message
  rw [cut] at short
  exact absurd short (by decide +kernel)

def CloseManager.answers (manager : CloseManager) : CloseEvent → Bool
  | .respondClose .. => manager.state = .remoteCloseReceived
  | _ => false

def quicCloses (log : List (CloseEvent × CloseAction)) : Nat :=
  log.countP fun entry => entry.2 = .closeQuic

def answersGiven (met : List (CloseManager × CloseEvent)) : Nat :=
  met.countP fun entry => entry.1.answers entry.2

theorem answers_step (answers : CloseManager.answers manager event = true) :
    ∃ code message, closeMachine.step manager event =
      (.sendCloseFrame code message, { manager with deadline := none, state := .closed }) := by
  cases event with
  | respondClose code message =>
    have received : manager.state = .remoteCloseReceived := by simpa [CloseManager.answers] using answers
    exact ⟨code, truncateMessage message, by simp [closeMachine, CloseManager.respondClose, received]⟩
  | _ => cases answers

theorem closed_step (manager : CloseManager) (event : CloseEvent) :
    (if (closeMachine.step manager event).2.state = .closed then 1 else 0) =
      (if manager.state = .closed then 1 else 0) +
        ((if (closeMachine.step manager event).1 = .closeQuic then 1 else 0) +
          if manager.answers event then 1 else 0) := by
  by_cases answers : manager.answers event = true
  · obtain ⟨code, message, step⟩ := answers_step answers
    have alive : manager.state ≠ .closed := by
      intro closed
      rw [closed_ignores closed] at step
      cases step
    simp [step, alive, answers]
  · have move := closeMachine_move manager event
    generalize closeMachine.step manager event = outcome at move
    cases move with
    | ignored => simp [answers]
    | initiated _ _ _ fresh => simp [answers, fresh]
    | noted _ _ _ fresh => simp [answers, fresh]
    | answered _ _ _ sent => simp [answers, sent]
    | responded _ _ received => simp [CloseManager.answers, received] at answers
    | tornDown _ _ alive => simp [answers, alive]

theorem closings_run : (if (closeAfter closeTimeout events).state = .closed then 1 else 0) =
      quicCloses (closeMachine.log (.untouched closeTimeout) events) +
        answersGiven (closeMachine.met (.untouched closeTimeout) events) := by
  induction events using reverseRecOn with
  | nil => rfl
  | append_singleton events event ih =>
    rw [closeAfter, Machine.after_concat, closed_step, ih, Machine.log_concat, Machine.met_concat]
    simp only [quicCloses, answersGiven, countP_append, countP_singleton, decide_eq_true_eq]
    omega

/-- Closed means that the teardown was asked for exactly once, in exactly the runs
in which no CLOSE of the peer is answered. -/
theorem closed_tears_down_iff : ((closeAfter closeTimeout events).state = .closed ↔
      quicCloses (closeMachine.log (.untouched closeTimeout) events) = 1) ↔
    ∀ entry ∈ closeMachine.met (.untouched closeTimeout) events, entry.1.answers entry.2 = false := by
  have closings := closings_run closeTimeout events
  have unanswered : answersGiven (closeMachine.met (.untouched closeTimeout) events) = 0 ↔
      ∀ entry ∈ closeMachine.met (.untouched closeTimeout) events, entry.1.answers entry.2 = false := by
    simp [answersGiven, countP_eq_zero]
  rw [← unanswered]
  split at closings <;> rename_i closed <;> simp only [closed, true_iff, false_iff] <;> omega

/-- The peer closes and is answered: closed, and the transport stays up. -/
theorem answered_close_leaves_transport :
    ¬ ((closeMachine.after .new [.onCloseReceived 0 "bye" 0, .respondClose 0 "bye"]).state = .closed ↔
      quicCloses (closeMachine.log .new [.onCloseReceived 0 "bye" 0, .respondClose 0 "bye"]) = 1) := by
  decide +kernel

end Aafp.Messaging
