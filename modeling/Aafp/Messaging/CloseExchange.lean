import Aafp.Messaging.CloseRuns
import Mathlib.Data.Option.NAry

/-! Two close managers at the ends of a connection, with the CLOSE frames in flight
between them. -/
namespace Aafp.Messaging

open Foundation Function

inductive Side where
  | left
  | right
deriving DecidableEq

def Side.other : Side → Side
  | left => right
  | right => left

@[simp] theorem Side.other_other (side : Side) : side.other.other = side := by cases side <;> rfl

@[simp] theorem Side.other_ne (side : Side) : side.other ≠ side := by cases side <;> decide

@[simp] theorem Side.ne_other (side : Side) : side ≠ side.other := side.other_ne.symm

theorem Side.eq_or_eq_other (each side : Side) : each = side ∨ each = side.other := by
  cases each <;> cases side <;> decide

/-- `inbox` holds the CLOSE frames in flight to each side, the oldest first. -/
structure CloseExchange where
  manager : Side → CloseManager
  inbox : Side → List CloseFrame

/-- The parts of a graceful close; the clock is read where a timer is started. -/
inductive ExchangeAction where
  | initiateClose (side : Side) (code : UInt32) (message : String) (now : Instant)
  | deliver (side : Side) (now : Instant)
  | respondClose (side : Side) (code : UInt32) (message : String)

def ExchangeAction.side : ExchangeAction → Side
  | initiateClose side .. | deliver side _ | respondClose side .. => side

namespace CloseExchange

def untouched (closeTimeout : Side → Duration) : CloseExchange :=
  { manager side := .untouched (closeTimeout side), inbox _ := [] }

/-- A side moves on, and the frame that it sends, if any, is put in flight. -/
def act (exchange : CloseExchange) (side : Side) (outcome : CloseAction × CloseManager) :
    CloseAction × CloseExchange :=
  (outcome.1,
    { manager := update exchange.manager side outcome.2
      inbox := update exchange.inbox side.other (exchange.inbox side.other ++ outcome.1.frames) })

/-- The oldest frame reaches a side, which processes it only if it accepts CLOSE
frames in its state. -/
def deliver (exchange : CloseExchange) (side : Side) (now : Instant) : CloseAction × CloseExchange :=
  match exchange.inbox side with
  | [] => (.none, exchange)
  | (code, message) :: rest =>
    let arrived := { exchange with inbox := update exchange.inbox side rest }
    match (exchange.manager side).frameDisposition 0x05 with
    | .accept => arrived.act side ((exchange.manager side).onCloseReceived code message now)
    | .discardSilently => (.none, arrived)

end CloseExchange

def exchangeMachine : Machine ExchangeAction CloseAction CloseExchange where
  step exchange
    | .initiateClose side code message now =>
      exchange.act side ((exchange.manager side).initiateClose code message now)
    | .deliver side now => exchange.deliver side now
    | .respondClose side code message =>
      exchange.act side ((exchange.manager side).respondClose code message)

def sentBy (side : Side) (log : List (ExchangeAction × CloseAction)) : List CloseFrame :=
  log.flatMap fun entry => if entry.1.side = side then entry.2.frames else []

def CloseManager.remote (manager : CloseManager) : Option CloseFrame :=
  Option.map₂ Prod.mk manager.remoteCode manager.remoteMessage

/-- A side is closed once it has sent its CLOSE and has received the other's. -/
def CloseProgress (sent : List CloseFrame) (manager : CloseManager) : Prop :=
  match manager.state with
  | .open_ => sent = [] ∧ manager.remote = none
  | .localCloseSent => sent.length = 1 ∧ manager.remote = none
  | .remoteCloseReceived => sent = [] ∧ manager.remote.isSome
  | .closeReceived => False
  | .closed => sent.length = 1 ∧ manager.remote.isSome

/-- What one side has sent and received: of the frames sent by its peer, it has
received those that are no more in flight. -/
structure SideAgrees (sent peerSent inbox : List CloseFrame) (manager : CloseManager) : Prop where
  progress : CloseProgress sent manager
  channel : peerSent = manager.remote.toList ++ inbox
  short : ∀ frame ∈ sent, frame.2.utf8ByteSize ≤ maxCloseMessageLen

def SidesAgree (sent : Side → List CloseFrame) (exchange : CloseExchange) : Prop :=
  ∀ side, SideAgrees (sent side) (sent side.other) (exchange.inbox side) (exchange.manager side)

theorem CloseProgress.sent_le_one (progress : CloseProgress sent manager) : sent.length ≤ 1 := by
  unfold CloseProgress at progress
  split at progress
  · simp [progress.1]
  · exact progress.1.le
  · simp [progress.1]
  · exact progress.elim
  · exact progress.1.le

structure SendsOnly (manager : CloseManager) (sent : List CloseFrame)
    (outcome : CloseAction × CloseManager) : Prop where
  progress : CloseProgress (sent ++ outcome.1.frames) outcome.2
  remote : outcome.2.remote = manager.remote
  short : ∀ frame ∈ outcome.1.frames, frame.2.utf8ByteSize ≤ maxCloseMessageLen

theorem sendsOnly_nothing (progress : CloseProgress sent manager) : SendsOnly manager sent (.none, manager) where
  progress := by simpa [CloseAction.frames] using progress
  remote := rfl
  short := by simp [CloseAction.frames]

theorem sendsOnly_initiateClose (progress : CloseProgress sent manager) (code : UInt32)
    (message : String) (now : Instant) : SendsOnly manager sent (manager.initiateClose code message now) := by
  unfold CloseManager.initiateClose
  split
  next fresh =>
    simp only [CloseProgress, fresh] at progress
    obtain ⟨unsent, unreceived⟩ := progress
    refine ⟨⟨?_, unreceived⟩, rfl, ?_⟩
    · simp [unsent, CloseAction.frames]
    · simp [CloseAction.frames, truncateMessage_size]
  · exact sendsOnly_nothing progress

theorem sendsOnly_respondClose (progress : CloseProgress sent manager) (code : UInt32)
    (message : String) : SendsOnly manager sent (manager.respondClose code message) := by
  unfold CloseManager.respondClose
  split
  next noted =>
    simp only [CloseProgress, noted] at progress
    obtain ⟨unsent, received⟩ := progress
    refine ⟨⟨?_, received⟩, rfl, ?_⟩
    · simp [unsent, CloseAction.frames]
    · simp [CloseAction.frames, truncateMessage_size]
  · exact sendsOnly_nothing progress

theorem SidesAgree.act (agree : SidesAgree sent exchange)
    (sends : SendsOnly (exchange.manager side) (sent side) outcome) :
    SidesAgree (update sent side (sent side ++ outcome.1.frames)) (exchange.act side outcome).2 := by
  obtain ⟨progress, remote, short⟩ := sends
  intro each
  rcases each.eq_or_eq_other side with rfl | rfl
  · have own := agree each
    refine ⟨?_, ?_, ?_⟩
    · simpa [CloseExchange.act] using progress
    · simpa [CloseExchange.act, remote] using own.channel
    · rw [update_self]
      exact List.forall_mem_append.mpr ⟨own.short, short⟩
  · have peer := agree side.other
    rw [Side.other_other] at peer
    refine ⟨?_, ?_, ?_⟩
    · simpa [CloseExchange.act] using peer.progress
    · simp [CloseExchange.act, peer.channel]
    · simpa using peer.short

theorem CloseProgress.onCloseReceived (progress : CloseProgress sent manager)
    (unreceived : manager.remote = none) (short : message.utf8ByteSize ≤ maxCloseMessageLen)
    (code : UInt32) (now : Instant) : manager.frameDisposition 0x05 = .accept ∧
      (manager.onCloseReceived code message now).1.frames = [] ∧
      (manager.onCloseReceived code message now).2.remote = some (code, message) ∧
      CloseProgress sent (manager.onCloseReceived code message now).2 := by
  have whole : truncateMessage message = message := if_pos short
  cases state : manager.state <;> simp only [CloseProgress, state] at progress
  case open_ =>
    simp [CloseManager.frameDisposition, CloseManager.onCloseReceived, state, CloseAction.frames,
      CloseManager.remote, CloseProgress, whole, progress.1]
  case localCloseSent =>
    simp [CloseManager.frameDisposition, CloseManager.onCloseReceived, state, CloseAction.frames,
      CloseManager.remote, CloseProgress, whole, progress.1]
  all_goals simp [unreceived] at progress

theorem SidesAgree.deliver (agree : SidesAgree sent exchange) (side : Side) (now : Instant) :
    (exchange.deliver side now).1.frames = [] ∧ SidesAgree sent (exchange.deliver side now).2 := by
  have own := agree side
  unfold CloseExchange.deliver
  split
  · exact ⟨rfl, agree⟩
  next code message rest arrives =>
    -- the frame is the only one that the peer sent
    have channel := own.channel
    have only := (agree side.other).progress.sent_le_one
    rw [arrives] at channel
    have unreceived : (exchange.manager side).remote = none := by
      cases found : (exchange.manager side).remote with
      | none => rfl
      | some frame => simp [channel, found] at only
    have last : rest = [] := by
      rw [channel, unreceived] at only
      simpa using only
    have short := (agree side.other).short (code, message) (by simp [channel])
    obtain ⟨accepts, silent, remote, progress⟩ :=
      own.progress.onCloseReceived unreceived short code now
    simp only [accepts]
    refine ⟨silent, ?_⟩
    intro each
    rcases each.eq_or_eq_other side with rfl | rfl
    · refine ⟨?_, ?_, own.short⟩
      · simpa [CloseExchange.act] using progress
      · simp [CloseExchange.act, remote, channel, unreceived, last]
    · have peer := agree side.other
      refine ⟨?_, ?_, peer.short⟩
      · simpa [CloseExchange.act] using peer.progress
      · simpa [CloseExchange.act, silent] using peer.channel

theorem sentBy_concat (log : List (ExchangeAction × CloseAction)) (action : ExchangeAction) (answer : CloseAction) :
    (fun side => sentBy side (log ++ [(action, answer)])) =
      update (fun side => sentBy side log) action.side (sentBy action.side log ++ answer.frames) := by
  funext side
  by_cases same : action.side = side
  · subst same
    simp [sentBy]
  · simp [sentBy, same, Ne.symm same]

theorem SidesAgree.step (agree : SidesAgree (fun side => sentBy side log) exchange) (action : ExchangeAction) :
    SidesAgree (fun side => sentBy side (log ++ [(action, (exchangeMachine.step exchange action).1)]))
      (exchangeMachine.step exchange action).2 := by
  rw [sentBy_concat]
  cases action with
  | initiateClose side code message now =>
    exact agree.act (sendsOnly_initiateClose (agree side).progress code message now)
  | respondClose side code message =>
    exact agree.act (sendsOnly_respondClose (agree side).progress code message)
  | deliver side now =>
    obtain ⟨silent, agrees⟩ := agree.deliver side now
    have same : (exchangeMachine.step exchange (.deliver side now)).1.frames = [] := silent
    rw [same, List.append_nil, update_eq_self]
    exact agrees

theorem sidesAgree_run (closeTimeout : Side → Duration) (actions : List ExchangeAction) :
    SidesAgree (fun side => sentBy side (exchangeMachine.log (.untouched closeTimeout) actions))
      (exchangeMachine.after (.untouched closeTimeout) actions) := by
  refine @Machine.invariant _ _ _ exchangeMachine _
    (fun log exchange => SidesAgree (fun side => sentBy side log) exchange) ?_
    (fun _ _ action agree => agree.step action) actions
  intro side
  exact ⟨⟨rfl, rfl⟩, rfl, by simp [sentBy]⟩

/-- If a side is closed and no CLOSE is in flight, the other side is closed too, and has sent what
is remembered of its CLOSE. -/
theorem close_agreement (closeTimeout : Side → Duration) (actions : List ExchangeAction) (side : Side) :
    let log := exchangeMachine.log (.untouched closeTimeout) actions
    let exchange := exchangeMachine.after (.untouched closeTimeout) actions
    (exchange.manager side).state = .closed →
      ((∀ each, exchange.inbox each = []) → (exchange.manager side.other).state = .closed) ∧
      ∃ code message, sentBy side.other log = [(code, message)] ∧
        (exchange.manager side).remoteCode = some code ∧
        (exchange.manager side).remoteMessage = some message := by
  intro log exchange closed
  have own : SideAgrees (sentBy side log) (sentBy side.other log) (exchange.inbox side)
      (exchange.manager side) := sidesAgree_run closeTimeout actions side
  have peer : SideAgrees (sentBy side.other log) (sentBy side.other.other log)
      (exchange.inbox side.other) (exchange.manager side.other) :=
    sidesAgree_run closeTimeout actions side.other
  have done := own.progress
  simp only [CloseProgress, closed] at done
  obtain ⟨sent, received⟩ := done
  obtain ⟨⟨code, message⟩, remote⟩ := Option.isSome_iff_exists.mp received
  have only := peer.progress.sent_le_one
  rw [own.channel, remote] at only
  have arrived : exchange.inbox side = [] := by simpa using only
  have frames : sentBy side.other log = [(code, message)] := by
    simpa [remote, arrived] using own.channel
  refine ⟨?_, code, message, frames, ?_⟩
  · intro quiet
    have delivered := peer.channel
    rw [quiet] at delivered
    have progress := peer.progress
    unfold CloseProgress at progress
    split at progress
    · simp [progress.2] at delivered
      simp [delivered] at sent
    · simp [progress.2] at delivered
      simp [delivered] at sent
    · simp [progress.1] at frames
    · exact progress.elim
    · assumption
  · rw [CloseManager.remote, Option.map₂_eq_some_iff] at remote
    obtain ⟨_, _, hasCode, hasMessage, same⟩ := remote
    cases same
    exact ⟨hasCode, hasMessage⟩

theorem close_agreement_left_initiates :
    let actions : List ExchangeAction :=
      [.initiateClose .left 0 "bye" 0, .deliver .right 1, .respondClose .right 7 "ok", .deliver .left 2]
    let log := exchangeMachine.log (.untouched fun _ => defaultCloseTimeout) actions
    let exchange := exchangeMachine.after (.untouched fun _ => defaultCloseTimeout) actions
    (exchange.manager .left).state = .closed ∧ (exchange.manager .right).state = .closed ∧
      ∃ code message, sentBy .right log = [(code, message)] ∧
        (exchange.manager .left).remoteCode = some code ∧
        (exchange.manager .left).remoteMessage = some message := by
  intro actions log exchange
  have closed : (exchange.manager .left).state = .closed := rfl
  have quiet : ∀ each, exchange.inbox each = [] := by
    intro each
    cases each <;> rfl
  obtain ⟨other, remembers⟩ := close_agreement (fun _ => defaultCloseTimeout) actions .left closed
  exact ⟨closed, other quiet, remembers⟩

end Aafp.Messaging
