import Aafp.Foundation.Clock
import Aafp.Foundation.Machine

/-! The close manager: the one authority on closing a connection. -/
namespace Aafp.Messaging

open Foundation

def defaultCloseTimeout : Duration := .fromSecs 5

def maxCloseMessageLen : Nat := 256

inductive CloseState where
  | open_
  | localCloseSent
  | remoteCloseReceived
  | closeReceived
  | closed
deriving DecidableEq, Repr

namespace CloseState

def isTerminal : CloseState → Bool
  | closed => true
  | _ => false

end CloseState

inductive CloseAction where
  | sendCloseFrame (code : UInt32) (message : String)
  | closeQuic
  | none
deriving DecidableEq

inductive CloseFrameDisposition where
  | accept
  | discardSilently

/-- The loop down from `limit` to a position between two characters. -/
def charBoundary (message : String) : Nat → message.Pos
  | 0 => message.startPos
  | limit + 1 =>
    if valid : String.Pos.Raw.IsValid message ⟨limit + 1⟩ then ⟨⟨limit + 1⟩, valid⟩
    else charBoundary message limit

def truncateMessage (message : String) : String :=
  if message.utf8ByteSize ≤ maxCloseMessageLen then message
  else (message.sliceTo (charBoundary message maxCloseMessageLen)).copy

structure CloseManager where
  state : CloseState
  remoteCode : Option UInt32
  remoteMessage : Option String
  closeTimeout : Duration
  deadline : Option Instant

namespace CloseManager

def untouched (closeTimeout : Duration) : CloseManager :=
  { state := .open_, remoteCode := none, remoteMessage := none, closeTimeout, deadline := none }

def new : CloseManager := untouched defaultCloseTimeout

variable (manager : CloseManager)

def timerActive : Bool := manager.deadline.isSome

def canSend (frameType : UInt8) : Bool :=
  match manager.state with
  | .open_ => true
  | .localCloseSent => frameType = 0x06
  | .remoteCloseReceived => frameType = 0x05 || frameType = 0x06
  | .closeReceived | .closed => false

def frameDisposition (frameType : UInt8) : CloseFrameDisposition :=
  match manager.state with
  | .open_ => .accept
  | .localCloseSent => if frameType = 0x05 then .accept else .discardSilently
  | .remoteCloseReceived => .discardSilently
  | .closeReceived | .closed => .discardSilently

/-- Initiate a graceful close (RFC-0002 §6.6.2). -/
def initiateClose (code : UInt32) (message : String) (now : Instant) : CloseAction × CloseManager :=
  match manager.state with
  | .open_ =>
    (.sendCloseFrame code (truncateMessage message),
      { manager with state := .localCloseSent, deadline := some (now + manager.closeTimeout) })
  | _ => (.none, manager)

/-- The state passes through `closeReceived` on the way to `closed`. -/
def onCloseReceived (code : UInt32) (message : String) (now : Instant) : CloseAction × CloseManager :=
  let msg := truncateMessage message
  match manager.state with
  | .open_ =>
    (.none,
      { manager with
        remoteCode := some code, remoteMessage := some msg, state := .remoteCloseReceived
        deadline := some (now + manager.closeTimeout) })
  | .localCloseSent =>
    (.closeQuic,
      { manager with
        remoteCode := some code, remoteMessage := some msg, deadline := none, state := .closed })
  | .remoteCloseReceived => (.none, manager)
  | .closeReceived | .closed => (.none, manager)

def respondClose (code : UInt32) (message : String) : CloseAction × CloseManager :=
  match manager.state with
  | .remoteCloseReceived =>
    (.sendCloseFrame code (truncateMessage message),
      { manager with deadline := none, state := .closed })
  | _ => (.none, manager)

/-- Closed at once, with no frame sent. -/
def tearDown : CloseAction × CloseManager :=
  match manager.state with
  | .closed => (.none, manager)
  | _ => (.closeQuic, { manager with deadline := none, state := .closed })

def onFatalErrorReceived : CloseAction × CloseManager := manager.tearDown

def onTransportReset : CloseAction × CloseManager := manager.tearDown

def abort : CloseAction × CloseManager := manager.tearDown

/-- Process a close timer expiry (RFC-0002 §6.6.5). -/
def onTimeout : CloseAction × CloseManager :=
  match manager.state with
  | .localCloseSent | .remoteCloseReceived =>
    (.closeQuic, { manager with deadline := none, state := .closed })
  | _ => (.none, manager)

def checkTimer (now : Instant) : CloseAction × CloseManager :=
  match manager.deadline with
  | some deadline => if now ≥ deadline then manager.onTimeout else (.none, manager)
  | none => (.none, manager)

end CloseManager

/-- The events of a connection; two of them read the clock, and the poll of the
timer is given a time. -/
inductive CloseEvent where
  | initiateClose (code : UInt32) (message : String) (now : Instant)
  | onCloseReceived (code : UInt32) (message : String) (now : Instant)
  | respondClose (code : UInt32) (message : String)
  | onFatalErrorReceived
  | onTransportReset
  | onTimeout
  | abort
  | checkTimer (now : Instant)

def closeMachine : Machine CloseEvent CloseAction CloseManager where
  step manager
    | .initiateClose code message now => manager.initiateClose code message now
    | .onCloseReceived code message now => manager.onCloseReceived code message now
    | .respondClose code message => manager.respondClose code message
    | .onFatalErrorReceived => manager.onFatalErrorReceived
    | .onTransportReset => manager.onTransportReset
    | .onTimeout => manager.onTimeout
    | .abort => manager.abort
    | .checkTimer now => manager.checkTimer now

theorem charBoundary_le (message : String) (limit : Nat) : (charBoundary message limit).offset.byteIdx ≤ limit := by
  induction limit with
  | zero => rfl
  | succ limit ih =>
    rw [charBoundary]
    split
    · rfl
    · exact Nat.le_succ_of_le ih

theorem truncateMessage_append (message : String) : ∃ rest, message = truncateMessage message ++ rest := by
  unfold truncateMessage
  split
  · exact ⟨"", by simp⟩
  · generalize charBoundary message maxCloseMessageLen = boundary
    exact ⟨_, boundary.splits.eq_append⟩

theorem truncateMessage_size (message : String) : (truncateMessage message).utf8ByteSize ≤ maxCloseMessageLen := by
  unfold truncateMessage
  split
  · assumption
  · have below := charBoundary_le message maxCloseMessageLen
    -- only the position matters from here on, not how it was searched for
    generalize charBoundary message maxCloseMessageLen = boundary at below ⊢
    rw [boundary.splits.offset_eq_rawEndPos] at below
    exact below

end Aafp.Messaging
