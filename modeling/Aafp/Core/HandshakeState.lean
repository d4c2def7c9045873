import Aafp.Foundation.Clock
import Aafp.Foundation.Hex

/-! The two handshake state machines. -/
namespace Aafp.Core

open Foundation

def defaultHandshakeTimeout : Duration := .fromSecs 30

def defaultCloseTimeout : Duration := .fromSecs 5

inductive ClientHandshakeState where
  | idle
  | connecting
  | chSent
  | shVerified
  | cfSent
  | authorized
  | messaging
  | closing
  | closed
deriving DecidableEq, Repr

namespace ClientHandshakeState

def isTerminal : ClientHandshakeState → Bool
  | closed => true
  | _ => false

def isHandshakeComplete : ClientHandshakeState → Bool
  | cfSent | authorized | messaging | closing => true
  | _ => false

def isIdentityVerified : ClientHandshakeState → Bool
  | shVerified | cfSent | authorized | messaging | closing => true
  | _ => false

def canTransitionTo : ClientHandshakeState → ClientHandshakeState → Bool
  -- forward
  | idle, connecting => true
  | connecting, chSent => true
  | chSent, shVerified => true
  | shVerified, cfSent => true
  | cfSent, authorized => true
  | authorized, messaging => true
  | messaging, closing => true
  | closing, closed => true
  -- graceful shutdown
  | connecting, closing | chSent, closing | shVerified, closing | cfSent, closing
  | authorized, closing => true
  -- abort
  | idle, closed | connecting, closed | chSent, closed | shVerified, closed | cfSent, closed
  | authorized, closed | messaging, closed => true
  | _, _ => false

def allowedFrameTypes : ClientHandshakeState → List UInt8
  | idle | connecting => []
  | chSent => [0x02, 0x06]
  | shVerified | cfSent => [0x06]
  | authorized | messaging => [0x01, 0x03, 0x04, 0x05, 0x06, 0x07, 0x08]
  | closing => [0x05]
  | closed => []

instance : ToString ClientHandshakeState where
  toString
    | idle => "C_IDLE"
    | connecting => "C_CONNECTING"
    | chSent => "C_CH_SENT"
    | shVerified => "C_SH_VERIFIED"
    | cfSent => "C_CF_SENT"
    | authorized => "C_AUTHORIZED"
    | messaging => "C_MESSAGING"
    | closing => "C_CLOSING"
    | closed => "C_CLOSED"

end ClientHandshakeState

inductive ServerHandshakeState where
  | listening
  | transportReady
  | chVerified
  | shSent
  | cfVerified
  | authorized
  | messaging
  | closing
  | closed
deriving DecidableEq, Repr

namespace ServerHandshakeState

def isTerminal : ServerHandshakeState → Bool
  | closed => true
  | _ => false

def isHandshakeComplete : ServerHandshakeState → Bool
  | cfVerified | authorized | messaging | closing => true
  | _ => false

def isIdentityVerified : ServerHandshakeState → Bool
  | chVerified | shSent | cfVerified | authorized | messaging | closing => true
  | _ => false

def canTransitionTo : ServerHandshakeState → ServerHandshakeState → Bool
  -- forward
  | listening, transportReady => true
  | transportReady, chVerified => true
  | chVerified, shSent => true
  | shSent, cfVerified => true
  | cfVerified, authorized => true
  | authorized, messaging => true
  | messaging, closing => true
  | closing, closed => true
  -- graceful shutdown
  | transportReady, closing | chVerified, closing | shSent, closing | cfVerified, closing
  | authorized, closing => true
  -- abort
  | listening, closed | transportReady, closed | chVerified, closed | shSent, closed
  | cfVerified, closed | authorized, closed | messaging, closed => true
  | _, _ => false

def allowedFrameTypes : ServerHandshakeState → List UInt8
  | listening => []
  | transportReady => [0x02, 0x06]
  | chVerified | shSent => [0x02, 0x06]
  | cfVerified | authorized => [0x06]
  | messaging => [0x01, 0x03, 0x04, 0x05, 0x06, 0x07, 0x08]
  | closing => [0x05]
  | closed => []

instance : ToString ServerHandshakeState where
  toString
    | listening => "S_LISTENING"
    | transportReady => "S_TRANSPORT_READY"
    | chVerified => "S_CH_VERIFIED"
    | shSent => "S_SH_SENT"
    | cfVerified => "S_CF_VERIFIED"
    | authorized => "S_AUTHORIZED"
    | messaging => "S_MESSAGING"
    | closing => "S_CLOSING"
    | closed => "S_CLOSED"

end ServerHandshakeState

inductive HandshakeRole where
  | client
  | server
deriving DecidableEq

structure HandshakeStateError where
  role : HandshakeRole
  fromState : String
  toState : String
  reason : String

structure HandshakeTimeoutError where
  state : String
  elapsed : Duration
  limit : Duration

inductive DeadlineChange where
  | handshakeTimeout
  | closeTimeout
  | cleared
  | untouched
deriving DecidableEq

structure HandshakeRules (State Seen : Type) where
  role : HandshakeRole
  canTransitionTo : State → State → Bool
  allowedFrameTypes : State → List UInt8
  deadlineChange : State → DeadlineChange
  seenOnEntry : State → Seen → Seen
  closing : State
  closed : State

/-- A handshake machine; `seen` holds the flags of the messages received. -/
structure HandshakeMachine (State Seen : Type) where
  state : State
  deadline : Option Instant
  handshakeTimeout : Duration
  closeTimeout : Duration
  seen : Seen

namespace HandshakeMachine

variable {State Seen : Type}

/-- Every choice of the two timeouts; the test setter of the handshake timeout
has no minimum. -/
def configured (machine : HandshakeMachine State Seen) (handshakeTimeout closeTimeout : Duration) :
    HandshakeMachine State Seen :=
  { machine with handshakeTimeout, closeTimeout }

def deadlineOnEntry (machine : HandshakeMachine State Seen) (now : Instant) : DeadlineChange → Option Instant
  | .handshakeTimeout => some (now + machine.handshakeTimeout)
  | .closeTimeout => some (now + machine.closeTimeout)
  | .cleared => none
  | .untouched => machine.deadline

variable [DecidableEq State] [ToString State] (rules : HandshakeRules State Seen)

variable (machine : HandshakeMachine State Seen)

/-- Nothing is written before the test of the edge. -/
def transitionTo (next : State) (now : Instant) : Except HandshakeStateError (HandshakeMachine State Seen) :=
  if rules.canTransitionTo machine.state next then
    .ok { machine with
      deadline := machine.deadlineOnEntry now (rules.deadlineChange next)
      seen := rules.seenOnEntry next machine.seen
      state := next }
  else
    .error
      { role := rules.role, fromState := toString machine.state, toState := toString next
        reason := "transition not allowed" }

def timeoutFor (state : State) : Duration :=
  if state = rules.closing then machine.closeTimeout else machine.handshakeTimeout

/-- The clock is read a second time, at `later`, for the text of the error. -/
def checkTimeout (now later : Instant) : Except HandshakeTimeoutError Unit :=
  match machine.deadline with
  | none => .ok ()
  | some deadline =>
    if now > deadline then
      .error
        { state := toString machine.state, elapsed := later - deadline
          limit := machine.timeoutFor rules machine.state }
    else .ok ()

end HandshakeMachine

structure ClientSeen where
  serverHelloReceived : Bool

def clientRules : HandshakeRules ClientHandshakeState ClientSeen where
  role := .client
  canTransitionTo := ClientHandshakeState.canTransitionTo
  allowedFrameTypes := ClientHandshakeState.allowedFrameTypes
  deadlineChange
    | .connecting | .chSent => .handshakeTimeout
    | .closing => .closeTimeout
    | .closed => .cleared
    | _ => .untouched
  seenOnEntry next seen := if next = .chSent then { seen with serverHelloReceived := false } else seen
  closing := .closing
  closed := .closed

abbrev ClientHandshakeMachine := HandshakeMachine ClientHandshakeState ClientSeen

namespace ClientHandshakeMachine

def new : ClientHandshakeMachine :=
  { state := .idle, deadline := none, handshakeTimeout := defaultHandshakeTimeout
    closeTimeout := defaultCloseTimeout, seen := { serverHelloReceived := false } }

def checkTimeout (machine : ClientHandshakeMachine) (now later : Instant) : Except HandshakeTimeoutError Unit :=
  HandshakeMachine.checkTimeout clientRules machine now later

end ClientHandshakeMachine

structure ServerSeen where
  clientHelloReceived : Bool
  clientFinishedReceived : Bool

def serverRules : HandshakeRules ServerHandshakeState ServerSeen where
  role := .server
  canTransitionTo := ServerHandshakeState.canTransitionTo
  allowedFrameTypes := ServerHandshakeState.allowedFrameTypes
  deadlineChange
    | .transportReady | .shSent => .handshakeTimeout
    | .closing => .closeTimeout
    | .closed => .cleared
    | _ => .untouched
  seenOnEntry next seen :=
    if next = .transportReady then
      { seen with clientHelloReceived := false, clientFinishedReceived := false }
    else seen
  closing := .closing
  closed := .closed

abbrev ServerHandshakeMachine := HandshakeMachine ServerHandshakeState ServerSeen

namespace ServerHandshakeMachine

def new : ServerHandshakeMachine :=
  { state := .listening, deadline := none, handshakeTimeout := defaultHandshakeTimeout
    closeTimeout := defaultCloseTimeout
    seen := { clientHelloReceived := false, clientFinishedReceived := false } }

end ServerHandshakeMachine

end Aafp.Core
