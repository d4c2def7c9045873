import Aafp.Crypto.Messages
import Aafp.Foundation.Clock

/-! The session object that tracks one connection from dialling to closing. -/
namespace Aafp.Core

open Foundation Crypto

structure NegotiatedFeatures where
  protocolVersion : UInt8
  extensions : List UInt16

structure TransportHandle where
  remoteAddr : String
  isClosed : Bool

/-- An authorization context is used through `is_authorized` only. -/
structure AuthorizationContext where
  isAuthorized : String → Bool

inductive SessionState where
  | connecting
  | transportEstablished
  | identityVerified
  | authorizationVerified
  | authenticated
  | messagingEnabled
  | closing
  | closed
deriving DecidableEq, Repr

namespace SessionState

def isTerminal : SessionState → Bool
  | closed => true
  | _ => false

def isIdentityVerified : SessionState → Bool
  | connecting | transportEstablished => false
  | _ => true

def isAuthenticated : SessionState → Bool
  | authenticated | messagingEnabled | closing => true
  | _ => false

def canTransitionTo : SessionState → SessionState → Bool
  -- forward
  | connecting, transportEstablished => true
  | transportEstablished, identityVerified => true
  | identityVerified, authorizationVerified => true
  | authorizationVerified, authenticated => true
  | authenticated, messagingEnabled => true
  | messagingEnabled, closing => true
  | closing, closed => true
  -- graceful shutdown
  | transportEstablished, closing => true
  | identityVerified, closing => true
  | authorizationVerified, closing => true
  | authenticated, closing => true
  -- abort
  | connecting, closed => true
  | transportEstablished, closed => true
  | identityVerified, closed => true
  | authorizationVerified, closed => true
  | authenticated, closed => true
  | messagingEnabled, closed => true
  | _, _ => false

end SessionState

structure SessionStateError where
  fromState : SessionState
  toState : SessionState
deriving DecidableEq

structure Session where
  state : SessionState
  sessionId : Option Bytes32
  peerAgentId : Option Bytes32
  negotiatedFeatures : Option NegotiatedFeatures
  createdAt : SystemTime
  lastActivity : SystemTime
  transportHandle : Option TransportHandle
  authorizationContext : Option AuthorizationContext

/-- Methods on `&mut Session`: the session keeps what was written to it even if
the method fails. -/
abbrev SessionM := EStateM SessionStateError Session

namespace Session

def new (now : SystemTime) : Session :=
  { state := .connecting, sessionId := none, peerAgentId := none, negotiatedFeatures := none
    createdAt := now, lastActivity := now, transportHandle := none, authorizationContext := none }

def touch (now : SystemTime) : SessionM Unit :=
  modify fun session => { session with lastActivity := now }

/-- Attempt a state transition. -/
def transitionTo (newState : SessionState) : SessionM Unit := do
  let session ← get
  if session.state.canTransitionTo newState then set { session with state := newState }
  else throw ⟨session.state, newState⟩

def onTransportEstablished (handle : TransportHandle) (features : NegotiatedFeatures)
    (now : SystemTime) : SessionM Unit := do
  transitionTo .transportEstablished
  modify fun session =>
    { session with transportHandle := some handle, negotiatedFeatures := some features }
  touch now

def onIdentityVerified (peerAgentId sessionId : Bytes32) (now : SystemTime) : SessionM Unit := do
  transitionTo .identityVerified
  modify fun session =>
    { session with peerAgentId := some peerAgentId, sessionId := some sessionId }
  touch now

def onAuthorizationVerified (authCtx : AuthorizationContext) (now : SystemTime) : SessionM Unit := do
  transitionTo .authorizationVerified
  modify fun session => { session with authorizationContext := some authCtx }
  touch now

def onAuthenticated (now : SystemTime) : SessionM Unit := do
  transitionTo .authenticated
  touch now

def onMessagingEnabled (now : SystemTime) : SessionM Unit := do
  transitionTo .messagingEnabled
  touch now

def beginClose (now : SystemTime) : SessionM Unit := do
  transitionTo .closing
  touch now

def close : SessionM Unit := transitionTo .closed

def isAuthorized (session : Session) (capability : String) : Bool :=
  (session.authorizationContext.map fun ctx => ctx.isAuthorized capability).getD false

end Session

end Aafp.Core
