import Aafp.Core.Session
import Aafp.Foundation.Machine

/-! Whole runs of a session: what its public methods keep, in any order of calls. -/
namespace Aafp.Core

open Foundation Crypto SessionState Option
open List hiding after

inductive SessionCall where
  | onTransportEstablished (handle : TransportHandle) (features : NegotiatedFeatures) (now : SystemTime)
  | onIdentityVerified (peerAgentId sessionId : Bytes32) (now : SystemTime)
  | onAuthorizationVerified (authCtx : AuthorizationContext) (now : SystemTime)
  | onAuthenticated (now : SystemTime)
  | onMessagingEnabled (now : SystemTime)
  | beginClose (now : SystemTime)
  | close
  | touch (now : SystemTime)

namespace SessionCall

def perform : SessionCall → SessionM Unit
  | onTransportEstablished handle features now => Session.onTransportEstablished handle features now
  | onIdentityVerified peerAgentId sessionId now => Session.onIdentityVerified peerAgentId sessionId now
  | onAuthorizationVerified authCtx now => Session.onAuthorizationVerified authCtx now
  | onAuthenticated now => Session.onAuthenticated now
  | onMessagingEnabled now => Session.onMessagingEnabled now
  | beginClose now => Session.beginClose now
  | close => Session.close
  | touch now => Session.touch now

def target : SessionCall → Option SessionState
  | onTransportEstablished .. => some .transportEstablished
  | onIdentityVerified .. => some .identityVerified
  | onAuthorizationVerified .. => some .authorizationVerified
  | onAuthenticated _ => some .authenticated
  | onMessagingEnabled _ => some .messagingEnabled
  | beginClose _ => some .closing
  | close => some .closed
  | touch _ => none

def write : SessionCall → Session → Session
  | onTransportEstablished handle features now, session =>
    { session with
      state := .transportEstablished, transportHandle := some handle
      negotiatedFeatures := some features, lastActivity := now }
  | onIdentityVerified peerAgentId sessionId now, session =>
    { session with
      state := .identityVerified, peerAgentId := some peerAgentId, sessionId := some sessionId
      lastActivity := now }
  | onAuthorizationVerified authCtx now, session =>
    { session with
      state := .authorizationVerified, authorizationContext := some authCtx, lastActivity := now }
  | onAuthenticated now, session => { session with state := .authenticated, lastActivity := now }
  | onMessagingEnabled now, session => { session with state := .messagingEnabled, lastActivity := now }
  | beginClose now, session => { session with state := .closing, lastActivity := now }
  | close, session => { session with state := .closed }
  | touch now, session => { session with lastActivity := now }

end SessionCall

def sessionMachine : Machine SessionCall (Except SessionStateError Unit) Session where
  step session call :=
    match call.perform session with
    | .ok _ next => (.ok (), next)
    | .error error next => (.error error, next)

theorem Session.transitionTo_bind (next : SessionState) (rest : SessionM Unit) (session : Session) :
    (transitionTo next >>= fun _ => rest) session =
      if session.state.canTransitionTo next then rest { session with state := next }
      else .error ⟨session.state, next⟩ session := by
  have moved : transitionTo next session =
      if session.state.canTransitionTo next then .ok () { session with state := next }
      else .error ⟨session.state, next⟩ session := by
    change (ite (session.state.canTransitionTo next = true) _ _ : SessionM Unit) session = _
    split <;> rfl
  change EStateM.bind _ _ _ = _
  rw [EStateM.bind, moved]
  by_cases edge : session.state.canTransitionTo next = true
  · simp only [edge, ↓reduceIte]
  · simp only [edge, Bool.false_eq_true, ↓reduceIte]

section

variable (session : Session) (call : SessionCall)

theorem sessionMachine_step : sessionMachine.step session call =
      match call.target with
      | none => (.ok (), call.write session)
      | some next =>
        if session.state.canTransitionTo next then (.ok (), call.write session)
        else (.error ⟨session.state, next⟩, session) := by
  have steps (next : SessionState) (rest : SessionM Unit)
      (performs : call.perform = Session.transitionTo next >>= fun _ => rest)
      (writes : rest { session with state := next } = .ok () (call.write session)) :
      sessionMachine.step session call =
        if session.state.canTransitionTo next then (.ok (), call.write session)
        else (.error ⟨session.state, next⟩, session) := by
    simp only [sessionMachine, performs, Session.transitionTo_bind]
    by_cases edge : session.state.canTransitionTo next = true
    · simp only [edge, ↓reduceIte, writes]
    · simp only [edge, Bool.false_eq_true, ↓reduceIte]
  cases call with
  | touch now => rfl
  | close => exact steps _ (pure ()) (bind_pure _).symm rfl
  | _ => exact steps _ _ rfl rfl

/-- A call that fails changes nothing, and one that succeeds goes on from the
state, if it asks for one, along an edge. -/
theorem sessionMachine_step_cases : (∃ error, sessionMachine.step session call = (.error error, session)) ∨
      sessionMachine.step session call = (.ok (), call.write session) ∧
        ∀ next, call.target = some next → session.state.canTransitionTo next = true := by
  rw [sessionMachine_step]
  cases asks : call.target with
  | none => exact .inr ⟨rfl, nofun⟩
  | some next =>
    by_cases edge : session.state.canTransitionTo next = true
    · right
      simp only [edge, ↓reduceIte, true_and]
      intro other same
      cases same
      exact edge
    · left
      simp [edge]

def SessionState.position : SessionState → Nat
  | connecting => 0
  | transportEstablished => 1
  | identityVerified => 2
  | authorizationVerified => 3
  | authenticated => 4
  | messagingEnabled => 5
  | closing => 6
  | closed => 7

def SessionState.progression : List SessionState :=
  [transportEstablished, identityVerified, authorizationVerified, authenticated, messagingEnabled]

theorem SessionState.position_lt {state next : SessionState}
    (edge : state.canTransitionTo next = true) : state.position < next.position := by
  cases state <;> cases next <;> first | decide | cases edge

theorem SessionState.progression_take {state next : SessionState} (edge : state.canTransitionTo next = true)
    (active : next.position ≤ 5) : progression.take next.position = progression.take state.position ++ [next] := by
  cases state <;> cases next <;> first | rfl | exact absurd active (by decide) | cases edge

abbrev SessionLog := List (SessionCall × Except SessionStateError Unit)

def visited (log : SessionLog) : List SessionState :=
  log.filterMap fun entry =>
    match entry.2 with
    | .ok _ => entry.1.target
    | .error _ => none

variable (log : SessionLog)

@[simp] theorem visited_concat_ok : visited (log ++ [(call, .ok ())]) = visited log ++ call.target.toList := by
  cases found : call.target <;> simp [visited, found]

@[simp] theorem visited_concat_error (error : SessionStateError) :
    visited (log ++ [(call, .error error)]) = visited log := by
  simp [visited]

end

structure WentThrough (states : List SessionState) (session : Session) : Prop where
  increasing : (states.map position).Pairwise (· < ·)
  reached : ∀ state ∈ states, state.position ≤ session.state.position
  forward : session.state.position ≤ 5 → states = progression.take session.state.position

/-- A field is set exactly if its state was entered. -/
structure FieldsSet (states : List SessionState) (session : Session) : Prop where
  transportHandle : session.transportHandle.isSome ↔ .transportEstablished ∈ states
  negotiatedFeatures : session.negotiatedFeatures.isSome ↔ .transportEstablished ∈ states
  peerAgentId : session.peerAgentId.isSome ↔ .identityVerified ∈ states
  sessionId : session.sessionId.isSome ↔ .identityVerified ∈ states
  authorizationContext : session.authorizationContext.isSome ↔ .authorizationVerified ∈ states

theorem SessionCall.write_state {call : SessionCall} :
    (call.write session).state = call.target.getD session.state := by
  cases call <;> rfl

theorem WentThrough.write (went : WentThrough states session) {call : SessionCall}
    (edge : ∀ next, call.target = some next → session.state.canTransitionTo next = true) :
    WentThrough (states ++ call.target.toList) (call.write session) := by
  cases asks : call.target with
  | none =>
    have same : (call.write session).state = session.state := by
      rw [SessionCall.write_state, asks, getD_none]
    rw [toList_none, append_nil]
    exact ⟨went.increasing, by simpa only [same] using went.reached, by simpa only [same] using went.forward⟩
  | some next =>
    have later := position_lt (edge next asks)
    have below (state : SessionState) (mem : state ∈ states) : state.position < next.position :=
      Nat.lt_of_le_of_lt (went.reached state mem) later
    have entered : (call.write session).state = next := by
      rw [SessionCall.write_state, asks, getD_some]
    rw [toList_some]
    refine ⟨?_, ?_, ?_⟩
    · rw [map_append, pairwise_append]
      refine ⟨went.increasing, pairwise_singleton _ _, ?_⟩
      simpa using below
    · rw [entered, forall_mem_append]
      exact ⟨fun state mem => Nat.le_of_lt (below state mem), by simp⟩
    · rw [entered]
      intro active
      rw [progression_take (edge next asks) active, went.forward (by omega)]

theorem FieldsSet.write (set : FieldsSet states session) (call : SessionCall) :
    FieldsSet (states ++ call.target.toList) (call.write session) := by
  obtain ⟨handle, features, peer, id, context⟩ := set
  cases call <;> constructor <;>
    simp [SessionCall.write, SessionCall.target, handle, features, peer, id, context]

structure Lived (log : SessionLog) (session : Session) : Prop where
  went : WentThrough (visited log) session
  fields : FieldsSet (visited log) session
  installed : ∀ ctx, session.authorizationContext = some ctx →
    ∃ now, (.onAuthorizationVerified ctx now, .ok ()) ∈ log

theorem SessionCall.write_authorizationContext (call : SessionCall) (session : Session) :
    (∃ ctx now, call = .onAuthorizationVerified ctx now ∧ (call.write session).authorizationContext = some ctx) ∨
    (call.write session).authorizationContext = session.authorizationContext := by
  cases call with
  | onAuthorizationVerified ctx now => exact .inl ⟨ctx, now, rfl, rfl⟩
  | _ => exact .inr rfl

theorem Lived.step (lived : Lived log session) (call : SessionCall) :
    Lived (log ++ [(call, (sessionMachine.step session call).1)]) (sessionMachine.step session call).2 := by
  have earlier {answer : Except SessionStateError Unit} (ctx : AuthorizationContext)
      (found : session.authorizationContext = some ctx) :
      ∃ now, (SessionCall.onAuthorizationVerified ctx now, Except.ok ()) ∈ log ++ [(call, answer)] := by
    obtain ⟨now, mem⟩ := lived.installed ctx found
    exact ⟨now, mem_append_left _ mem⟩
  rcases sessionMachine_step_cases session call with ⟨error, failed⟩ | ⟨succeeded, edge⟩
  · rw [failed]
    refine ⟨?_, ?_, earlier⟩
    · rw [visited_concat_error]
      exact lived.went
    · rw [visited_concat_error]
      exact lived.fields
  · rw [succeeded]
    refine ⟨?_, ?_, ?_⟩
    · rw [visited_concat_ok]
      exact lived.went.write edge
    · rw [visited_concat_ok]
      exact lived.fields.write call
    · intro ctx found
      rcases call.write_authorizationContext session with ⟨own, now, rfl, set⟩ | same
      · cases found
        exact ⟨now, mem_append_right _ (mem_singleton.mpr rfl)⟩
      · exact earlier ctx (same ▸ found)

abbrev sessionAfter (created : SystemTime) (calls : List SessionCall) : Session :=
  sessionMachine.after (.new created) calls

abbrev sessionLog (created : SystemTime) (calls : List SessionCall) : SessionLog :=
  sessionMachine.log (.new created) calls

theorem lived_run (created : SystemTime) (calls : List SessionCall) :
    Lived (sessionLog created calls) (sessionAfter created calls) := by
  refine Machine.invariant ⟨⟨.nil, ?_, fun _ => rfl⟩, ?_, ?_⟩ (fun _ _ call lived => lived.step call) calls
  · simp [visited]
  · constructor <;> simp [Session.new, visited]
  · simp [Session.new]

structure Kept (before after : Session) : Prop where
  transportHandle : ∀ handle, before.transportHandle = some handle → after.transportHandle = some handle
  negotiatedFeatures : ∀ features,
    before.negotiatedFeatures = some features → after.negotiatedFeatures = some features
  peerAgentId : ∀ peer, before.peerAgentId = some peer → after.peerAgentId = some peer
  sessionId : ∀ id, before.sessionId = some id → after.sessionId = some id
  authorizationContext : ∀ ctx,
    before.authorizationContext = some ctx → after.authorizationContext = some ctx

theorem Kept.refl (session : Session) : Kept session session := by
  constructor <;> exact fun _ found => found

theorem Kept.trans (first : Kept before middle) (second : Kept middle after) : Kept before after where
  transportHandle handle found := second.transportHandle _ (first.transportHandle handle found)
  negotiatedFeatures features found := second.negotiatedFeatures _ (first.negotiatedFeatures features found)
  peerAgentId peer found := second.peerAgentId _ (first.peerAgentId peer found)
  sessionId id found := second.sessionId _ (first.sessionId id found)
  authorizationContext ctx found :=
    second.authorizationContext _ (first.authorizationContext ctx found)

theorem WentThrough.no_edge_back (went : WentThrough states session) (mem : state ∈ states) :
    ¬session.state.canTransitionTo state = true := by
  intro edge
  have earlier := went.reached state mem
  have later := position_lt edge
  omega

theorem Lived.keeps (lived : Lived log session) (call : SessionCall) :
    Kept session (sessionMachine.step session call).2 := by
  obtain ⟨went, fields, -⟩ := lived
  rcases sessionMachine_step_cases session call with ⟨error, failed⟩ | ⟨succeeded, edge⟩
  · rw [failed]
    exact .refl session
  · rw [succeeded]
    have fresh (state : SessionState) (asks : call.target = some state) : state ∉ visited log :=
      fun mem => went.no_edge_back mem (edge state asks)
    cases call with
    | onTransportEstablished handle features now =>
      have unset := fresh .transportEstablished rfl
      refine ⟨fun other found => ?_, fun other found => ?_, fun _ => id, fun _ => id, fun _ => id⟩
      · exact absurd (fields.transportHandle.mp (by simp [found])) unset
      · exact absurd (fields.negotiatedFeatures.mp (by simp [found])) unset
    | onIdentityVerified peer sessionId now =>
      have unset := fresh .identityVerified rfl
      refine ⟨fun _ => id, fun _ => id, fun other found => ?_, fun other found => ?_, fun _ => id⟩
      · exact absurd (fields.peerAgentId.mp (by simp [found])) unset
      · exact absurd (fields.sessionId.mp (by simp [found])) unset
    | onAuthorizationVerified ctx now =>
      have unset := fresh .authorizationVerified rfl
      refine ⟨fun _ => id, fun _ => id, fun _ => id, fun _ => id, fun other found => ?_⟩
      exact absurd (fields.authorizationContext.mp (by simp [found])) unset
    | _ => constructor <;> exact fun _ found => found

/-- After any calls, whatever further calls are made: what was set stays, and the
state only goes forward. -/
theorem session_goes_forward (created : SystemTime) (past later : List SessionCall) :
    Kept (sessionAfter created past) (sessionAfter created (past ++ later)) ∧
      (sessionAfter created past).state.position ≤ (sessionAfter created (past ++ later)).state.position := by
  induction later using reverseRecOn with
  | nil =>
    rw [append_nil]
    exact ⟨.refl _, le_refl _⟩
  | append_singleton later call ih =>
    obtain ⟨kept, ahead⟩ := ih
    rw [← append_assoc, sessionAfter, sessionAfter, Machine.after_concat]
    have lived := lived_run created (past ++ later)
    refine ⟨kept.trans (lived.keeps call), ahead.trans ?_⟩
    rcases sessionMachine_step_cases (sessionAfter created (past ++ later)) call with
      ⟨error, failed⟩ | ⟨succeeded, edge⟩
    · rw [failed]
    · rw [succeeded, SessionCall.write_state]
      cases asks : call.target with
      | none => exact le_refl _
      | some next => exact Nat.le_of_lt (position_lt (edge next asks))

structure SessionGuarantees (created : SystemTime) (past later : List SessionCall) : Prop where
  /-- A call that returns an error leaves the session as it was. -/
  failed : ∀ call error, (sessionMachine.step (sessionAfter created past) call).1 = .error error →
    (sessionMachine.step (sessionAfter created past) call).2 = sessionAfter created past
  /-- Each state is entered, and with it the fields it sets are written, at most once. -/
  once : (visited (sessionLog created past)).Nodup
  kept : Kept (sessionAfter created past) (sessionAfter created (past ++ later))
  ahead : (sessionAfter created past).state.position ≤ (sessionAfter created (past ++ later)).state.position
  closed : (sessionAfter created past).state = .closed →
    (sessionAfter created (past ++ later)).state = .closed
  messaging : (sessionAfter created past).state = .messagingEnabled →
    visited (sessionLog created past) = progression ∧
      (sessionAfter created past).transportHandle.isSome ∧
      (sessionAfter created past).negotiatedFeatures.isSome ∧
      (sessionAfter created past).peerAgentId.isSome ∧
      (sessionAfter created past).sessionId.isSome ∧
      (sessionAfter created past).authorizationContext.isSome
  authorized : ∀ capability, (sessionAfter created past).isAuthorized capability = true →
    ∃ ctx now, (.onAuthorizationVerified ctx now, .ok ()) ∈ sessionLog created past ∧
      (sessionAfter created past).authorizationContext = some ctx ∧
      ctx.isAuthorized capability = true

theorem session_guarantees (created : SystemTime) (past later : List SessionCall) :
    SessionGuarantees created past later := by
  have lived := lived_run created past
  obtain ⟨kept, ahead⟩ := session_goes_forward created past later
  refine ⟨?_, ?_, kept, ahead, ?_, ?_, ?_⟩
  · intro call error fails
    rcases sessionMachine_step_cases (sessionAfter created past) call with
      ⟨other, failed⟩ | ⟨succeeded, -⟩
    · rw [failed]
    · rw [succeeded] at fails
      cases fails
  · exact .of_map _ (lived.went.increasing.imp Nat.ne_of_lt)
  · intro closed
    rw [closed] at ahead
    revert ahead
    cases (sessionAfter created (past ++ later)).state <;> decide
  · intro messaging
    have states := lived.went.forward (by rw [messaging]; decide)
    rw [messaging] at states
    obtain ⟨-, ⟨handle, features, peer, id, context⟩, -⟩ := lived
    rw [states] at handle features peer id context ⊢
    exact ⟨rfl, handle.mpr (by decide), features.mpr (by decide), peer.mpr (by decide),
      id.mpr (by decide), context.mpr (by decide)⟩
  · intro capability authorized
    cases found : (sessionAfter created past).authorizationContext with
    | none => simp [Session.isAuthorized, found] at authorized
    | some ctx =>
      obtain ⟨now, mem⟩ := lived.installed ctx found
      refine ⟨ctx, now, mem, rfl, ?_⟩
      simpa [Session.isAuthorized, found] using authorized

end Aafp.Core
