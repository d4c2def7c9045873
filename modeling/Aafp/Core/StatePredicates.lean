import Aafp.Core.HandshakeStateRuns
import Aafp.Core.SessionRuns
import Aafp.Foundation.MainLine

/-! What the predicates on the state of a session or of a handshake machine say of the run so far. -/
namespace Aafp.Core

open Foundation Crypto

section Session

def sessionLine : MainLine SessionState :=
  { edge := SessionState.canTransitionTo, line := SessionState.progression, rank := SessionState.position }

def sessionAssertions : Assertions SessionState :=
  [(SessionState.isIdentityVerified, .identityVerified),
    (SessionState.isAuthenticated, .authorizationVerified)]

/-- The ways to close a session before the identity is verified, and to close it
gracefully before the authorization is. -/
def SessionState.closesEarly : SessionState → SessionState → Bool
  | transportEstablished, closing | identityVerified, closing => true
  | connecting, closed | transportEstablished, closed => true
  | _, _ => false

theorem sessionLine_decides : sessionLine.Decides sessionAssertions SessionState.closesEarly := by
  constructor <;> intro state next <;> cases state <;> cases next <;> decide

def sessionWalker : MainLine.Walker sessionLine sessionMachine where
  state := Session.state
  asks := SessionCall.target
  passed := visited
  moves past session call := by
    have step := sessionMachine_step session call
    cases asks : call.target with
    | none =>
      rw [asks] at step
      right
      rw [step]
      refine ⟨nofun, ?_, ?_⟩
      · rw [SessionCall.write_state, asks, Option.getD_none]
      · simp [asks]
    | some next =>
      rw [asks] at step
      by_cases edge : session.state.canTransitionTo next = true
      · left
        simp only [edge, ↓reduceIte] at step
        rw [step]
        refine ⟨next, rfl, edge, ?_, ?_⟩
        · rw [SessionCall.write_state, asks, Option.getD_some]
        · simp [asks]
      · right
        simp only [edge, Bool.false_eq_true, ↓reduceIte] at step
        rw [step]
        refine ⟨?_, rfl, visited_concat_error _ _ _⟩
        intro other same
        cases same
        exact Bool.eq_false_iff.mpr edge

/-- The predicates on the state of a session hold only with what they stand for. -/
structure SessionPredicatesTrue (session : Session) : Prop where
  identityVerified : session.state.isIdentityVerified = true →
    session.peerAgentId.isSome ∧ session.sessionId.isSome
  authenticated : session.state.isAuthenticated = true → session.authorizationContext.isSome

theorem Lived.predicates_iff (lived : Lived log session) :
    SessionPredicatesTrue session ↔ sessionAssertions.Truthful (visited log) session.state := by
  obtain ⟨-, fields, -⟩ := lived
  have unfolded : sessionAssertions.Truthful (visited log) session.state ↔
      (session.state.isIdentityVerified = true → .identityVerified ∈ visited log) ∧
        (session.state.isAuthenticated = true → .authorizationVerified ∈ visited log) := by
    simp [Assertions.Truthful, sessionAssertions]
  rw [unfolded, ← fields.authorizationContext]
  constructor
  · intro ⟨verified, authenticated⟩
    exact ⟨fun holds => fields.peerAgentId.mp (verified holds).1, authenticated⟩
  · intro ⟨verified, authenticated⟩
    refine ⟨fun holds => ?_, authenticated⟩
    exact ⟨fields.peerAgentId.mpr (verified holds), fields.sessionId.mpr (verified holds)⟩

theorem session_predicates_iff (created : SystemTime) (calls : List SessionCall) :
    sessionMachine.Throughout (.new created) (fun _ session => SessionPredicatesTrue session) calls ↔
    sessionMachine.Meets (.new created) (fun _ session call => ∀ next, call.target = some next →
      session.state.closesEarly next = false) calls := by
  refine Iff.trans ?_ (sessionLine_decides.throughout_iff sessionWalker rfl rfl ?_ calls)
  · refine forall₂_congr fun past _ => ?_
    exact (lived_run created past).predicates_iff
  · change sessionAssertions.Truthful [] .connecting
    decide

end Session

section Handshake

variable {State Seen : Type} [ToString State]

def passed (log : TransitionLog State) : List State := (entries log).map (·.next)

def HandshakeRules.walker (rules : HandshakeRules State Seen) (line : List State)
    (rank : State → Nat) :
    MainLine.Walker { edge := rules.canTransitionTo, line, rank } rules.machine where
  state := HandshakeMachine.state
  asks call := some call.next
  passed := passed
  moves past machine call := by
    rcases rules.step_cases machine call with ⟨noEdge, error, failed⟩ | ⟨edge, succeeded⟩
    · right
      rw [failed, passed, passed, entries_concat_error]
      refine ⟨?_, rfl, rfl⟩
      intro next same
      cases same
      exact noEdge
    · left
      rw [succeeded, passed, passed, entries_concat_ok]
      exact ⟨call.next, rfl, edge, rfl, by simp⟩

def ClientHandshakeState.position : ClientHandshakeState → Nat
  | idle => 0
  | connecting => 1
  | chSent => 2
  | shVerified => 3
  | cfSent => 4
  | authorized => 5
  | messaging => 6
  | closing => 7
  | closed => 8

def ServerHandshakeState.position : ServerHandshakeState → Nat
  | listening => 0
  | transportReady => 1
  | chVerified => 2
  | shSent => 3
  | cfVerified => 4
  | authorized => 5
  | messaging => 6
  | closing => 7
  | closed => 8

def clientLine : MainLine ClientHandshakeState where
  edge := clientRules.canTransitionTo
  line := [.connecting, .chSent, .shVerified, .cfSent, .authorized, .messaging]
  rank := ClientHandshakeState.position

def serverLine : MainLine ServerHandshakeState where
  edge := serverRules.canTransitionTo
  line := [.transportReady, .chVerified, .shSent, .cfVerified, .authorized, .messaging]
  rank := ServerHandshakeState.position

def clientAssertions : Assertions ClientHandshakeState :=
  [(ClientHandshakeState.isIdentityVerified, .shVerified),
    (ClientHandshakeState.isHandshakeComplete, .cfSent)]

def serverAssertions : Assertions ServerHandshakeState :=
  [(ServerHandshakeState.isIdentityVerified, .chVerified),
    (ServerHandshakeState.isHandshakeComplete, .cfVerified)]

def ClientHandshakeState.closesEarly : ClientHandshakeState → ClientHandshakeState → Bool
  | connecting, closing | chSent, closing | shVerified, closing => true
  | _, _ => false

def ServerHandshakeState.closesEarly : ServerHandshakeState → ServerHandshakeState → Bool
  | transportReady, closing | chVerified, closing | shSent, closing => true
  | _, _ => false

theorem clientLine_decides : clientLine.Decides clientAssertions ClientHandshakeState.closesEarly := by
  constructor <;> intro state next <;> cases state <;> cases next <;> decide

theorem serverLine_decides : serverLine.Decides serverAssertions ServerHandshakeState.closesEarly := by
  constructor <;> intro state next <;> cases state <;> cases next <;> decide

theorem handshake_predicates_iff {rules : HandshakeRules State Seen} {line : List State}
    {rank : State → Nat} {assertions : Assertions State} {early : State → State → Bool}
    (checked : MainLine.Decides ⟨rules.canTransitionTo, line, rank⟩ assertions early) (first : rank start.state = 0)
    (truthful : assertions.Truthful [] start.state) (calls : List (Transition State)) :
    rules.machine.Throughout start
      (fun log machine => assertions.Truthful (passed log) machine.state) calls ↔
    rules.machine.Meets start (fun _ machine call => early machine.state call.next = false) calls := by
  refine (checked.throughout_iff (rules.walker line rank) rfl first truthful calls).trans ?_
  refine forall₃_congr fun past call _ => ?_
  simp [HandshakeRules.walker]

end Handshake

/-- The predicates on the state are true throughout a run exactly if no call of it closes early. -/
theorem predicates_true_iff (created : SystemTime) (sessionCalls : List SessionCall)
    (clientCalls : List (Transition ClientHandshakeState))
    (serverCalls : List (Transition ServerHandshakeState)) :
    (sessionMachine.Throughout (.new created)
      (fun _ session => SessionPredicatesTrue session) sessionCalls ↔
    sessionMachine.Meets (.new created)
      (fun _ session call => ∀ next, call.target = some next →
        session.state.closesEarly next = false) sessionCalls) ∧
    (clientRules.machine.Throughout ClientHandshakeMachine.new
      (fun log machine => clientAssertions.Truthful (passed log) machine.state) clientCalls ↔
    clientRules.machine.Meets ClientHandshakeMachine.new
      (fun _ machine call => machine.state.closesEarly call.next = false) clientCalls) ∧
    (serverRules.machine.Throughout ServerHandshakeMachine.new
      (fun log machine => serverAssertions.Truthful (passed log) machine.state) serverCalls ↔
    serverRules.machine.Meets ServerHandshakeMachine.new
      (fun _ machine call => machine.state.closesEarly call.next = false) serverCalls) := by
  refine ⟨session_predicates_iff created sessionCalls, ?_, ?_⟩
  · exact handshake_predicates_iff clientLine_decides rfl (by decide) clientCalls
  · exact handshake_predicates_iff serverLine_decides rfl (by decide) serverCalls

/-- Closed right after the transport is established, a session passes for one with a verified
identity. -/
theorem closed_early_passes_for_verified :
    (let session := sessionAfter 0
      [.onTransportEstablished ⟨"peer:4433", false⟩ ⟨1, []⟩ 0, .beginClose 0]
    session.state.isIdentityVerified = true ∧ session.peerAgentId = none ∧ session.sessionId = none ∧
      session.state.isAuthenticated = true ∧ session.authorizationContext.isNone) ∧
    (let calls : List (Transition ClientHandshakeState) := [⟨.connecting, 0⟩, ⟨.closing, 0⟩]
    let machine := clientRules.machine.after ClientHandshakeMachine.new calls
    machine.state.isIdentityVerified = true ∧ machine.state.isHandshakeComplete = true ∧
      passed (clientRules.machine.log ClientHandshakeMachine.new calls) = [.connecting, .closing]) := by
  exact ⟨⟨rfl, rfl, rfl, rfl, rfl⟩, rfl, rfl, rfl⟩

end Aafp.Core
