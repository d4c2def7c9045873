import Aafp.Crypto.ReplayCache
import Aafp.Foundation.Interleaving
import Aafp.Sdk.HandshakeDriver

/-! How one server handshake uses the replay cache. -/
namespace Aafp.Sdk

open Foundation Cbor Crypto Aafp.Core Messaging Option

/-- Each cache call runs under the lock of the cache; the answers to all other
calls come from elsewhere. -/
def serveReplay (reading : Reading) : Event Handshaking → ReplayCache → Option ReplayCache
  | ⟨.replayCheck agentId nonce, replayed⟩, cache =>
    if (cache.check reading agentId nonce).1 = replayed then some (cache.check reading agentId nonce).2
    else none
  | ⟨.replayInsert agentId nonce, _⟩, cache => some (cache.insert reading agentId nonce)
  | _, cache => some cache

def asksCache : HandshakeCall → Bool
  | .replayCheck _ _ | .replayInsert _ _ => true
  | _ => false

abbrev Quiet (call : HandshakeCall) : Prop := asksCache call = false

theorem serveReplay_quiet (quiet : Quiet event.call) (reading : Reading)
    (cache : ReplayCache) : serveReplay reading event cache = some cache := by
  obtain ⟨call, answer⟩ := event
  cases call <;> first | rfl | cases quiet

/-- Where a server handshake stands with the cache. -/
inductive ReplayPhase where
  | unasked
  | admitted (key : CacheKey)
  | settled
deriving DecidableEq

/-- One lookup, and one insertion of the same nonce if the lookup found nothing. -/
def ReplayPhase.advance (phase : ReplayPhase) : Event Handshaking → Option ReplayPhase
  | ⟨.replayCheck agentId nonce, replayed⟩ =>
    if phase = .unasked then
      some (if (show Bool from replayed) then .settled else .admitted (makeKey agentId nonce))
    else none
  | ⟨.replayInsert agentId nonce, _⟩ =>
      if phase = .admitted (makeKey agentId nonce) then some .settled else none
  | _ => some phase

theorem ReplayPhase.advance_quiet (phase : ReplayPhase) (call : HandshakeCall) (answer : call.Answer)
    (quiet : Quiet call) : phase.advance ⟨call, answer⟩ = some phase := by
  cases call <;> first | rfl | cases quiet

section Quiet

theorem systemTime_quiet : systemTime.OnlyAsks Quiet := .query rfl

theorem advance_quiet (session : Session) (method : SystemTime → SessionM Unit) :
    (advance session method).OnlyAsks Quiet := by
  refine .bind systemTime_quiet fun now => ?_
  split <;> trivial

theorem readExact_quiet (len : Nat) : (readExact len).OnlyAsks Quiet := .query rfl

theorem writeAll_quiet (data : List UInt8) : (writeAll data).OnlyAsks Quiet := .query rfl

theorem nowUnix_quiet : nowUnix.OnlyAsks Quiet := .bind systemTime_quiet fun _ => trivial

theorem readHandshakeFrame_quiet : readHandshakeFrame.OnlyAsks Quiet :=
  .bind (readExact_quiet _) fun _ => .bind .require fun _ => .bind .require fun _ => .bind .require fun _ =>
    .bind .require fun _ => readExact_quiet _

variable (prims : Primitives) (keypair : AgentKeypair) (th : TranscriptHash) (ch : ClientHello)

theorem verifyClientHello_quiet (hash : Bytes32) (now : UInt64) :
    (verifyClientHello prims ch hash now).OnlyAsks Quiet :=
  .bind .require fun _ => .bind .require fun _ => .bind trivial fun _ => .bind .require fun _ =>
    .bind .require fun _ => .bind (.query rfl) fun _ => .bind .require fun _ => .bind .require fun _ =>
      trivial

theorem sendServerHello_quiet : (sendServerHello prims keypair th ch).OnlyAsks Quiet :=
  .bind (.query rfl) fun _ => .bind nowUnix_quiet fun _ => .bind trivial fun _ =>
    .bind (.bind .require fun _ => .query rfl) fun _ =>
      .bind (.bind (writeAll_quiet _) fun _ => writeAll_quiet _) fun _ => trivial

theorem receiveClientFinished_quiet (clientPublicKey : List UInt8) (sessionId : Bytes32) :
    (receiveClientFinished prims th clientPublicKey sessionId).OnlyAsks Quiet :=
  .bind readHandshakeFrame_quiet fun _ => .bind trivial fun _ => .mapError <|
    .bind .require fun _ => .bind .require fun _ => .bind .require fun _ => .bind (.query rfl) fun _ =>
      .require

end Quiet

theorem obeys_of_quiet {program : Driver α} (quiet : program.OnlyAsks Quiet)
    (returned : ∀ value, post value phase) : program.Obeys ReplayPhase.advance post phase :=
  .of_onlyAsks quiet phase.advance_quiet returned

theorem checkReplay_obeys (admitted : post () (.admitted (makeKey agentId nonce))) :
    (checkReplay true agentId nonce message).Obeys ReplayPhase.advance post .unasked := by
  intro replayed
  cases replayed with
  | true => exact ⟨.settled, rfl, trivial⟩
  | false => exact ⟨.admitted (makeKey agentId nonce), rfl, admitted⟩

theorem receiveClientHello_obeys {post : ClientHello × TranscriptHash × Bytes32 → ReplayPhase → Prop}
    (returned : ∀ value, post value .settled) :
    (receiveClientHello prims tlsBinding true).Obeys ReplayPhase.advance post .unasked := by
  refine .bind (obeys_of_quiet readHandshakeFrame_quiet fun payload => ?_)
  refine .bind (obeys_of_quiet trivial fun ch => .bind (checkReplay_obeys ?_))
  refine .bind (obeys_of_quiet trivial fun chCborBytes => ?_)
  refine .bind (obeys_of_quiet nowUnix_quiet fun now => ?_)
  refine .bind (obeys_of_quiet (.mapError (verifyClientHello_quiet _ _ _ _)) fun clientAgentId => ?_)
  exact .bind (fun _ => ⟨.settled, if_pos rfl, returned _⟩)

theorem driveServerHandshake_obeys :
    (driveServerHandshake prims remoteAddr keypair tlsBinding true).Obeys ReplayPhase.advance
      (fun _ _ => True) .unasked := by
  refine .bind (obeys_of_quiet (.bind systemTime_quiet fun _ => advance_quiet _ _) fun session => ?_)
  refine .bind (obeys_of_quiet (.query rfl) fun _ => .bind (receiveClientHello_obeys fun hello => ?_))
  refine .bind (obeys_of_quiet (sendServerHello_quiet _ _ _ _) fun sent => ?_)
  refine .bind (obeys_of_quiet (receiveClientFinished_quiet _ _ _ _) fun _ => ?_)
  exact .bind (obeys_of_quiet (advance_quiet _ _) fun _ => trivial)

def Awaits (key : CacheKey) : Driver α → Prop
  | .done _ => False
  | .ask call next =>
    (∃ agentId nonce, call = .replayInsert agentId nonce ∧ makeKey agentId nonce = key) ∨
      Quiet call ∧ ∃ answer, Awaits key (next answer)

theorem Awaits.admitted (awaits : Awaits key program)
    (obeys : program.Obeys ReplayPhase.advance post phase) : phase = .admitted key := by
  induction program generalizing phase with
  | done result => exact awaits.elim
  | ask call next ih =>
    rcases awaits with ⟨agentId, nonce, rfl, rfl⟩ | ⟨quiet, answer, later⟩
    · obtain ⟨after, advanced, -⟩ := obeys ()
      by_contra other
      simp [ReplayPhase.advance, other] at advanced
    · obtain ⟨after, advanced, rest⟩ := obeys answer
      rw [phase.advance_quiet call answer quiet] at advanced
      cases advanced
      exact ih answer later rest

theorem not_awaits_driveServerHandshake :
    ¬Awaits key (driveServerHandshake prims remoteAddr keypair tlsBinding true) :=
  fun awaits => nomatch awaits.admitted driveServerHandshake_obeys

def insertedBy : Event Handshaking → Option CacheKey
  | ⟨.replayInsert agentId nonce, _⟩ => some (makeKey agentId nonce)
  | _ => none

def admittedBy : Event Handshaking → Option CacheKey
  | ⟨.replayCheck agentId nonce, false⟩ => some (makeKey agentId nonce)
  | _ => none

variable {event : Event Handshaking}

theorem insertedBy_eq_some : insertedBy event = some key ↔
    ∃ agentId nonce, event = ⟨.replayInsert agentId nonce, ()⟩ ∧ makeKey agentId nonce = key := by
  constructor
  · intro inserts
    obtain ⟨call, answer⟩ := event
    cases call with
    | replayInsert agentId nonce => exact ⟨agentId, nonce, rfl, some.inj inserts⟩
    | _ => cases inserts
  · rintro ⟨agentId, nonce, rfl, rfl⟩
    rfl

theorem admittedBy_eq_some : admittedBy event = some key ↔
    ∃ agentId nonce, event = ⟨.replayCheck agentId nonce, false⟩ ∧ makeKey agentId nonce = key := by
  constructor
  · intro admits
    obtain ⟨call, answer⟩ := event
    cases call with
    | replayCheck agentId nonce =>
      cases answer with
      | true => cases admits
      | false => exact ⟨agentId, nonce, rfl, some.inj admits⟩
    | _ => cases admits
  · rintro ⟨agentId, nonce, rfl, rfl⟩
    rfl

theorem ReplayPhase.advance_eq_admitted {phase : ReplayPhase} (advanced : phase.advance event = some (.admitted key)) :
    Quiet event.call ∨ admittedBy event = some key := by
  obtain ⟨call, answer⟩ := event
  cases call with
  | replayCheck agentId nonce =>
    cases answer <;> simp_all [ReplayPhase.advance, admittedBy]
  | replayInsert agentId nonce => simp [ReplayPhase.advance] at advanced
  | _ => exact .inl rfl

theorem serveReplay_eq_some (served : serveReplay reading event cache = some after) :
    (Quiet event.call ∧ after = cache) ∨
    (∃ agentId nonce, event = ⟨.replayCheck agentId nonce, (cache.check reading agentId nonce).1⟩ ∧
      after = (cache.check reading agentId nonce).2) ∨ ∃ agentId nonce, event = ⟨.replayInsert agentId nonce, ()⟩ ∧
      after = cache.insert reading agentId nonce := by
  obtain ⟨call, answer⟩ := event
  cases call with
  | replayCheck agentId nonce =>
    simp only [serveReplay] at served
    split at served
    next same =>
      cases served
      exact .inr (.inl ⟨agentId, nonce, by rw [same], rfl⟩)
    · cases served
  | replayInsert agentId nonce => exact .inr (.inr ⟨agentId, nonce, rfl, (some.inj served).symm⟩)
  | _ => exact .inl ⟨rfl, (some.inj served).symm⟩

end Aafp.Sdk
