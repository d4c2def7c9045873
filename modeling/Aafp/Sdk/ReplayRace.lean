import Aafp.Crypto.ReplayWindow
import Aafp.Sdk.HonestRuns
import Aafp.Sdk.ReplayProtocol

/-! Server handshakes that share one replay cache. -/
namespace Aafp.Sdk

open Foundation Cbor Crypto Aafp.Core Messaging Situation Function

abbrev Handshakes (ι : Type) := Running ι Handshaking Failure (Session × PeerInfo) ReplayCache

abbrev HandshakeMoment (ι : Type) := Moment ι Reading Handshaking

/-- A nonce is looked up while no other handshake is between its own lookup and
its insertion of that nonce. -/
def Alone (before : Handshakes ι) (moment : HandshakeMoment ι) : Prop :=
  ∀ agentId nonce, moment.event.call = .replayCheck agentId nonce →
    ∀ other, other ≠ moment.run → ¬Awaits (makeKey agentId nonce) (before.programs other)

def Roomy (before : Handshakes ι) (moment : HandshakeMoment ι) : Prop :=
  ∀ agentId nonce, moment.event.call = .replayInsert agentId nonce →
    ¬before.shared.EvictsLive moment.reading agentId nonce

/-- Every handshake keeps to one lookup and one insertion, and at most one is
about to insert a given nonce. -/
structure Orderly (running : Handshakes ι) : Prop where
  disciplined : ∀ run, ∃ phase,
    (running.programs run).Obeys ReplayPhase.advance (fun _ _ => True) phase
  exclusive : ∀ key run other, Awaits key (running.programs run) → Awaits key (running.programs other) →
    run = other

/-- A nonce is in the cache until a given time, and no handshake is about to
insert it again. -/
structure Recorded (key : CacheKey) (expiry : Nat) (running : Handshakes ι) : Prop where
  kept : ∃ entry, running.shared.lookup key = some entry ∧ expiry ≤ entry.expiresAt
  unclaimed : ∀ run, ¬Awaits key (running.programs run)

section Steps

variable {ι : Type} [DecidableEq ι] {before after : Handshakes ι} {moment : HandshakeMoment ι}

/-- A handshake that is about to insert a nonce was so before, or has just been
told that the nonce is new. -/
theorem Orderly.awaits_step (orderly : Orderly before) (taken : before.Step serveReplay moment after)
    (awaits : Awaits key (after.programs run)) :
    Awaits key (before.programs run) ∧ (run = moment.run → Quiet moment.event.call) ∨
      run = moment.run ∧ admittedBy moment.event = some key := by
  by_cases same : run = moment.run
  · subst same
    obtain ⟨next, asks, moved⟩ := taken.own
    obtain ⟨phase, obeys⟩ := orderly.disciplined moment.run
    rw [asks] at obeys
    rw [moved] at awaits
    obtain ⟨reached, advanced, rest⟩ := obeys moment.event.answer
    rw [awaits.admitted rest] at advanced
    rcases ReplayPhase.advance_eq_admitted advanced with quiet | admitted
    · refine .inl ⟨?_, fun _ => quiet⟩
      rw [asks]
      exact .inr ⟨quiet, _, awaits⟩
    · exact .inr ⟨rfl, admitted⟩
  · exact .inl ⟨taken.other same ▸ awaits, fun own => absurd own same⟩

theorem awaits_of_inserts (taken : before.Step serveReplay moment after)
    (inserts : insertedBy moment.event = some key) : Awaits key (before.programs moment.run) := by
  obtain ⟨next, asks, -⟩ := taken.own
  obtain ⟨agentId, nonce, same, keyed⟩ := insertedBy_eq_some.mp inserts
  rw [asks]
  exact .inl ⟨agentId, nonce, by rw [same], keyed⟩

theorem Orderly.step (orderly : Orderly before) (alone : Alone before moment)
    (taken : before.Step serveReplay moment after) : Orderly after := by
  constructor
  · intro run
    obtain ⟨phase, obeys⟩ := orderly.disciplined run
    by_cases same : run = moment.run
    · subst same
      obtain ⟨next, asks, moved⟩ := taken.own
      rw [asks] at obeys
      obtain ⟨reached, -, rest⟩ := obeys moment.event.answer
      exact ⟨reached, moved ▸ rest⟩
    · exact ⟨phase, taken.other same ▸ obeys⟩
  · intro key run other first second
    rcases orderly.awaits_step taken first with ⟨awaited, -⟩ | ⟨rfl, admitted⟩
    · rcases orderly.awaits_step taken second with ⟨waited, -⟩ | ⟨rfl, admitted⟩
      · exact orderly.exclusive key run other awaited waited
      · obtain ⟨agentId, nonce, same, rfl⟩ := admittedBy_eq_some.mp admitted
        by_contra apart
        exact alone agentId nonce (by rw [same]) run apart awaited
    · obtain ⟨agentId, nonce, same, rfl⟩ := admittedBy_eq_some.mp admitted
      by_contra apart
      rcases orderly.awaits_step taken second with ⟨waited, -⟩ | ⟨rfl, -⟩
      · exact alone agentId nonce (by rw [same]) other (Ne.symm apart) waited
      · exact apart rfl

theorem Recorded.of_insertion (orderly : Orderly before) (taken : before.Step serveReplay moment after)
    (inserts : insertedBy moment.event = some key) :
    Recorded key (moment.reading.now + before.shared.retention) after := by
  have awaited := awaits_of_inserts taken inserts
  obtain ⟨agentId, nonce, same, rfl⟩ := insertedBy_eq_some.mp inserts
  constructor
  · have served := taken.served
    rw [same] at served
    rw [← Option.some.inj served, ReplayCache.lookup_insert]
    exact ⟨_, rfl, Nat.le_refl _⟩
  · intro run awaits
    rcases orderly.awaits_step taken awaits with ⟨waited, quiet⟩ | ⟨-, admitted⟩
    · have noisy := quiet (orderly.exclusive _ _ _ waited awaited)
      rw [same] at noisy
      cases noisy
    · rw [same] at admitted
      cases admitted

theorem Recorded.step (recorded : Recorded key expiry before) (orderly : Orderly before)
    (roomy : Roomy before moment) (taken : before.Step serveReplay moment after)
    (early : asksCache moment.event.call = true → moment.reading.now < expiry) : Recorded key expiry after := by
  obtain ⟨entry, found, lasts⟩ := recorded.kept
  have live (asks : asksCache moment.event.call = true) : entry.isExpired moment.reading.now = false :=
    decide_eq_false (Nat.not_le.mpr ((early asks).trans_le lasts))
  constructor
  · rcases serveReplay_eq_some taken.served with ⟨-, same⟩ | ⟨agentId, nonce, same, moved⟩ |
      ⟨agentId, nonce, same, moved⟩
    · exact ⟨entry, same ▸ found, lasts⟩
    · obtain ⟨kept, there, stays⟩ :=
        before.shared.check_keeps agentId nonce found (live (by rw [same]; rfl))
      exact ⟨kept, moved ▸ there, stays ▸ lasts⟩
    · have apart : key ≠ makeKey agentId nonce := by
        rintro rfl
        exact recorded.unclaimed _ (awaits_of_inserts taken (insertedBy_eq_some.mpr ⟨_, _, same, rfl⟩))
      have kept := ReplayCache.insert_keeps (roomy agentId nonce (by rw [same])) apart found
        (live (by rw [same]; rfl))
      exact ⟨entry, moved ▸ kept, lasts⟩
  · intro run awaits
    rcases orderly.awaits_step taken awaits with ⟨waited, -⟩ | ⟨-, admitted⟩
    · exact recorded.unclaimed run waited
    · -- the lookup would have found the entry
      obtain ⟨agentId, nonce, same, rfl⟩ := admittedBy_eq_some.mp admitted
      have served := taken.served
      have known := ReplayCache.check_live found (live (by rw [same]; rfl))
      simp [same, serveReplay, known] at served

theorem retention_step (taken : before.Step serveReplay moment after) :
    after.shared.retention = before.shared.retention := by
  rcases serveReplay_eq_some taken.served with ⟨-, same⟩ | ⟨agentId, nonce, -, moved⟩ |
    ⟨agentId, nonce, -, moved⟩
  · rw [same]
  · rw [moved, (before.shared.check_moves moment.reading agentId nonce).retention]
  · rw [moved, (before.shared.insert_moves moment.reading agentId nonce).retention]

variable {allowed : Handshakes ι → HandshakeMoment ι → Prop} {start final : Handshakes ι}

theorem Orderly.run (orderly : Orderly start) (run : Interleaves serveReplay allowed start log final)
    (alone : ∀ before moment, allowed before moment → Alone before moment) : Orderly final :=
  run.invariant Orderly orderly fun _ _ _ _ permitted taken orderly =>
    orderly.step (alone _ _ permitted) taken

theorem Recorded.run (recorded : Recorded key expiry start) (orderly : Orderly start)
    (run : Interleaves serveReplay allowed start log final)
    (alone : ∀ before moment, allowed before moment → Alone before moment)
    (roomy : ∀ before moment, allowed before moment → Roomy before moment)
    (early : ∀ moment ∈ log, asksCache moment.event.call = true → moment.reading.now < expiry) :
    Recorded key expiry final := by
  have both := run.invariant (fun running => Orderly running ∧ Recorded key expiry running)
    ⟨orderly, recorded⟩ fun before moment after mem permitted taken ⟨orderly, recorded⟩ =>
      ⟨orderly.step (alone _ _ permitted) taken,
        recorded.step orderly (roomy _ _ permitted) taken (early moment mem)⟩
  exact both.2

end Steps

structure Connection where
  remoteAddr : String
  keypair : AgentKeypair
  tlsBinding : Bytes32

def serving (prims : Primitives) (connections : ι → Connection) (cache : ReplayCache) : Handshakes ι where
  programs run := driveServerHandshake prims (connections run).remoteAddr (connections run).keypair
    (connections run).tlsBinding true
  shared := cache

/-- Between two insertions of a nonce, the cache reads a time when the retention
of the first is over. -/
def InsertsOnce (retention : Nat) (log : List (HandshakeMoment ι)) : Prop :=
  ∀ past first middle second future key, log = past ++ first :: (middle ++ second :: future) →
    insertedBy first.event = some key → insertedBy second.event = some key →
    ∃ moment ∈ middle, asksCache moment.event.call = true ∧
      first.reading.now + retention ≤ moment.reading.now

theorem InsertsOnce.between {first second : HandshakeMoment ι}
    (once : InsertsOnce retention (past ++ (front ++ first :: back) ++ (front' ++ second :: future)))
    (inserted : insertedBy first.event = some key) (again : insertedBy second.event = some key) :
    ∃ moment ∈ back ++ front', asksCache moment.event.call = true ∧
      first.reading.now + retention ≤ moment.reading.now :=
  once (past ++ front) first (back ++ front') second future key (by simp) inserted again

/-- No nonce is inserted twice within its retention if every lookup is alone and no live entry is
evicted. -/
theorem driveServerHandshake_inserts_once [DecidableEq ι] {connections : ι → Connection}
    (run : Interleaves serveReplay (fun before moment => Alone before moment ∧ Roomy before moment)
      (serving prims connections cache) log after) : InsertsOnce cache.retention log := by
  rintro past first middle second future key rfl inserted again
  by_contra early
  push Not at early
  obtain ⟨here, there, sofar, ⟨alone, -⟩, taken, later⟩ := run.cut
  have begun : Orderly (serving prims connections cache) := ⟨fun _ => ⟨.unasked, driveServerHandshake_obeys⟩,
    fun _ _ _ awaits => absurd awaits not_awaits_driveServerHandshake⟩
  have orderly := begun.run sofar fun _ _ => And.left
  have recorded := Recorded.of_insertion orderly taken inserted
  have retention := sofar.invariant (fun running => running.shared.retention = cache.retention) rfl
    fun _ _ _ _ _ taken same => (retention_step taken).trans same
  rw [retention] at recorded
  obtain ⟨last, _, between, -, repeated, -⟩ := later.cut
  have still := recorded.run (orderly.step alone taken) between (fun _ _ => And.left) (fun _ _ => And.right)
    early
  exact still.unclaimed _ (awaits_of_inserts repeated again)

theorem alone_of_quiet (quiet : Quiet moment.event.call) : Alone before moment := by
  intro agentId nonce same
  rw [same] at quiet
  cases quiet

theorem roomy_of_quiet (quiet : Quiet moment.event.call) : Roomy before moment := by
  intro agentId nonce same
  rw [same] at quiet
  cases quiet

theorem interleaves_around [DecidableEq ι] {allowed : Handshakes ι → HandshakeMoment ι → Prop}
    {before : Handshakes ι}
    (lenient : ∀ here (moment : HandshakeMoment ι), Quiet moment.event.call → allowed here moment)
    (reaches : (before.programs run).Reaches (front ++ event :: back) target)
    (quietFront : ∀ event ∈ front, Quiet event.call) (quietBack : ∀ event ∈ back, Quiet event.call)
    (served : serveReplay reading event before.shared = some after)
    (permitted : ∀ program, allowed ⟨update before.programs run program, before.shared⟩
      ⟨run, reading, event⟩) :
    Interleaves serveReplay allowed before ((front ++ event :: back).map (Moment.mk run reading))
      ⟨update before.programs run target, after⟩ := by
  have current : before = ⟨update before.programs run (before.programs run), before.shared⟩ := by
    rw [update_eq_self]
  obtain ⟨asking, first, rest⟩ := reaches.cut front
  obtain ⟨answered, second, third⟩ := rest.cut [event]
  rw [List.map_append]
  nth_rewrite 1 [current]
  refine .trans (.stretch reading first (fun event mem => serveReplay_quiet (quietFront event mem) _ _)
    fun here event mem => lenient here _ (quietFront event mem)) ?_
  refine .trans (.once second served (permitted asking)) ?_
  exact .stretch reading third (fun event mem => serveReplay_quiet (quietBack event mem) _ _)
    fun here event mem => lenient here _ (quietBack event mem)

namespace ServerRun

variable (prims : Primitives) (keypair : AgentKeypair) (tlsBinding : Bytes32) (run : ServerRun)

def beforeLookup : List (Event Handshaking) :=
  [⟨.systemTime, run.created⟩, ⟨.systemTime, run.established⟩, ⟨.acceptBi, .ok ()⟩,
    readEvent run.helloHeader, readEvent run.helloPayload]

def verification : List (Event Handshaking) :=
  [⟨.systemTime, run.verifyTime⟩, verifyEvent run.ch.publicKey (run.thCh prims tlsBinding).current run.ch.signature]

def afterInsertion : List (Event Handshaking) :=
  [⟨.generateNonce, run.nonce⟩, ⟨.systemTime, run.helloTime⟩,
    ⟨.sign keypair.secretKey (signatureInput (run.thSh prims keypair tlsBinding).current), run.helloSignature⟩] ++
    handshakeFrame (serverHelloCodec.encodeMessage (run.sh prims keypair tlsBinding)) ++
    [readEvent run.finishedHeader, readEvent run.finishedPayload, verifyEvent run.ch.publicKey
      (run.thSh prims keypair tlsBinding).current run.cf.signature, ⟨.systemTime, run.identified⟩]

def lookup : Event Handshaking := ⟨.replayCheck run.ch.agentId run.ch.nonce, false⟩

def recording : Event Handshaking := ⟨.replayInsert run.ch.agentId run.ch.nonce, ()⟩

theorem events_cached : run.events prims keypair tlsBinding true = (run.beforeLookup ++ run.lookup :: []) ++
      (run.verification prims tlsBinding ++ run.recording :: run.afterInsertion prims keypair tlsBinding) := by
  rfl

theorem verification_quiet : ∀ event ∈ run.verification prims tlsBinding, Quiet event.call := by
  simp [verification, verifyEvent, Quiet, asksCache]

theorem afterInsertion_quiet : ∀ event ∈ run.afterInsertion prims keypair tlsBinding, Quiet event.call := by
  simp [afterInsertion, handshakeFrame, writeEvent, readEvent, verifyEvent, Quiet, asksCache]

end ServerRun

namespace Situation

def connection (situation : Situation) : Connection := ⟨"", situation.server, situation.tlsBinding⟩

def asking (prims : Primitives) (situation : Situation) : List (Event Handshaking) :=
  (situation.serverRun prims).beforeLookup ++ (situation.serverRun prims).lookup :: []

def admitting (prims : Primitives) (situation : Situation) : List (Event Handshaking) :=
  let run := situation.serverRun prims
  run.verification prims situation.tlsBinding ++
    run.recording :: run.afterInsertion prims situation.server situation.tlsBinding

theorem genuine_asking_admitting {situation : Situation} (sound : situation.Sound prims) :
    Genuine prims (situation.asking prims) ∧ Genuine prims (situation.admitting prims) := by
  have genuine := serverRun_genuine sound true
  rwa [ServerRun.events_cached, genuine_append] at genuine

theorem server_reaches {situation : Situation} (sound : situation.Sound prims) : ∃ opened outcome,
      (driveServerHandshake prims situation.connection.remoteAddr situation.connection.keypair
        situation.connection.tlsBinding true).Reaches (situation.asking prims) opened ∧
      opened.Reaches (situation.admitting prims) (.done (.ok outcome)) := by
  have whole : (driveServerHandshake prims situation.connection.remoteAddr situation.connection.keypair
      situation.connection.tlsBinding true).Yields _ _ :=
    driveServerHandshake_yields.mpr ⟨situation.serverRun prims, serverRun_valid sound, rfl, rfl⟩
  rw [ServerRun.events_cached] at whole
  obtain ⟨opened, first, second⟩ := whole.cut _
  exact ⟨opened, _, first, second⟩

section Steps

variable {ι : Type} [DecidableEq ι] {allowed : Handshakes ι → HandshakeMoment ι → Prop}
  {situation : Situation} (before : Handshakes ι) (run : ι) (reading : Reading)

section

variable (lenient : ∀ here (moment : HandshakeMoment ι), Quiet moment.event.call → allowed here moment)
include lenient

theorem interleaves_asking (reaches : (before.programs run).Reaches (situation.asking prims) target)
    (served : serveReplay reading (situation.serverRun prims).lookup before.shared = some cache)
    (permitted : ∀ program, allowed ⟨update before.programs run program, before.shared⟩
      ⟨run, reading, (situation.serverRun prims).lookup⟩) :
    Interleaves serveReplay allowed before ((situation.asking prims).map (Moment.mk run reading))
      ⟨update before.programs run target, cache⟩ :=
  interleaves_around lenient reaches (by simp [ServerRun.beforeLookup, readEvent, Quiet, asksCache])
    (by simp) served permitted

theorem interleaves_admitting (reaches : (before.programs run).Reaches (situation.admitting prims) target)
    (permitted : ∀ program, allowed ⟨update before.programs run program, before.shared⟩
      ⟨run, reading, (situation.serverRun prims).recording⟩) :
    Interleaves serveReplay allowed before ((situation.admitting prims).map (Moment.mk run reading))
      ⟨update before.programs run target, before.shared.insert reading
        (situation.serverRun prims).ch.agentId (situation.serverRun prims).ch.nonce⟩ :=
  interleaves_around lenient reaches (ServerRun.verification_quiet _ _ _)
    (ServerRun.afterInsertion_quiet _ _ _ _) rfl permitted

end

end Steps

def twice (second : Bool) : Situation :=
  { sample with tlsBinding := .filled (if second then 1 else 0) }

theorem twice_sound (second : Bool) : (twice second).Sound .standIn :=
  ⟨sample_sound.client, sample_sound.server, sample_sound.clientLive, sample_sound.serverLive⟩

end Situation

theorem roomy_new (moment : HandshakeMoment ι) : Roomy ⟨programs, .new⟩ moment := by
  rintro agentId nonce - ⟨-, full, -⟩
  exact absurd full (show ¬100000 ≤ 0 by decide)

theorem roomy_of_live
    (found : before.shared.lookup key = some entry) (live : entry.isExpired moment.reading.now = false)
    (inserts : insertedBy moment.event = some key) : Roomy before moment := by
  obtain ⟨agentId, nonce, same, rfl⟩ := insertedBy_eq_some.mp inserts
  rintro otherId other called ⟨absent, -⟩
  rw [same] at called
  cases called
  have kept := (before.shared.lazyEvict_shrunk moment.reading).keep _ _ found live
  rw [kept] at absent
  cases absent

/-- Two handshakes look the same nonce up, both verify their ClientHello, both
insert the nonce, and both open a session. -/
theorem driveServerHandshake_nonce_opens_two_sessions : ∃ log after, Interleaves serveReplay Roomy
        (serving .standIn (fun second => (twice second).connection) .new) log after ∧
      (∀ moment ∈ log, GenuineEvent .standIn moment.event) ∧
      (∀ second, ∃ session, after.programs second = .done (.ok session)) ∧
      ¬InsertsOnce ReplayCache.new.retention log := by
  obtain ⟨opened, outcome, first, rest⟩ := server_reaches (twice_sound false)
  obtain ⟨opened', outcome', first', rest'⟩ := server_reaches (twice_sound true)
  let start := serving .standIn (fun second => (twice second).connection) .new
  let reading := ReplayCache.readingAt 0
  have quiet (here : Handshakes Bool) (moment : HandshakeMoment Bool) :
    Quiet moment.event.call → Roomy here moment := roomy_of_quiet
  let one : Handshakes Bool := ⟨update start.programs false opened, .new⟩
  let both : Handshakes Bool := ⟨update one.programs true opened', .new⟩
  have asks : Interleaves serveReplay Roomy start _ one :=
    interleaves_asking start false reading quiet first rfl fun _ => roomy_new _
  have asks' : Interleaves serveReplay Roomy one _ both :=
    interleaves_asking one true reading quiet first' rfl fun _ => roomy_new _
  have admits := interleaves_admitting both false reading quiet rest fun _ => roomy_new _
  have admits' := interleaves_admitting ⟨update both.programs false (.done (.ok outcome)),
    ReplayCache.new.insert reading _ _⟩ true reading quiet rest' fun _ =>
      roomy_of_live (ReplayCache.lookup_insert _ _ _ _) rfl rfl
  refine ⟨_, _, ((asks.trans asks').trans admits).trans admits', ?_, ?_, ?_⟩
  · have genuine := genuine_asking_admitting (twice_sound false)
    have genuine' := genuine_asking_admitting (twice_sound true)
    simp only [List.forall_mem_append, List.forall_mem_map]
    exact ⟨⟨⟨genuine.1, genuine'.1⟩, genuine.2⟩, genuine'.2⟩
  · intro second
    cases second with
    | false => exact ⟨outcome, rfl⟩
    | true => exact ⟨outcome', rfl⟩
  · intro once
    simp only [admitting, List.map_append, List.map_cons] at once
    obtain ⟨moment, mem, noisy, -⟩ := once.between rfl rfl
    -- from the first insertion to the second, no call goes to the cache
    rcases List.mem_append.mp mem with after | before
    · obtain ⟨event, there, rfl⟩ := List.mem_map.mp after
      exact nomatch noisy.symm.trans (ServerRun.afterInsertion_quiet _ _ _ _ event there)
    · obtain ⟨event, there, rfl⟩ := List.mem_map.mp before
      exact nomatch noisy.symm.trans (ServerRun.verification_quiet _ _ _ event there)

theorem alone_of_other (passive : ∀ key, ¬Awaits key (before.programs (!moment.run))) : Alone before moment := by
  intro agentId nonce _ other apart
  rw [Bool.eq_not.mpr apart]
  exact passive _

/-- The second handshake starts when the retention of the nonce is over, and
both open a session. -/
theorem driveServerHandshake_inserts_once_later :
    ∃ log after, Interleaves serveReplay (fun before moment => Alone before moment ∧ Roomy before moment)
        (serving .standIn (fun second => (twice second).connection) .new) log after ∧
      (∀ second, ∃ session, after.programs second = .done (.ok session)) ∧
      InsertsOnce ReplayCache.new.retention log := by
  obtain ⟨opened, outcome, first, rest⟩ := server_reaches (twice_sound false)
  obtain ⟨opened', outcome', first', rest'⟩ := server_reaches (twice_sound true)
  let start := serving .standIn (fun second => (twice second).connection) .new
  let run := (twice false).serverRun .standIn
  let reading := ReplayCache.readingAt 0
  let later := ReplayCache.readingAt ReplayCache.new.retention
  have quiet (here : Handshakes Bool) (moment : HandshakeMoment Bool)
      (calls : Quiet moment.event.call) : Alone here moment ∧ Roomy here moment :=
    ⟨alone_of_quiet calls, roomy_of_quiet calls⟩
  let recorded := ReplayCache.new.insert reading run.ch.agentId run.ch.nonce
  have fresh : (recorded.check later run.ch.agentId run.ch.nonce).1 = false := by decide +kernel
  let free := (recorded.check later run.ch.agentId run.ch.nonce).2
  have small : ¬(free.lazyEvict later).len ≥ (free.lazyEvict later).maxEntries := by decide +kernel
  let one : Handshakes Bool := ⟨update start.programs false opened, .new⟩
  let done : Handshakes Bool := ⟨update one.programs false (.done (.ok outcome)), recorded⟩
  let two : Handshakes Bool := ⟨update done.programs true opened', free⟩
  have asks : Interleaves serveReplay _ start _ one :=
    interleaves_asking start false reading quiet first rfl fun _ =>
      ⟨alone_of_other fun _ => not_awaits_driveServerHandshake, by rintro _ _ ⟨⟩⟩
  have admits : Interleaves serveReplay _ one _ done :=
    interleaves_admitting one false reading quiet rest fun _ =>
      ⟨by rintro _ _ ⟨⟩, roomy_new _⟩
  have asks' : Interleaves serveReplay _ done _ two :=
    interleaves_asking done true later quiet first' (if_pos fresh) fun _ =>
      ⟨alone_of_other fun _ awaits => awaits, by rintro _ _ ⟨⟩⟩
  have admits' := interleaves_admitting two true later quiet rest' fun _ =>
    ⟨by rintro _ _ ⟨⟩, fun _ _ _ evicts => small evicts.2.1⟩
  have whole := ((asks.trans admits).trans asks').trans admits'
  refine ⟨_, _, whole, fun second => ?_, driveServerHandshake_inserts_once whole⟩
  cases second with
  | false => exact ⟨outcome, rfl⟩
  | true => exact ⟨outcome', rfl⟩

end Aafp.Sdk
