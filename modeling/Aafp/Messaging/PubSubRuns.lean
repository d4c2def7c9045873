import Aafp.Foundation.Machine
import Aafp.Messaging.PubSub

/-! Which messages a pubsub drops. -/
namespace Aafp.Messaging

open Foundation Cbor Identity List

inductive PubSubCall where
  | subscribe (topic : Topic)
  | unsubscribe (topic : Topic)
  | publishLocal (topic : Topic) (sender : AgentId) (data : List UInt8)
  | handleRemoteMessage (params : PublishParams) (sender : AgentId) (reading : SeenReading)

inductive PubSubAnswer where
  | done
  | published (result : Except PubSubError Unit)
  | handled (result : Except PubSubError Bool)

variable (broadcast : Broadcast Channel)

def pubSubMachine : Machine PubSubCall PubSubAnswer (NetworkedPubSub Channel) where
  step pubsub
    | .subscribe topic => (.done, pubsub.subscribe broadcast topic)
    | .unsubscribe topic => (.done, pubsub.unsubscribe topic)
    | .publishLocal topic sender data =>
      let (result, pubsub) := pubsub.publishLocal broadcast topic sender data
      (.published result, pubsub)
    | .handleRemoteMessage params sender reading =>
      let (result, pubsub) := pubsub.handleRemoteMessage broadcast params sender reading
      (.handled result, pubsub)

def PubSubCall.message : PubSubCall → Option TopicMessage
  | .handleRemoteMessage params sender _ => some { topic := params.topic, sender, data := params.data }
  | _ => none

def TopicMessage.msgId (message : TopicMessage) : List UInt8 :=
  asBytes message.topic ++ message.data ++ message.sender.1

def TopicMessage.SpelledAlike (message other : TopicMessage) : Prop :=
  other.sender = message.sender ∧
    asBytes other.topic ++ other.data = asBytes message.topic ++ message.data

theorem TopicMessage.msgId_eq_iff {message other : TopicMessage} :
    other.msgId = message.msgId ↔ message.SpelledAlike other := by
  constructor
  · intro same
    obtain ⟨spelling, sender⟩ := append_inj' same (by rw [other.sender.2, message.sender.2])
    exact ⟨Subtype.ext sender, spelling⟩
  · rintro ⟨sender, spelling⟩
    rw [msgId, msgId, sender, spelling]

def DropsOnlyRepeats (log : List (PubSubCall × PubSubAnswer)) : Prop :=
  ∀ earlier call later, log = earlier ++ (call, .handled (.error .alreadySeen)) :: later →
    ∃ prior ∈ earlier, prior.1.message = call.message

/-- The cache will not find the message expired or evicted. -/
def SeenCache.Remembers (cache : SeenCache) (reading : SeenReading) (message : TopicMessage) : Prop :=
  (cache.evict reading).lookup message.msgId ≠ none

/-- A message that is handled for the first time is not spelled like another one
that is still remembered. -/
def Distinguished (past : List (PubSubCall × PubSubAnswer)) (pubsub : NetworkedPubSub Channel) : PubSubCall → Prop
  | .handleRemoteMessage params sender reading =>
    let message : TopicMessage := { topic := params.topic, sender, data := params.data }
    (∀ prior ∈ past, prior.1.message ≠ some message) →
      ∀ prior ∈ past, ∀ other, prior.1.message = some other → message.SpelledAlike other →
        ¬ pubsub.seenCache.Remembers reading other
  | _ => True

theorem dropsOnlyRepeats_concat : DropsOnlyRepeats (log ++ [(call, answer)]) ↔ DropsOnlyRepeats log ∧
      (answer = .handled (.error .alreadySeen) → ∃ prior ∈ log, prior.1.message = call.message) := by
  constructor
  · intro drops
    refine ⟨fun earlier other later split => ?_, fun seen => ?_⟩
    · exact drops earlier other (later ++ [(call, answer)]) (by rw [split]; simp)
    · exact drops log call [] (by rw [seen])
  · rintro ⟨before, last⟩ earlier other later split
    cases later using reverseRecOn with
    | nil =>
      obtain ⟨rfl, same⟩ := append_inj' split rfl
      cases same
      exact last rfl
    | append_singleton later final =>
      rw [← cons_append, ← append_assoc] at split
      obtain ⟨rfl, -⟩ := append_inj' split rfl
      exact before earlier other later rfl

theorem SeenCache.lookup_of_lookup_evict {cache : SeenCache}
    (found : (cache.evict reading).lookup key = some time) : cache.entries.lookup key = some time := by
  unfold evict at found
  dsimp only at found
  split at found
  · rw [lookup_eraseAll] at found
    split at found
    · cases found
    · exact (lookup_retain_eq_some.mp found).1
  · exact (lookup_retain_eq_some.mp found).1

@[simp] theorem NetworkedPubSub.seenCache_publishLocal
    (pubsub : NetworkedPubSub Channel) (topic : Topic) (sender : AgentId) (data : List UInt8) :
    (pubsub.publishLocal broadcast topic sender data).2.seenCache = pubsub.seenCache := by
  unfold publishLocal
  split
  · rfl
  · split <;> rfl

theorem NetworkedPubSub.handleRemoteMessage_spec (broadcast : Broadcast Channel)
    (pubsub : NetworkedPubSub Channel) (params : PublishParams) (sender : AgentId) (reading : SeenReading) :
    let message : TopicMessage := { topic := params.topic, sender, data := params.data }
    let outcome := pubsub.handleRemoteMessage broadcast params sender reading
    (outcome.1 = .error .alreadySeen ↔ pubsub.seenCache.Remembers reading message) ∧
      outcome.2.seenCache.entries =
        (pubsub.seenCache.evict reading).insert message.msgId reading.now := by
  intro message outcome
  let marked := { pubsub with seenCache := (pubsub.seenCache.checkAndMark reading message.msgId).2 }
  have branches : outcome =
      if ¬ ((pubsub.seenCache.evict reading).lookup message.msgId).isNone then (.error .alreadySeen, marked)
      else (.ok (params.ttl > 0), (marked.publishLocal broadcast params.topic sender params.data).2) := rfl
  by_cases found : (pubsub.seenCache.evict reading).lookup message.msgId = none
  · rw [branches, if_neg (by simp [found])]
    refine ⟨iff_of_false nofun (not_not_intro found), ?_⟩
    rw [seenCache_publishLocal]
    rfl
  · rw [branches, if_pos (by simpa using found)]
    exact ⟨iff_of_true rfl found, rfl⟩

def Handled (past : List (PubSubCall × PubSubAnswer)) (pubsub : NetworkedPubSub Channel) : Prop :=
  ∀ key time, pubsub.seenCache.entries.lookup key = some time →
    ∃ prior ∈ past, ∃ message, prior.1.message = some message ∧ message.msgId = key

variable {past : List (PubSubCall × PubSubAnswer)} {pubsub : NetworkedPubSub Channel}

theorem Handled.later {later : List (PubSubCall × PubSubAnswer)} (handled : Handled past pubsub) :
    Handled (past ++ later) pubsub := by
  intro key time found
  obtain ⟨prior, mem, message, brought, same⟩ := handled key time found
  exact ⟨prior, mem_append_left _ mem, message, brought, same⟩

theorem Handled.step (handled : Handled past pubsub) (broadcast : Broadcast Channel) (call : PubSubCall) :
    Handled (past ++ [(call, ((pubSubMachine broadcast).step pubsub call).1)])
      ((pubSubMachine broadcast).step pubsub call).2 := by
  cases call with
  | subscribe topic => exact handled.later
  | unsubscribe topic => exact handled.later
  | publishLocal topic sender data =>
    intro key time found
    rw [pubSubMachine, NetworkedPubSub.seenCache_publishLocal] at found
    exact handled.later key time found
  | handleRemoteMessage params sender reading =>
    have marked := (pubsub.handleRemoteMessage_spec broadcast params sender reading).2
    intro key time found
    rw [pubSubMachine, marked, lookup_insert_eq_some] at found
    rcases found with ⟨same, -⟩ | ⟨-, before⟩
    · exact ⟨_, mem_concat_self, _, rfl, same⟩
    · exact handled.later key time (SeenCache.lookup_of_lookup_evict before)

theorem handled_run (bufferSize : Nat) (calls : List PubSubCall) :
    Handled ((pubSubMachine broadcast).log (.withBufferSize bufferSize) calls)
      ((pubSubMachine broadcast).after (.withBufferSize bufferSize) calls) := by
  apply Machine.invariant
  · intro key time found
    cases found
  · intro past pubsub call handled
    exact handled.step broadcast call

theorem Handled.drops_iff (handled : Handled past pubsub) (broadcast : Broadcast Channel) (call : PubSubCall) :
    (((pubSubMachine broadcast).step pubsub call).1 = .handled (.error .alreadySeen) →
      ∃ prior ∈ past, prior.1.message = call.message) ↔ Distinguished past pubsub call := by
  cases call with
  | subscribe topic => simp [pubSubMachine, Distinguished]
  | unsubscribe topic => simp [pubSubMachine, Distinguished]
  | publishLocal topic sender data => simp [pubSubMachine, Distinguished]
  | handleRemoteMessage params sender reading =>
    have dropped := (pubsub.handleRemoteMessage_spec broadcast params sender reading).1
    have answer : ((pubSubMachine broadcast).step pubsub
        (.handleRemoteMessage params sender reading)).1 = .handled (.error .alreadySeen) ↔
          pubsub.seenCache.Remembers reading
            { topic := params.topic, sender, data := params.data } := by
      rw [← dropped]
      exact ⟨PubSubAnswer.handled.inj, congrArg PubSubAnswer.handled⟩
    rw [answer, Distinguished, PubSubCall.message]
    generalize ({ topic := params.topic, sender, data := params.data } : TopicMessage) = message
    constructor
    · intro repeated unseen prior mem other brought alike remembered
      have same : other.msgId = message.msgId := TopicMessage.msgId_eq_iff.mpr alike
      rw [SeenCache.Remembers, same] at remembered
      obtain ⟨first, earlier, brings⟩ := repeated remembered
      exact unseen first earlier brings
    · intro distinguished remembered
      by_contra unseen
      -- the remembered id belongs to an earlier message, which is another one
      obtain ⟨time, found⟩ := Option.ne_none_iff_exists'.mp remembered
      obtain ⟨prior, mem, other, brought, same⟩ :=
        handled _ _ (SeenCache.lookup_of_lookup_evict found)
      refine distinguished (fun first earlier brings => unseen ⟨first, earlier, brings⟩) prior mem
        other brought (TopicMessage.msgId_eq_iff.mp same) ?_
      rw [SeenCache.Remembers, same]
      exact remembered

/-- Every dropped message was handled before exactly if none is spelled like another one that is
still remembered when it first comes. -/
theorem drops_only_repeats_iff (bufferSize : Nat) (calls : List PubSubCall) :
    DropsOnlyRepeats ((pubSubMachine broadcast).log (.withBufferSize bufferSize) calls) ↔
      (pubSubMachine broadcast).Meets (.withBufferSize bufferSize) Distinguished calls := by
  induction calls using reverseRecOn with
  | nil =>
    refine iff_of_true ?_ Machine.meets_nil
    intro earlier call later split
    simp [Machine.log] at split
  | append_singleton calls call ih =>
    rw [Machine.log_concat, Machine.meets_concat, dropsOnlyRepeats_concat, ih]
    exact and_congr_right fun _ => (handled_run broadcast bufferSize calls).drops_iff broadcast call

def noReceivers : Broadcast Unit where
  channel _ := ()
  subscribe _ := ()
  send _ _ := .error "channel closed"

/-- One sender publishes `bc` to `a` and `c` to `ab`, within a second. -/
def sameSpelling : List PubSubCall :=
  let sender : AgentId := ⟨replicate 32 7, by decide⟩
  [.handleRemoteMessage { topic := "a", data := asBytes "bc", ttl := 3 } sender ⟨0, .inOrder⟩,
    .handleRemoteMessage { topic := "ab", data := asBytes "c", ttl := 3 } sender ⟨Duration.fromSecs 1, .inOrder⟩]

/-- The second message is dropped, although the sender has published nothing else to `ab`. -/
theorem new_message_dropped : ∃ first second answer, (pubSubMachine noReceivers).log .new sameSpelling =
        [(first, answer), (second, .handled (.error .alreadySeen))] ∧ first.message ≠ second.message ∧
      ¬ DropsOnlyRepeats ((pubSubMachine noReceivers).log .new sameSpelling) := by
  have log : ∃ first second answer,
      (pubSubMachine noReceivers).log .new sameSpelling =
        [(first, answer), (second, .handled (.error .alreadySeen))] ∧
      first.message ≠ second.message := by
    refine ⟨_, _, _, rfl, ?_⟩
    decide
  obtain ⟨first, second, answer, log, different⟩ := log
  refine ⟨first, second, answer, log, different, fun drops => ?_⟩
  obtain ⟨prior, mem, same⟩ := drops [(first, answer)] second [] log
  obtain rfl := mem_singleton.mp mem
  exact different same

end Aafp.Messaging
