import Aafp.Foundation.Machine
import Aafp.Identity.ReputationGossip

/-! When every source of reputation updates has one vote on each agent. -/
namespace Aafp.Identity

open Foundation Crypto List ReputationUpdate

variable (other : TallyOrder)

section resolution

variable {pass : TallyOrder} {current : ReputationUpdate}
  {alternatives all : List ReputationUpdate}

theorem group_of_mem_iterate (visited : entry ∈ pass.iterate (tally all)) :
    entry.2 = all.filter (fun update => update.score.overall = entry.1) := by
  have found := mem_iterate.mp visited
  rw [tally] at found
  rw [← getD_lookup_groupBy, found, Option.getD_some]

theorem laterWinner_eq_some
    (won : laterWinner winner best = some update) : update = best ∨ winner = some update := by
  unfold laterWinner at won
  split at won
  · exact .inl (Option.some.inj won).symm
  · split at won
    · exact .inl (Option.some.inj won).symm
    · exact .inr won

def Majority (all : List ReputationUpdate) (score : UInt8) : Prop :=
  (all.filter fun update => update.score.overall = score).length * 2 > all.length

theorem majority_of_majorityWinner (won : majorityWinner pass all = some winner) :
    Majority all winner.score.overall ∧ maxBy (compareOn timestamp)
      (all.filter fun update => update.score.overall = winner.score.overall) = some winner := by
  have every : ∀ update, majorityWinner pass all = some update →
      majorityBest all.length (all.filter fun other => other.score.overall = update.score.overall) = some update := by
    apply foldlRecOn (motive := fun winner => ∀ update, winner = some update →
      majorityBest all.length (all.filter fun other => other.score.overall = update.score.overall) = some update)
    · exact nofun
    · intro winner before entry visited update found
      unfold majorityStep at found
      split at found
      next best majority =>
        rcases laterWinner_eq_some found with rfl | earlier
        · have group := group_of_mem_iterate visited
          have mem := mem_of_maxBy (Option.ite_none_right_eq_some.mp majority).2
          rw [group] at mem
          rw [of_decide_eq_true (mem_filter.mp mem).2, ← group]
          exact majority
        · exact before update earlier
      next => exact before update found
  exact Option.ite_none_right_eq_some.mp (every winner won)

theorem mem_of_majorityWinner (won : majorityWinner pass all = some winner) : winner ∈ all :=
  mem_of_mem_filter (mem_of_maxBy (majority_of_majorityWinner won).2)

theorem conflictResolution_mem : conflictResolution pass current alternatives ∈ current :: alternatives := by
  unfold conflictResolution
  split
  next winner won => exact mem_of_majorityWinner won
  next =>
    obtain ⟨item, mem, found⟩ := exists_maxBy
      (compareLex (compareOn timestamp) (compareOn fun update => update.score.overall.toUInt64))
      (cons_ne_nil current alternatives)
    rw [found]
    exact mem

theorem majorityStep_comm
    (firstVisited : first ∈ pass.iterate (tally all)) (secondVisited : second ∈ pass.iterate (tally all))
    (winner : Option ReputationUpdate) : majorityStep all.length (majorityStep all.length winner first) second =
      majorityStep all.length (majorityStep all.length winner second) first := by
  have firstGroup := group_of_mem_iterate firstVisited
  have secondGroup := group_of_mem_iterate secondVisited
  by_cases same : first.1 = second.1
  · have sameGroup : first.2 = second.2 := by rw [firstGroup, secondGroup, same]
    simp only [majorityStep, sameGroup]
  · have apart : ∀ update : ReputationUpdate, decide (update.score.overall = first.1) →
        ¬ decide (update.score.overall = second.1) := by
      intro update here there
      exact same ((of_decide_eq_true here).symm.trans (of_decide_eq_true there))
    have few := length_filter_add_le _ _ apart all
    rw [← firstGroup, ← secondGroup] at few
    by_cases majority : first.2.length * 2 > all.length
    · have minority : ¬ second.2.length * 2 > all.length := by omega
      simp only [majorityStep, majorityBest, if_neg minority]
    · simp only [majorityStep, majorityBest, if_neg majority]

theorem conflictResolution_pass :
    conflictResolution pass current alternatives = conflictResolution other current alternatives := by
  have same : majorityWinner pass (current :: alternatives) = majorityWinner other (current :: alternatives) := by
    apply ((pass.perm _).trans (other.perm _).symm).foldl_eq'
    exact fun _ first _ second winner => majorityStep_comm first second winner
  rw [conflictResolution, same, conflictResolution]

end resolution

/-- The first of the latest updates by a source about an agent. -/
def newest (merged : List ReputationUpdate) (agent source : AgentId) : Option ReputationUpdate :=
  minBy (fun left right => compare right.timestamp left.timestamp)
    (merged.filter fun update => update.agentId = agent ∧ update.source = source)

namespace LocalEntry

/-- An update by another source than the one that counts is the first by its source, and does not change
which one counts. -/
def Suits (entry : LocalEntry) (incoming : ReputationUpdate) : Prop :=
  entry.update.source ≠ incoming.source → (∀ other ∈ entry.alternatives, other.source ≠ incoming.source) ∧
    (conflictResolution .inOrder entry.update (entry.alternatives ++ [incoming])).source = entry.update.source

end LocalEntry

namespace LocalState

/-- The listed updates about an agent are by different sources. -/
def Distinct (state : LocalState) : Prop :=
  ∀ agent, ((state.allUpdatesFor agent).map source).Nodup

def Suits (state : LocalState) (incoming : ReputationUpdate) : Prop :=
  ∀ entry, state.lookup incoming.agentId = some entry → entry.Suits incoming

def Recorded (merged : List ReputationUpdate) (state : LocalState) : Prop :=
  ∀ agent, ∀ update ∈ state.allUpdatesFor agent, update ∈ merged ∧ update.agentId = agent

end LocalState

/-- Of every source that has reported on an agent, exactly one update is listed: the newest. -/
def OneVotePerSource (merged : List ReputationUpdate) (allUpdatesFor : AgentId → List ReputationUpdate) : Prop :=
  ∀ agent source update, newest merged agent source = some update →
    (allUpdatesFor agent).filter (·.source = source) = [update]

section newest

variable {merged : List ReputationUpdate} {agent source : AgentId} {update incoming : ReputationUpdate}

theorem newest_concat_of_none (silent : newest merged incoming.agentId incoming.source = none) :
    newest (merged ++ [incoming]) incoming.agentId incoming.source = some incoming := by
  unfold newest at silent ⊢
  rw [filter_append, filter_singleton, decide_eq_true ⟨rfl, rfl⟩, cond_true, minBy_concat, silent]

theorem newest_concat_of_some (found : newest merged incoming.agentId incoming.source = some update) :
    newest (merged ++ [incoming]) incoming.agentId incoming.source =
      some (if incoming.timestamp > update.timestamp then incoming else update) := by
  unfold newest at found ⊢
  rw [filter_append, filter_singleton, decide_eq_true ⟨rfl, rfl⟩, cond_true, minBy_concat, found]
  simp only [Std.compare_eq_gt, gt_iff_lt]
  rw [apply_ite some]

theorem newest_concat_other (other : ¬ (incoming.agentId = agent ∧ incoming.source = source)) :
    newest (merged ++ [incoming]) agent source = newest merged agent source := by
  unfold newest
  rw [filter_append, filter_singleton, decide_eq_false other, cond_false, append_nil]

theorem exists_newest (mem : update ∈ merged) (about : update.agentId = agent) :
    ∃ other, newest merged agent update.source = some other := by
  have present : update ∈ merged.filter (fun other => other.agentId = agent ∧ other.source = update.source) := by
    simp [mem, about]
  obtain ⟨least, -, found⟩ :=
    exists_minBy (fun left right => compare right.timestamp left.timestamp) (ne_nil_of_mem present)
  exact ⟨least, found⟩

/-- For every source exactly the newest update by it is listed, if there is one. -/
def Votes (merged : List ReputationUpdate) (agent : AgentId) (updates : List ReputationUpdate) : Prop :=
  ∀ source, updates.filter (·.source = source) = (newest merged agent source).toList

theorem Votes.concat (votes : Votes merged incoming.agentId updates)
    (first : ∀ update ∈ updates, update.source ≠ incoming.source) :
    Votes (merged ++ [incoming]) incoming.agentId (updates ++ [incoming]) := by
  intro source
  rw [filter_append, votes]
  by_cases same : incoming.source = source
  · subst same
    have silent : newest merged incoming.agentId incoming.source = none := by
      rw [← Option.toList_eq_nil_iff, ← votes]
      simpa using first
    simp [silent, newest_concat_of_none silent]
  · simp [same, newest_concat_other fun both => same both.2]

theorem Votes.replace (votes : Votes merged incoming.agentId (current :: others))
    (same : current.source = incoming.source) : Votes (merged ++ [incoming]) incoming.agentId
      ((if incoming.timestamp > current.timestamp then incoming else current) :: others) := by
  have later : (if incoming.timestamp > current.timestamp then incoming else current).source = incoming.source := by
    split
    · rfl
    · exact same
  intro source
  have before := votes source
  rw [filter_cons] at before ⊢
  rw [later]
  rw [same] at before
  by_cases bySame : incoming.source = source
  · subst bySame
    rw [decide_eq_true rfl] at before ⊢
    cases found : newest merged incoming.agentId incoming.source with
    | none =>
      rw [found] at before
      cases before
    | some update =>
      rw [found] at before
      obtain ⟨rfl, none⟩ := cons.inj before
      rw [none, newest_concat_of_some found]
      rfl
  · rw [decide_eq_false bySame] at before ⊢
    rw [newest_concat_other fun both => bySame both.2]
    exact before

end newest

namespace LocalEntry

variable {pass : TallyOrder} {entry : LocalEntry} {incoming : ReputationUpdate}

def listed (entry : LocalEntry) : List ReputationUpdate := entry.update :: entry.alternatives

theorem merge_same (same : entry.update.source = incoming.source) : (entry.merge pass incoming).1.listed =
      (if incoming.timestamp > entry.update.timestamp then incoming else entry.update) :: entry.alternatives := by
  rw [merge, if_pos same]
  split <;> rfl

theorem sources_merge_other (other : entry.update.source ≠ incoming.source) :
    (entry.merge pass incoming).1.listed.map source =
      (conflictResolution pass entry.update (entry.alternatives ++ [incoming])).source ::
        (entry.alternatives ++ [incoming]).map source := by
  rw [merge, if_neg other]
  dsimp only
  split
  next => rfl
  next unchanged =>
    push Not at unchanged
    rw [unchanged.1]
    rfl

theorem suits_of_distinct (distinct : ((entry.merge pass incoming).1.listed.map source).Nodup) :
    (entry.listed.map source).Nodup ∧ entry.Suits incoming := by
  by_cases same : entry.update.source = incoming.source
  · have sources : (entry.merge pass incoming).1.listed.map source = entry.listed.map source := by
      rw [merge_same same, listed, map_cons, map_cons]
      split
      · rw [same]
      · rfl
    exact ⟨sources ▸ distinct, fun other => absurd same other⟩
  · rw [sources_merge_other same, nodup_cons] at distinct
    -- a resolution for another update would list that one twice
    have resolved : conflictResolution pass entry.update (entry.alternatives ++ [incoming]) = entry.update :=
      (mem_cons.mp conflictResolution_mem).resolve_right fun chosen => distinct.1 (mem_map_of_mem chosen)
    have nodup : ((entry.listed ++ [incoming]).map source).Nodup := nodup_cons.mpr (resolved ▸ distinct)
    rw [map_append, nodup_append] at nodup
    refine ⟨nodup.1, fun _ => ⟨fun update mem => ?_, ?_⟩⟩
    · exact nodup.2.2 _ (mem_map_of_mem (mem_cons_of_mem _ mem)) _ (mem_singleton.mpr rfl)
    · rw [conflictResolution_pass pass, resolved]

theorem listed_merge_of_suits (votes : Votes merged agent entry.listed) (suits : entry.Suits incoming)
    (other : entry.update.source ≠ incoming.source) :
    (entry.merge pass incoming).1.listed = entry.listed ++ [incoming] := by
  have kept := (suits other).2
  rw [conflictResolution_pass pass] at kept
  have resolved : conflictResolution pass entry.update (entry.alternatives ++ [incoming]) = entry.update := by
    refine (mem_cons.mp conflictResolution_mem).resolve_right fun chosen => ?_
    rcases mem_append.mp chosen with earlier | last
    · have alone := congrArg length (votes entry.update.source)
      have twice : 0 < (entry.alternatives.filter (·.source = entry.update.source)).length :=
        length_pos_of_mem (mem_filter.mpr ⟨earlier, decide_eq_true kept⟩)
      have single := Option.length_toList_le (o := newest merged agent entry.update.source)
      rw [listed, filter_cons, decide_eq_true rfl, if_pos rfl, length_cons] at alone
      omega
    · rw [mem_singleton.mp last] at kept
      exact other kept.symm
  rw [merge, if_neg other]
  simp only [resolved, ne_eq, not_true_eq_false, or_self, if_false]
  rfl

theorem votes_merge (votes : Votes merged incoming.agentId entry.listed) (suits : entry.Suits incoming) :
    Votes (merged ++ [incoming]) incoming.agentId (entry.merge pass incoming).1.listed := by
  by_cases same : entry.update.source = incoming.source
  · rw [merge_same same]
    exact votes.replace same
  · rw [listed_merge_of_suits votes suits same]
    exact votes.concat (forall_mem_cons.mpr ⟨same, (suits same).1⟩)

theorem mem_listed_merge {update : ReputationUpdate} (mem : update ∈ (entry.merge pass incoming).1.listed) :
    update ∈ entry.listed ++ [incoming] := by
  by_cases same : entry.update.source = incoming.source
  · rw [merge_same same] at mem
    rcases mem_cons.mp mem with rfl | alternative
    · split
      · simp
      · simp [listed]
    · simp [listed, alternative]
  · rw [merge, if_neg same] at mem
    dsimp only at mem
    split at mem
    · rcases mem_cons.mp mem with rfl | alternative
      · exact conflictResolution_mem
      · exact mem_cons_of_mem _ alternative
    · exact mem

end LocalEntry

namespace LocalState

variable {pass : TallyOrder} {state : LocalState} {incoming : ReputationUpdate}

theorem allUpdatesFor_eq (agent : AgentId) :
    state.allUpdatesFor agent = ((state.lookup agent).map LocalEntry.listed).getD [] := by
  unfold allUpdatesFor
  split
  next absent => rw [absent]; rfl
  next entry found => rw [found]; rfl

def listedAfter (pass : TallyOrder) (state : LocalState)
    (incoming : ReputationUpdate) : List ReputationUpdate :=
  match state.lookup incoming.agentId with
  | none => [incoming]
  | some entry => (entry.merge pass incoming).1.listed

theorem allUpdatesFor_merge (agent : AgentId) : (state.merge pass incoming).1.allUpdatesFor agent =
      if agent = incoming.agentId then listedAfter pass state incoming else state.allUpdatesFor agent := by
  rw [allUpdatesFor_eq, allUpdatesFor_eq, merge, listedAfter]
  by_cases about : agent = incoming.agentId
  · subst about
    cases state.lookup incoming.agentId with
    | none => simp [LocalEntry.listed]
    | some entry => simp
  · cases state.lookup incoming.agentId with
    | none => simp [about]
    | some entry => simp [about]

theorem suits_of_distinct (distinct : (state.merge pass incoming).1.Distinct) :
    state.Distinct ∧ state.Suits incoming := by
  simp only [Distinct, allUpdatesFor_merge] at distinct
  have here : ((state.allUpdatesFor incoming.agentId).map source).Nodup ∧ state.Suits incoming := by
    have after := distinct incoming.agentId
    rw [if_pos rfl, listedAfter] at after
    rw [allUpdatesFor_eq, Suits]
    cases found : state.lookup incoming.agentId with
    | none => simp
    | some entry =>
      rw [found] at after
      simpa using LocalEntry.suits_of_distinct after
  refine ⟨fun agent => ?_, here.2⟩
  by_cases about : agent = incoming.agentId
  · exact about ▸ here.1
  · have other := distinct agent
    rwa [if_neg about] at other

theorem votes_merge (votes : ∀ agent, Votes merged agent (state.allUpdatesFor agent)) (suits : state.Suits incoming)
    (agent : AgentId) : Votes (merged ++ [incoming]) agent ((state.merge pass incoming).1.allUpdatesFor agent) := by
  rw [allUpdatesFor_merge]
  split
  next about =>
    subst about
    have before := votes incoming.agentId
    rw [allUpdatesFor_eq] at before
    rw [listedAfter]
    cases found : state.lookup incoming.agentId with
    | none =>
      rw [found] at before
      exact before.concat nofun
    | some entry =>
      rw [found] at before
      exact LocalEntry.votes_merge before (suits entry found)
  next other =>
    intro source
    rw [newest_concat_other fun both => other both.1.symm]
    exact votes agent source

theorem Recorded.merge {merged : List ReputationUpdate} (recorded : state.Recorded merged) :
    Recorded (merged ++ [incoming]) (state.merge pass incoming).1 := by
  intro agent update mem
  have earlier (before : update ∈ state.allUpdatesFor agent) :
      update ∈ merged ++ [incoming] ∧ update.agentId = agent := by
    obtain ⟨present, about⟩ := recorded agent update before
    exact ⟨mem_append_left _ present, about⟩
  rw [allUpdatesFor_merge] at mem
  split at mem
  next about =>
    subst about
    have either : update ∈ state.allUpdatesFor incoming.agentId ++ [incoming] := by
      rw [listedAfter] at mem
      rw [allUpdatesFor_eq]
      split at mem
      next => exact mem_append_right _ mem
      next entry found =>
        rw [found]
        exact LocalEntry.mem_listed_merge mem
    rcases mem_append.mp either with before | last
    · exact earlier before
    · rw [mem_singleton.mp last]
      exact ⟨mem_append_right _ (mem_singleton.mpr rfl), rfl⟩
  next => exact earlier mem

theorem Recorded.distinct (recorded : state.Recorded merged)
    (votes : OneVotePerSource merged state.allUpdatesFor) : state.Distinct := by
  intro agent
  rw [nodup_iff_count_le_one]
  intro source
  rw [count, countP_map, countP_eq_length_filter]
  by_contra! several
  obtain ⟨update, mem⟩ := exists_mem_of_length_pos (Nat.zero_lt_of_lt several)
  obtain ⟨listed, bySource⟩ := mem_filter.mp mem
  obtain ⟨present, about⟩ := recorded agent update listed
  obtain ⟨latest, found⟩ := exists_newest present about
  have single := congrArg length (votes agent update.source latest found)
  rw [← beq_iff_eq.mp bySource] at several
  exact absurd single (Nat.ne_of_gt (by simpa [Function.comp_def, Bool.beq_eq_decide_eq] using several))

/-- Updates are merged one after the other, each with the order of its own tally. -/
def merging : Machine (TallyOrder × ReputationUpdate) Bool LocalState where
  step state input := ((state.merge input.1 input.2).2, (state.merge input.1 input.2).1)

section runs

variable {inputs : List (TallyOrder × ReputationUpdate)}

theorem recorded_merging : Recorded (inputs.map Prod.snd) (merging.after ∅ inputs) := by
  induction inputs using reverseRecOn with
  | nil => exact nofun
  | append_singleton inputs input ih =>
    rw [Machine.after_concat, map_append]
    exact ih.merge

theorem suits_merging (distinct : (merging.after ∅ inputs).Distinct) :
    merging.Meets ∅ (fun _ state input => state.Suits input.2) inputs := by
  induction inputs using reverseRecOn with
  | nil => exact Machine.meets_nil
  | append_singleton inputs input ih =>
    rw [Machine.after_concat] at distinct
    obtain ⟨before, suits⟩ := suits_of_distinct distinct
    exact Machine.meets_concat.mpr ⟨ih before, suits⟩

theorem votes_merging (meets : merging.Meets ∅ (fun _ state input => state.Suits input.2) inputs) (agent : AgentId) :
    Votes (inputs.map Prod.snd) agent ((merging.after ∅ inputs).allUpdatesFor agent) := by
  induction inputs using reverseRecOn generalizing agent with
  | nil => exact fun source => rfl
  | append_singleton inputs input ih =>
    obtain ⟨before, suits⟩ := Machine.meets_concat.mp meets
    rw [Machine.after_concat, map_append]
    exact votes_merge (ih before) suits agent

end runs

end LocalState

namespace ReputationPropagator

inductive Call where
  | addPeer (peerId : AgentId) (lastSeen : UInt64) (trustLevel : TrustLevel)
  | mergeUpdates (pass : TallyOrder) (updates : List ReputationUpdate)
  | receiveUpdate (pass : TallyOrder) (update : ReputationUpdate)
      (publicKey : List UInt8) (nowMs : UInt64)
  | receiveMessage (pass : TallyOrder) (message : GossipMessage)
      (publicKeys : AList fun _ : AgentId => List UInt8) (nowMs : UInt64)

inductive Answer where
  | done
  | received (outcome : Except IdentityError Unit)
  | accepted (count : Nat)

variable (prims : Primitives) (propagator : ReputationPropagator)

def answer : Call → Answer × ReputationPropagator
  | .addPeer peerId lastSeen trustLevel => (.done, propagator.addPeer peerId lastSeen trustLevel)
  | .mergeUpdates pass updates => (.done, propagator.mergeUpdates pass updates)
  | .receiveUpdate pass update publicKey nowMs =>
    match propagator.receiveUpdate prims pass update publicKey nowMs with
    | .ok after => (.received (.ok ()), after)
    | .error error => (.received (.error error), propagator)
  | .receiveMessage pass message publicKeys nowMs =>
    let received := propagator.receiveMessage prims pass message publicKeys nowMs
    (.accepted received.1, received.2)

def machine : Machine Call Answer ReputationPropagator := ⟨answer prims⟩

def mergedBy (config : PropagationConfig) :
    Call → List (TallyOrder × ReputationUpdate)
  | .addPeer .. => []
  | .mergeUpdates pass updates => updates.map (Prod.mk pass)
  | .receiveUpdate pass update publicKey nowMs =>
    if (validateUpdate prims config update publicKey nowMs).isOk then [(pass, update)] else []
  | .receiveMessage pass message publicKeys nowMs =>
    if message.isExpired nowMs then []
    else (acceptedUpdates prims config message.updates publicKeys nowMs).map (Prod.mk pass)

theorem mergeUpdates_effect (pass : TallyOrder) (propagator : ReputationPropagator)
    (updates : List ReputationUpdate) : (propagator.mergeUpdates pass updates).config = propagator.config ∧
      (propagator.mergeUpdates pass updates).localState =
        LocalState.merging.after propagator.localState (updates.map (Prod.mk pass)) := by
  induction updates generalizing propagator with
  | nil => exact ⟨rfl, rfl⟩
  | cons update updates ih => exact ih (propagator.mergeUpdate pass update)

theorem seen_effect (sender : AgentId) (nowMs : UInt64) :
    (propagator.seen sender nowMs).config = propagator.config ∧
      (propagator.seen sender nowMs).localState = propagator.localState := by
  unfold seen
  split <;> exact ⟨rfl, rfl⟩

theorem answer_effect (call : Call) : (answer prims propagator call).2.config = propagator.config ∧
      (answer prims propagator call).2.localState =
        LocalState.merging.after propagator.localState (mergedBy prims propagator.config call) := by
  cases call with
  | addPeer peerId lastSeen trustLevel => exact ⟨rfl, rfl⟩
  | mergeUpdates pass updates => exact mergeUpdates_effect pass propagator updates
  | receiveUpdate pass update publicKey nowMs =>
    simp only [answer, receiveUpdate, mergedBy]
    cases validateUpdate prims propagator.config update publicKey nowMs with
    | error error => exact ⟨rfl, rfl⟩
    | ok _ => exact mergeUpdates_effect pass propagator.countReceived [update]
  | receiveMessage pass message publicKeys nowMs =>
    simp only [answer, receiveMessage, mergedBy]
    split
    · exact ⟨rfl, rfl⟩
    · obtain ⟨config, localState⟩ := seen_effect propagator.countReceived message.sender nowMs
      have effect := mergeUpdates_effect pass (propagator.countReceived.seen message.sender nowMs)
        (acceptedUpdates prims propagator.config message.updates publicKeys nowMs)
      rw [config, localState] at effect
      exact effect

theorem after_localState (calls : List Call) : ((machine prims).after propagator calls).localState =
      LocalState.merging.after propagator.localState (calls.flatMap (mergedBy prims propagator.config)) := by
  induction calls generalizing propagator with
  | nil => rfl
  | cons call calls ih =>
    obtain ⟨config, localState⟩ := answer_effect prims propagator call
    rw [flatMap_cons, Machine.after_append, ← localState, ← config]
    exact ih _

/-- Every source has one vote on each agent exactly if each merged update was the first by its
source and changed nothing, or was by the source that counted. -/
theorem oneVotePerSource_iff (config : PropagationConfig) (calls : List Call) :
    OneVotePerSource ((calls.flatMap (mergedBy prims config)).map Prod.snd)
        ((machine prims).after (.new config) calls).allUpdatesFor ↔
      LocalState.merging.Meets ∅ (fun _ state input => state.Suits input.2)
        (calls.flatMap (mergedBy prims config)) := by
  have state : ((machine prims).after (.new config) calls).allUpdatesFor =
      (LocalState.merging.after ∅ (calls.flatMap (mergedBy prims config))).allUpdatesFor := by
    funext agent
    rw [allUpdatesFor, after_localState]
    rfl
  rw [state]
  constructor
  · intro votes
    exact LocalState.suits_merging (LocalState.recorded_merging.distinct votes)
  · intro meets agent source update found
    rw [LocalState.votes_merging meets, found]
    rfl

/-- A source, `n…n`, reports a score of the agent `9…9`. -/
def report (n : UInt8) (timestamp : UInt64) : ReputationUpdate where
  agentId := .filled 9
  score := ⟨50, 50, 50, 50, 50, 50, 1.0⟩
  timestamp
  source := .filled n
  signature := []

/-- Once a second source has reported later than the first one, the first one has no vote, and the second
one has two. -/
theorem two_reports_not_oneVote : ¬ OneVotePerSource
      (([Call.mergeUpdates .inOrder [report 1 1, report 2 2]].flatMap (mergedBy .standIn {})).map Prod.snd)
      ((machine .standIn).after (.new {}) [Call.mergeUpdates .inOrder [report 1 1, report 2 2]]).allUpdatesFor := by
  intro votes
  have lost : [] = [report 1 1] := votes (report 1 1).agentId (report 1 1).source (report 1 1) rfl
  cases lost

end ReputationPropagator

end Aafp.Identity
