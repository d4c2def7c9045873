import Aafp.Foundation.Ledger
import Aafp.Identity.ReputationVotes

/-! When the score that counts does not depend on the order in which updates by different sources arrive. -/
namespace Aafp.Identity

open Foundation Crypto List ReputationUpdate

section vote

variable {pass : TallyOrder} {current latest winner : ReputationUpdate}
  {alternatives all updates : List ReputationUpdate} {score : UInt8}

structure Latest (updates : List ReputationUpdate) (latest : ReputationUpdate) : Prop where
  mem : latest ∈ updates
  above : ∀ update ∈ updates, update ≠ latest → update.timestamp < latest.timestamp

theorem Latest.eq_of_le (recent : Latest updates latest) (mem : update ∈ updates)
    (later : latest.timestamp ≤ update.timestamp) : update = latest := by
  by_contra other
  exact absurd (recent.above update mem other) (UInt64.not_lt.mpr later)

theorem Latest.of_subset (recent : Latest updates latest) (subset : all ⊆ updates) (mem : latest ∈ all) :
    Latest all latest :=
  ⟨mem, fun update present => recent.above update (subset present)⟩

theorem Latest.perm (recent : Latest updates latest) (arrival : order.Perm updates) : Latest order latest :=
  recent.of_subset arrival.subset (arrival.mem_iff.mpr recent.mem)

theorem conflictResolution_eq_latest (recent : Latest (current :: alternatives) latest)
    (unopposed : ∀ score, Majority (current :: alternatives) score → score = latest.score.overall) :
    conflictResolution pass current alternatives = latest := by
  unfold conflictResolution
  split
  next winner won =>
    have best := majority_of_majorityWinner won
    have mem : latest ∈ (current :: alternatives).filter fun update =>
        update.score.overall = winner.score.overall :=
      mem_filter.mpr ⟨recent.mem, decide_eq_true (unopposed _ best.1).symm⟩
    have later := isLE_maxBy best.2 mem
    exact recent.eq_of_le (mem_of_majorityWinner won) (Std.isLE_compare.mp later)
  next =>
    obtain ⟨greatest, mem, found⟩ := exists_maxBy
      (compareLex (compareOn timestamp) (compareOn fun update => update.score.overall.toUInt64))
      (cons_ne_nil current alternatives)
    rw [found]
    have later := isLE_maxBy found recent.mem
    exact recent.eq_of_le mem (Std.isLE_compare.mp (Ordering.isLE_left_of_isLE_then later))

theorem isSome_majorityStep {winner : Option ReputationUpdate} {number : Nat} (won : winner.isSome = true) :
    (majorityStep number winner entry).isSome = true := by
  unfold majorityStep laterWinner
  grind

/-- A score that has the majority is the one of the update that wins. -/
theorem score_conflictResolution (majority : Majority (current :: alternatives) score) :
    (conflictResolution pass current alternatives).score.overall = score := by
  unfold conflictResolution
  generalize current :: alternatives = all at majority
  have found := getD_lookup_groupBy (fun update : ReputationUpdate => update.score.overall) all score
  unfold Majority at majority
  cases group : (tally all).lookup score with
  | none =>
    rw [tally] at group
    rw [group, Option.getD_none] at found
    rw [← found] at majority
    exact absurd majority (by simp)
  | some voters =>
    have visited : (⟨score, voters⟩ : Sigma fun _ : UInt8 => List ReputationUpdate) ∈ pass.iterate (tally all) :=
      mem_iterate.mpr group
    rw [tally] at group
    rw [group, Option.getD_some] at found
    obtain ⟨before, after, split⟩ := append_of_mem visited
    obtain ⟨best, -, most⟩ := exists_maxBy (compareOn timestamp) (show voters ≠ [] by
      rintro rfl
      rw [← found] at majority
      exact absurd majority (by simp))
    have won : (majorityWinner pass all).isSome = true := by
      rw [majorityWinner, split, foldl_append, foldl_cons]
      apply foldlRecOn (motive := fun winner : Option ReputationUpdate => winner.isSome = true)
      · rw [majorityStep, majorityBest, found, if_pos majority, ← found, most]
        unfold laterWinner
        grind
      · exact fun winner before entry _ => isSome_majorityStep before
    obtain ⟨winner, won⟩ := Option.isSome_iff_exists.mp won
    rw [won]
    by_contra other
    have few := length_filter_add_le (fun update : ReputationUpdate => update.score.overall = winner.score.overall)
      (fun update => update.score.overall = score) (by grind) all
    have most := (majority_of_majorityWinner won).1
    unfold Majority at most
    omega

end vote

/-- Conflict resolution with the tally in order. Any other order gives the same. -/
abbrev resolve : ReputationUpdate → List ReputationUpdate → ReputationUpdate := conflictResolution .inOrder

/-- Updates about an agent, by different sources and of different times. -/
structure Reports (agent : AgentId) (updates : List ReputationUpdate) : Prop where
  about : ∀ update ∈ updates, update.agentId = agent
  sources : (updates.map source).Nodup
  timestamps : (updates.map timestamp).Nodup

theorem Reports.perm (reports : Reports agent updates) (arrival : order.Perm updates) : Reports agent order where
  about update mem := reports.about update (arrival.mem_iff.mp mem)
  sources := (arrival.map _).nodup_iff.mpr reports.sources
  timestamps := (arrival.map _).nodup_iff.mpr reports.timestamps

def outcome : List ReputationUpdate → Option ReputationUpdate
  | [] => none
  | first :: rest => some (standing resolve first [] rest)

/-- The update that counts is one of those that came. -/
theorem resolve_mem (stands : current ∈ first :: alternatives) (incoming : ReputationUpdate) :
    resolve current (alternatives ++ [incoming]) ∈ first :: (alternatives ++ [incoming]) :=
  cons_subset.mpr ⟨mem_append_left [incoming] stands, subset_cons_self first _⟩ conflictResolution_mem

theorem LocalEntry.merge_of_apart {pass : TallyOrder} {entry : LocalEntry}
    (stands : entry.update ∈ first :: entry.alternatives)
    (sources : ((first :: (entry.alternatives ++ [incoming])).map source).Nodup) :
    (entry.merge pass incoming).1 = ⟨resolve entry.update (entry.alternatives ++ [incoming]),
      entry.alternatives ++ [incoming]⟩ := by
  have apart : entry.update.source ≠ incoming.source := by
    rw [← cons_append, map_append] at sources
    exact (nodup_append.mp sources).2.2 _ (mem_map_of_mem stands) _ (mem_singleton_self _)
  rw [merge, if_neg apart]
  simp only
  split
  · rw [conflictResolution_pass .inOrder]
  next same =>
    rw [not_or, not_not, conflictResolution_pass .inOrder] at same
    rw [inj_on_of_nodup_map sources (resolve_mem stands incoming) (mem_append_left [incoming] stands) same.1]

namespace LocalState

variable {agent : AgentId} {state : LocalState} {entry : LocalEntry} {first : ReputationUpdate}
  {inputs : List (TallyOrder × ReputationUpdate)}

/-- While updates by different sources arrive, each vote is among the one that counts and all that came after
the first. -/
theorem lookup_merging (stored : state.lookup agent = some entry)
    (stands : entry.update ∈ first :: entry.alternatives) (about : ∀ input ∈ inputs, input.2.agentId = agent)
    (sources : ((first :: (entry.alternatives ++ inputs.map Prod.snd)).map source).Nodup) :
    (merging.after state inputs).lookup agent =
      some ⟨standing resolve entry.update entry.alternatives (inputs.map Prod.snd),
        entry.alternatives ++ inputs.map Prod.snd⟩ := by
  induction inputs generalizing state entry with
  | nil => simpa [standing, Machine.after] using stored
  | cons input inputs ih =>
    obtain rfl := about input mem_cons_self
    have split : entry.alternatives ++ (input :: inputs).map Prod.snd =
        entry.alternatives ++ [input.2] ++ inputs.map Prod.snd := append_cons _ _ _
    rw [split] at sources ⊢
    have shorter : ((first :: (entry.alternatives ++ [input.2])).map source).Nodup := by
      rw [← cons_append, map_append] at sources
      exact sources.of_append_left
    have merged : (merging.step state input).2.lookup input.2.agentId =
        some ⟨resolve entry.update (entry.alternatives ++ [input.2]), entry.alternatives ++ [input.2]⟩ := by
      simp only [merging, merge, stored, AList.lookup_insert, entry.merge_of_apart stands shorter]
    exact ih merged (resolve_mem stands input.2) (fun later mem => about later (mem_cons_of_mem input mem)) sources

theorem lookup_merging_of_none (absent : state.lookup agent = none)
    (about : ∀ input ∈ inputs, input.2.agentId = agent) (sources : ((inputs.map Prod.snd).map source).Nodup) :
    ((merging.after state inputs).lookup agent).map LocalEntry.update = outcome (inputs.map Prod.snd) := by
  cases inputs with
  | nil => exact congrArg (Option.map LocalEntry.update) absent
  | cons input inputs =>
    obtain rfl := about input mem_cons_self
    have stored : (state.merge input.1 input.2).1.lookup input.2.agentId = some ⟨input.2, []⟩ := by
      simp only [merge, absent, AList.lookup_insert]
    have stands : input.2 ∈ [input.2] := mem_cons_self
    have run := lookup_merging stored stands
      (fun later mem => about later (mem_cons_of_mem input mem)) sources
    exact congrArg (Option.map LocalEntry.update) run

end LocalState

/-- No two updates share an overall score against the latest one. -/
def Lone (updates : List ReputationUpdate) (latest : ReputationUpdate) : Prop :=
  ∀ left ∈ updates, ∀ right ∈ updates, left.score.overall = right.score.overall →
    left.score.overall ≠ latest.score.overall → left = right

/-- No two updates agree against the latest one, and of three updates only the oldest may disagree with it. -/
structure Undivided (updates : List ReputationUpdate) (latest : ReputationUpdate) : Prop where
  lone : Lone updates latest
  three : updates.length = 3 → ∀ update ∈ updates, ∀ older ∈ updates, older.timestamp < update.timestamp →
    update.score.overall = latest.score.overall

section undivided

variable {updates rest seen : List ReputationUpdate} {current first second latest : ReputationUpdate} {score : UInt8}

theorem Lone.of_subset (lone : Lone updates latest) (subset : seen ⊆ updates) : Lone seen latest :=
  fun left leftMember right rightMember => lone left (subset leftMember) right (subset rightMember)

theorem Undivided.perm (undivided : Undivided updates latest) (arrival : seen.Perm updates) :
    Undivided seen latest where
  lone := undivided.lone.of_subset arrival.subset
  three count update mem older present := undivided.three (arrival.length_eq ▸ count) update
    (arrival.subset mem) older (arrival.subset present)

theorem Lone.length_le_one (lone : Lone seen latest) (nodup : seen.Nodup) (other : score ≠ latest.score.overall) :
    (seen.filter fun update => update.score.overall = score).length ≤ 1 := by
  have same : ∀ left ∈ seen.filter (fun update => update.score.overall = score),
      ∀ right ∈ seen.filter (fun update => update.score.overall = score), left = right := by
    intro left leftMember right rightMember
    rw [mem_filter, decide_eq_true_eq] at leftMember rightMember
    refine lone left leftMember.1 right rightMember.1 (leftMember.2.trans rightMember.2.symm) ?_
    rwa [leftMember.2]
  have distinct := nodup.filter (fun update => update.score.overall = score)
  generalize seen.filter (fun update => update.score.overall = score) = members at same distinct ⊢
  cases members with
  | nil => exact Nat.zero_le 1
  | cons mem others =>
    have single : mem :: others ⊆ [mem] :=
      fun update present => mem_singleton.mpr (same update present mem mem_cons_self)
    exact (subperm_of_subset distinct single).length_le

/-- The latest update wins if it counts already, or is one of the alternatives. If these are two, the one that counts
must agree with it. -/
theorem Lone.conflictResolution_eq (lone : Lone seen latest) (nodup : seen.Nodup)
    (recent : Latest (current :: seen) latest) (enough : current = latest ∨ latest ∈ seen ∧
      (seen.length = 2 → current.score.overall = latest.score.overall)) :
    resolve current seen = latest := by
  apply conflictResolution_eq_latest recent
  intro score majority
  by_contra other
  have few := lone.length_le_one nodup other
  unfold Majority at majority
  rcases enough with rfl | ⟨arrived, agrees⟩
  · have most := length_filter_le (fun update => decide (update.score.overall = score)) seen
    rw [filter_cons_of_neg (by simpa using Ne.symm other), length_cons] at majority
    omega
  · have fewer : (seen.filter fun update => update.score.overall = score).length < seen.length :=
      length_filter_lt_length_iff_exists.mpr ⟨latest, arrived, by simpa using Ne.symm other⟩
    rw [filter_cons, length_cons] at majority
    split at majority
    next votes =>
      have two : seen.length ≠ 2 := fun two => other ((of_decide_eq_true votes).symm.trans (agrees two))
      rw [length_cons] at majority
      omega
    · omega

/-- An order in which given updates arrive first. -/
theorem exists_arrival (distinct : seen.Nodup) (subset : seen ⊆ updates) : ∃ rest, (seen ++ rest).Perm updates := by
  obtain ⟨part, same, sublist⟩ := subperm_of_subset distinct subset
  obtain ⟨rest, whole⟩ := sublist.exists_perm_append
  exact ⟨rest, (same.symm.append_right rest).trans whole.symm⟩

/-- Of two updates the later one counts. -/
theorem conflictResolution_pair (recent : Latest [first, second] latest) : resolve first [second] = latest := by
  apply conflictResolution_eq_latest recent
  intro score majority
  have all := length_filter_eq_length_iff.mp
    (le_antisymm (length_filter_le (fun update => decide (update.score.overall = score)) [first, second]) (by
      unfold Majority at majority
      simp only [length_cons, length_nil] at majority ⊢
      omega))
  exact (of_decide_eq_true (all latest recent.mem)).symm

theorem latest_pair_of_lt (later : first.timestamp < second.timestamp) : Latest [first, second] second :=
  ⟨mem_cons_of_mem _ mem_cons_self, by simp [later]⟩

theorem latest_pair_of_gt (later : second.timestamp < first.timestamp) : Latest [first, second] first :=
  ⟨mem_cons_self, by simp [later]⟩

theorem exists_older (apart : first.timestamp ≠ second.timestamp) :
    ∃ older ∈ [first, second], older.timestamp < (resolve first [second]).timestamp := by
  by_cases later : first.timestamp < second.timestamp
  · exact ⟨first, mem_cons_self, by rwa [conflictResolution_pair (latest_pair_of_lt later)]⟩
  · have earlier := UInt64.lt_of_le_of_ne (UInt64.not_lt.mp later) apart.symm
    exact ⟨second, mem_cons_of_mem _ mem_cons_self, by rwa [conflictResolution_pair (latest_pair_of_gt earlier)]⟩

/-- Whenever it comes, the latest update counts in the end. -/
theorem Undivided.standing_eq (undivided : Undivided (first :: rest) latest) (recent : Latest (first :: rest) latest)
    (times : ((first :: rest).map timestamp).Nodup) : standing resolve first [] rest = latest := by
  have nodup := times.of_map timestamp
  rcases mem_cons.mp recent.mem with rfl | later
  · apply standing_eq_self
    intro seen before
    have part : seen.Sublist rest := before.sublist
    apply (undivided.lone.of_subset (subset_cons_of_subset latest part.subset)).conflictResolution_eq
    · exact nodup.of_cons.sublist part
    · exact recent.of_subset (cons_subset_cons latest part.subset) mem_cons_self
    · exact .inl rfl
  · obtain ⟨before, last, rfl⟩ := eq_nil_or_concat' rest |>.resolve_left (ne_nil_of_mem later)
    have stands : standing resolve first [] before ∈ first :: before :=
      standing_mem fun _ _ => conflictResolution_mem
    have subset : standing resolve first [] before :: (before ++ [last]) ⊆
        first :: (before ++ [last]) :=
      cons_subset.mpr ⟨mem_append_left [last] stands, subset_cons_self first _⟩
    rw [standing_append]
    apply (undivided.lone.of_subset (subset_cons_self first _)).conflictResolution_eq nodup.of_cons
    · exact recent.of_subset subset (mem_cons_of_mem _ later)
    · refine .inr ⟨later, fun two => ?_⟩
      obtain ⟨second, rfl⟩ : ∃ second, before = [second] :=
        length_eq_one_iff.mp (by simpa using two)
      have apart : first.timestamp ≠ second.timestamp := by
        simp only [cons_append, nil_append, map_cons, nodup_cons, mem_cons, not_or] at times
        exact times.1.1
      obtain ⟨older, present, before⟩ := exists_older apart
      exact undivided.three rfl _ (subset mem_cons_self) older (mem_append_left [last] present) before

end undivided

namespace ReputationPropagator

variable {agent : AgentId} {propagator : ReputationPropagator} {updates order : List ReputationUpdate}
  {latest : ReputationUpdate} {calls : List (TallyOrder × List ReputationUpdate)}

/-- Calls of `mergeUpdates`, each with the order of its own tallies. -/
def receiveAll (propagator : ReputationPropagator)
    (calls : List (TallyOrder × List ReputationUpdate)) : ReputationPropagator :=
  calls.foldl (fun propagator call => propagator.mergeUpdates call.1 call.2) propagator

theorem localState_receiveAll : (propagator.receiveAll calls).localState =
      LocalState.merging.after propagator.localState (calls.flatMap fun call => call.2.map (Prod.mk call.1)) := by
  induction calls generalizing propagator with
  | nil => rfl
  | cons call calls ih =>
    rw [flatMap_cons, Machine.after_append, ← (mergeUpdates_effect call.1 propagator call.2).2]
    exact ih

theorem localScore_receiveAll (absent : propagator.localState.lookup agent = none)
    (reports : Reports agent (calls.flatMap Prod.snd)) :
    (propagator.receiveAll calls).localScore agent = outcome (calls.flatMap Prod.snd) := by
  have arrivals : (calls.flatMap fun call => call.2.map (Prod.mk call.1)).map Prod.snd = calls.flatMap Prod.snd := by
    simp [map_flatMap, Function.comp_def]
  have about : ∀ input ∈ calls.flatMap (fun call => call.2.map (Prod.mk call.1)), input.2.agentId = agent := by
    intro input mem
    apply reports.about
    rw [← arrivals]
    exact mem_map_of_mem mem
  rw [localScore, localState_receiveAll, LocalState.lookup_merging_of_none absent about, arrivals]
  rw [arrivals]
  exact reports.sources

/-- Whatever the order of arrival and the grouping into calls, the same update counts in the end. -/
def Converges (agent : AgentId) (updates : List ReputationUpdate) : Prop :=
  ∀ propagator : ReputationPropagator, propagator.localState.lookup agent = none →
    ∀ calls others : List (TallyOrder × List ReputationUpdate),
      (calls.flatMap Prod.snd).Perm updates → (others.flatMap Prod.snd).Perm updates →
      (propagator.receiveAll calls).localScore agent = (propagator.receiveAll others).localScore agent

section converges

variable (converges : Converges agent updates) (reports : Reports agent updates) (recent : Latest updates latest)
include converges reports recent

/-- An update other than the latest is lost if the latest one comes right after it. -/
theorem Converges.outcome_eq (arrival : order.Perm updates) : outcome order = some latest := by
  have same : ∀ other, other.Perm updates → outcome order = outcome other := by
    intro other arrives
    have both := converges (new {}) rfl [(.inOrder, order)] [(.inOrder, other)] (by simpa using arrival)
      (by simpa using arrives)
    rw [localScore_receiveAll rfl (by simpa using reports.perm arrival),
      localScore_receiveAll rfl (by simpa using reports.perm arrives)] at both
    simpa using both
  obtain ⟨first, rest, rfl⟩ := exists_cons_of_ne_nil (ne_nil_of_mem (arrival.mem_iff.mpr recent.mem))
  have chosen : standing resolve first [] rest ∈ first :: rest :=
    standing_mem fun _ _ => conflictResolution_mem
  generalize found : standing resolve first [] rest = winner at chosen
  rw [outcome, found]
  by_contra other
  have apart : winner ≠ latest := fun equal => other (congrArg some equal)
  have mem := arrival.subset chosen
  have both : [winner, latest].Nodup := by simpa using apart
  have given : [winner, latest] ⊆ updates := by simp [mem, recent.mem]
  obtain ⟨rest, lost⟩ := exists_arrival both given
  have nodup := lost.nodup_iff.mpr (reports.timestamps.of_map timestamp)
  have again := same _ lost
  rw [outcome, found, cons_append, outcome, Option.some.injEq, cons_append, standing, nil_append,
    conflictResolution_pair (latest_pair_of_lt (recent.above winner mem apart))] at again
  have stays : winner ∈ latest :: ([latest] ++ rest) := again ▸ standing_mem fun _ _ => conflictResolution_mem
  simp only [nodup_cons, cons_append, nil_append, mem_cons] at nodup stays
  grind

theorem Converges.lone : Lone updates latest := by
  intro left leftMember right rightMember agree against
  by_contra apart
  have leftOther : left ≠ latest := fun equal => against (by rw [equal])
  have rightOther : right ≠ latest := fun equal => against (by rw [agree, equal])
  have distinct : [latest, left, right].Nodup := by simp [apart, leftOther.symm, rightOther.symm]
  have given : [latest, left, right] ⊆ updates := by simp [recent.mem, leftMember, rightMember]
  obtain ⟨rest, outvoted⟩ := exists_arrival distinct given
  have nodup := outvoted.nodup_iff.mpr (reports.timestamps.of_map timestamp)
  have counts := converges.outcome_eq reports recent outvoted
  rw [cons_append, outcome, Option.some.injEq, cons_append, standing, cons_append, standing, nil_append,
    conflictResolution_pair (latest_pair_of_gt (recent.above left leftMember leftOther))] at counts
  have vote : (resolve latest [left, right]).score.overall = left.score.overall := by
    apply score_conflictResolution
    simp [Majority, agree, Ne.symm (agree ▸ against)]
  have among : resolve latest [left, right] ∈ [left, right] := by
    refine (mem_cons.mp conflictResolution_mem).resolve_left fun equal => against ?_
    exact vote.symm.trans (congrArg (·.score.overall) equal)
  have stays := @standing_mem _ resolve (resolve latest [left, right])
    [left, right] rest fun _ _ => conflictResolution_mem
  simp only [nil_append, cons_append] at counts stays
  rw [counts] at stays
  simp only [mem_cons] at stays among
  grind

theorem Converges.undivided : Undivided updates latest := by
  refine ⟨converges.lone reports recent, fun three update mem older present before => ?_⟩
  by_contra against
  have other : update ≠ latest := fun equal => against (by rw [equal])
  have above := recent.above update mem other
  have three : [older, update, latest].Perm updates := by
    have distinct : [older, update, latest].Nodup := by
      refine (nodup_cons.mpr ⟨?_, nodup_cons.mpr ⟨by simpa using other, nodup_singleton _⟩⟩)
      simp only [mem_cons, not_mem_nil, or_false, not_or]
      constructor
      · rintro rfl
        exact UInt64.lt_irrefl _ before
      · rintro rfl
        exact UInt64.lt_irrefl _ (UInt64.lt_trans before above)
    refine (subperm_of_subset distinct ?_).perm_of_length_le (le_of_eq three)
    simp [present, mem, recent.mem]
  have counts := converges.outcome_eq reports recent three
  rw [outcome, Option.some.injEq, standing, standing, standing, nil_append,
    conflictResolution_pair (latest_pair_of_lt before)] at counts
  have vote : (resolve update [update, latest]).score.overall = update.score.overall := by
    apply score_conflictResolution
    simp [Majority, Ne.symm against]
  exact against (by rw [← vote]; exact congrArg (·.score.overall) counts)

end converges

/-- The result is the same in every order and grouping exactly if no two updates agree against the
latest one, and of three only the oldest may disagree with it. -/
theorem gossip_converges_iff {agent : AgentId} {updates : List ReputationUpdate} (reports : Reports agent updates)
    {latest : ReputationUpdate} (recent : Latest updates latest) :
    Converges agent updates ↔ Undivided updates latest := by
  refine ⟨fun converges => converges.undivided reports recent, fun undivided propagator absent calls others => ?_⟩
  have counts : ∀ calls : List (TallyOrder × List ReputationUpdate),
      (calls.flatMap Prod.snd).Perm updates → (propagator.receiveAll calls).localScore agent = some latest := by
    intro calls arrival
    rw [localScore_receiveAll absent (reports.perm arrival)]
    have received := recent.perm arrival
    have whole := undivided.perm arrival
    have times := (reports.perm arrival).timestamps
    generalize calls.flatMap Prod.snd = order at received whole times ⊢
    cases order with
    | nil => cases received.mem
    | cons first rest => exact congrArg some (whole.standing_eq received times)
  exact fun arrival arrives => (counts calls arrival).trans (counts others arrives).symm

/-- A source, `n…n`, reports an overall score of the agent `9…9`. -/
def reportOf (n overall : UInt8) (timestamp : UInt64) : ReputationUpdate :=
  { report n timestamp with score := ⟨overall, 50, 50, 50, 50, 50, 1.0⟩ }

theorem gossip_converges_two : Converges (.filled 9) [reportOf 2 9 2, reportOf 1 5 1] := by
  have reports : Reports (.filled 9) [reportOf 2 9 2, reportOf 1 5 1] :=
    ⟨by simp [reportOf, report], by decide, by decide⟩
  have recent : Latest [reportOf 2 9 2, reportOf 1 5 1] (reportOf 2 9 2) :=
    ⟨by simp, by simp [reportOf, report]⟩
  exact (gossip_converges_iff reports recent).mpr ⟨by simp [Lone, reportOf], nofun⟩

/-- The first two of three updates agree. If the third one comes between them, it counts; otherwise
the second one does. -/
theorem gossip_depends_on_order : Reports (.filled 9) [reportOf 1 5 1, reportOf 2 5 2, reportOf 3 9 3] ∧
      (new {}).localState.lookup (.filled 9) = none ∧
      ((new {}).receiveAll [(.inOrder, [reportOf 1 5 1, reportOf 2 5 2, reportOf 3 9 3])]).localScore (.filled 9) =
        some (reportOf 2 5 2) ∧
      ((new {}).receiveAll [(.inOrder, [reportOf 1 5 1, reportOf 3 9 3, reportOf 2 5 2])]).localScore (.filled 9) =
        some (reportOf 3 9 3) ∧ reportOf 2 5 2 ≠ reportOf 3 9 3 := by
  refine ⟨⟨by simp [reportOf, report], by decide, by decide⟩, rfl, rfl, rfl, ?_⟩
  intro same
  exact absurd (congrArg timestamp same) (by decide)

end ReputationPropagator

end Aafp.Identity
