import Aafp.Execution.Aggregator
import Aafp.Foundation.Ledger

/-! Quorums. -/
namespace Aafp.Execution

open Foundation Crypto Identity List TaskResult Nat

structure Submission where
  result : TaskResult
  now : Instant

namespace ResultAggregator

variable (config : AggregationConfig F) (submissions : List Submission)

def submitAll : ResultAggregator F :=
  submissions.foldl (fun aggregator submission => aggregator.submit submission.result submission.now)
    (.new config)

def submitted : List TaskResult := submissions.map Submission.result

def latest (agent : AgentId) : Option TaskResult :=
  lastWith agentId agent (submitted submissions)

def agents : List AgentId :=
  ((submitted submissions).map agentId).dedup

def accepts (scores : Scores F) (config : AggregationConfig F) (result : TaskResult) : Bool :=
  result.success && (ResultAggregator.new config).verifyPasses scores result

def accepted (scores : Scores F) (config : AggregationConfig F) (submissions : List Submission) : List AgentId :=
  (agents submissions).filter fun agent => (latest submissions agent).any (accepts scores config)

def supporters (scores : Scores F) (config : AggregationConfig F) (submissions : List Submission)
    (output : List UInt8) : List AgentId :=
  (agents submissions).filter fun agent =>
    (latest submissions agent).any fun result => result.output = output && accepts scores config result

def TimedOut (now : Instant) : Prop :=
  config.timeoutMs ≠ 0 ∧ ∃ first, submissions.head? = some first ∧
    config.timeoutMs.toNat * 1000000 ≤ now - first.now

def NoCollision (sha256 : List UInt8 → Bytes32) (submissions : List Submission) : Prop :=
  ∀ first ∈ submitted submissions, ∀ second ∈ submitted submissions,
    sha256 first.output = sha256 second.output → first.output = second.output

theorem map_agentId_record (result : TaskResult) (results : List TaskResult) :
    (record result results).map agentId =
      if result.agentId ∈ results.map agentId then results.map agentId
      else results.map agentId ++ [result.agentId] := by
  induction results with
  | nil => rfl
  | cons existing results ih =>
    by_cases same : existing.agentId = result.agentId
    · simp [record, same]
    · rw [record, if_neg same, map_cons, map_cons, ih]
      simp only [mem_cons, Ne.symm same, false_or]
      split <;> rfl

theorem mem_record {results : List TaskResult} (distinct : (results.map agentId).Nodup) :
    other ∈ record result results ↔ other = result ∨ other ∈ results ∧ other.agentId ≠ result.agentId := by
  induction results with
  | nil => simp [record]
  | cons existing results ih =>
    rw [map_cons, nodup_cons] at distinct
    have absent : ∀ item ∈ results, item.agentId ≠ existing.agentId := by
      intro item member same
      exact distinct.1 (same ▸ mem_map_of_mem member)
    by_cases same : existing.agentId = result.agentId
    · rw [record, if_pos same, mem_cons, mem_cons]
      refine or_congr_right ⟨fun member => ⟨.inr member, same ▸ absent other member⟩, ?_⟩
      rintro ⟨rfl | member, different⟩
      · exact absurd same different
      · exact member
    · rw [record, if_neg same, mem_cons, mem_cons, ih distinct.2]
      constructor
      · rintro (rfl | rfl | ⟨member, different⟩)
        · exact .inr ⟨.inl rfl, same⟩
        · exact .inl rfl
        · exact .inr ⟨.inr member, different⟩
      · rintro (rfl | ⟨rfl | member, different⟩)
        · exact .inr (.inl rfl)
        · exact .inl rfl
        · exact .inr (.inr ⟨member, different⟩)

structure Collected (submissions : List Submission) (results : List TaskResult) : Prop where
  distinct : (results.map agentId).Nodup
  kept : ∀ result, result ∈ results ↔ latest submissions result.agentId = some result

theorem submitAll_concat (submission : Submission) : submitAll config (submissions ++ [submission]) =
      (submitAll config submissions).submit submission.result submission.now := by
  rw [submitAll, foldl_append]
  rfl

theorem latest_concat (submission : Submission) (agent : AgentId) : latest (submissions ++ [submission]) agent =
      if submission.result.agentId = agent then some submission.result else latest submissions agent := by
  rw [latest, submitted, map_append, map_singleton, lastWith_concat]
  rfl

theorem collected_submitAll : Collected submissions (submitAll config submissions).results := by
  induction submissions using reverseRecOn with
  | nil => exact ⟨nodup_nil, fun result => ⟨nofun, nofun⟩⟩
  | append_singleton submissions submission ih =>
    rw [submitAll_concat]
    constructor
    · rw [submit, map_agentId_record]
      split
      · exact ih.distinct
      next absent =>
        rw [← concat_eq_append, nodup_concat]
        exact ⟨absent, ih.distinct⟩
    · intro result
      rw [submit, mem_record ih.distinct, latest_concat, ih.kept]
      by_cases same : submission.result.agentId = result.agentId
      · simp only [same, ne_eq, not_true_eq_false, and_false, or_false, if_true, Option.some.injEq]
        exact eq_comm
      · rw [if_neg same]
        constructor
        · rintro (rfl | ⟨found, -⟩)
          · exact absurd rfl same
          · exact found
        · exact fun found => .inr ⟨found, Ne.symm same⟩

theorem config_submitAll : (submitAll config submissions).config = config := by
  induction submissions using reverseRecOn with
  | nil => rfl
  | append_singleton submissions submission ih => rwa [submitAll_concat]

theorem startTime_submitAll : (submitAll config submissions).startTime = submissions.head?.map Submission.now := by
  induction submissions using reverseRecOn with
  | nil => rfl
  | append_singleton submissions submission ih =>
    rw [submitAll_concat, submit, ih]
    cases submissions <;> rfl

theorem isTimedOut_submitAll (now : Instant) :
    (submitAll config submissions).isTimedOut now = true ↔ TimedOut config submissions now := by
  rw [isTimedOut, config_submitAll, startTime_submitAll, TimedOut]
  cases submissions <;> by_cases never : config.timeoutMs = 0 <;> simp [never]

section Counting

variable {submissions : List Submission} {results : List TaskResult}

theorem nodup_agents : (agents submissions).Nodup := nodup_dedup _

theorem mem_agents : agent ∈ agents submissions ↔ ∃ result, latest submissions agent = some result := by
  rw [agents, mem_dedup, mem_map]
  constructor
  · rintro ⟨result, mem, rfl⟩
    exact exists_lastWith agentId mem
  · rintro ⟨result, found⟩
    exact ⟨result, mem_of_lastWith found⟩

section

variable (collected : Collected submissions results)
include collected

theorem Collected.length_filter (kind : TaskResult → Bool) : (results.filter kind).length =
      ((agents submissions).filter fun agent => (latest submissions agent).any kind).length := by
  have same : ((results.filter kind).map agentId).Perm
      ((agents submissions).filter fun agent => (latest submissions agent).any kind) := by
    refine (perm_ext_iff_of_nodup (collected.distinct.sublist (filter_sublist.map _))
      (nodup_agents.filter _)).mpr fun agent => ?_
    simp only [mem_map, mem_filter, mem_agents, Option.any_eq_true]
    constructor
    · rintro ⟨result, ⟨mem, holds⟩, rfl⟩
      have found := (collected.kept result).mp mem
      exact ⟨⟨result, found⟩, result, found, holds⟩
    · rintro ⟨-, result, found, holds⟩
      obtain ⟨-, rfl⟩ := mem_of_lastWith found
      exact ⟨result, ⟨(collected.kept result).mpr found, holds⟩, rfl⟩
  rw [← same.length_eq, length_map]

theorem Collected.length_eq : results.length = (agents submissions).length := by
  have all := collected.length_filter fun _ => true
  have every : (agents submissions).filter (fun agent => (latest submissions agent).any fun _ => true) =
      agents submissions := by
    rw [filter_eq_self]
    intro agent mem
    obtain ⟨result, found⟩ := mem_agents.mp mem
    rw [found]
    rfl
  rwa [filter_true, every] at all

theorem Collected.mem_submitted (mem : result ∈ results) : result ∈ submitted submissions :=
  (mem_of_lastWith ((collected.kept result).mp mem)).1

end

end Counting

theorem largest_support {sha256 : List UInt8 → Bytes32} {successful best : List TaskResult}
    {pass : IterationOrder Bytes32 (List TaskResult)} (apart : ∀ first ∈ successful, ∀ second ∈ successful,
      sha256 first.output = sha256 second.output → first.output = second.output)
    (sorted : largestFirst pass (groupBy (outputHash sha256) successful) = best :: rest) :
    ∃ first others, best = first :: others ∧
      best.length = (successful.filter fun result => result.output = first.output).length ∧
      ∀ output, (successful.filter fun result => result.output = output).length ≤ best.length := by
  obtain ⟨⟨wanted, group⟩, nonempty, largest⟩ := largestFirst_groupBy sorted
  obtain ⟨first, others, split⟩ := exists_cons_of_ne_nil nonempty
  -- with no collision, a hash stands for an output
  have same : ∀ leader ∈ successful, (successful.filter fun result => result.output = leader.output) =
      successful.filter fun result => result.outputHash sha256 = leader.outputHash sha256 := by
    intro leader there
    apply filter_congr
    intro result mem
    rw [decide_eq_decide]
    exact ⟨congrArg sha256, apart result mem leader there⟩
  have leads : first ∈ successful ∧ first.outputHash sha256 = wanted := by
    have mem : first ∈ best := by simp [split]
    rw [group, mem_filter] at mem
    exact ⟨mem.1, by simpa using mem.2⟩
  refine ⟨first, others, split, ?_, ?_⟩
  · rw [same first leads.1, leads.2, ← group]
  · intro output
    cases supported : successful.filter fun result => result.output = output with
    | nil => exact zero_le _
    | cons leader more =>
      have mem : leader ∈ successful.filter fun result => result.output = output := by simp [supported]
      obtain ⟨there, outputs⟩ := mem_filter.mp mem
      obtain rfl : leader.output = output := by simpa using outputs
      rw [← supported, same leader there]
      exact largest _

section Quorum

variable {scores : Scores F} {sha256 : List UInt8 → Bytes32} {config : AggregationConfig F}
  {submissions others : List Submission}

/-- The results that are accepted. -/
def successes (scores : Scores F) (config : AggregationConfig F) (submissions : List Submission) : List TaskResult :=
  (submitAll config submissions).successful scores (submitAll config submissions).results

theorem successes_eq :
    successes scores config submissions = (submitAll config submissions).results.filter (accepts scores config) := by
  apply filter_congr
  intro result _
  rw [verifyPasses, config_submitAll]
  rfl

theorem length_supporters (output : List UInt8) : (supporters scores config submissions output).length =
      ((successes scores config submissions).filter fun result => result.output = output).length := by
  rw [supporters, ← (collected_submitAll config submissions).length_filter, successes_eq, filter_filter]

theorem eq_of_majority (majority : (accepted scores config submissions).length < 2 * n)
    (supported : n ≤ (supporters scores config submissions first).length)
    (alsoSupported : n ≤ (supporters scores config submissions second).length) : first = second := by
  by_contra different
  rw [length_supporters] at supported alsoSupported
  rw [accepted, ← (collected_submitAll config submissions).length_filter, ← successes_eq] at majority
  have apart : ∀ result : TaskResult, decide (result.output = first) = true →
      ¬ decide (result.output = second) = true := by
    intro result here there
    rw [decide_eq_true_eq] at here there
    exact different (here.symm.trans there)
  have together := length_filter_add_le _ _ apart (successes scores config submissions)
  omega

theorem length_supporters_eq (same : ∀ agent, latest others agent = latest submissions agent)
    (output : List UInt8) : (supporters scores config others output).length =
      (supporters scores config submissions output).length := by
  have members : (agents others).Perm (agents submissions) := by
    refine (perm_ext_iff_of_nodup nodup_agents nodup_agents).mpr fun agent => ?_
    rw [mem_agents, mem_agents, same]
  unfold supporters
  simp only [same]
  exact (members.filter _).length_eq

theorem aggregateQuorum_eq (noCollision : NoCollision sha256 submissions)
    (present : successes scores config submissions ≠ [])
    (pass : IterationOrder Bytes32 (List TaskResult)) (n : Nat) (now : Instant) :
    ∃ output, (∀ other, (supporters scores config submissions other).length ≤
        (supporters scores config submissions output).length) ∧
      (submitAll config submissions).aggregateQuorum scores sha256 pass
        (submitAll config submissions).results n now = some (
          if n ≤ (supporters scores config submissions output).length then
            .succeeded output (submitAll config submissions).results "quorum_reached"
          else if (submitAll config submissions).isTimedOut now then
            .succeeded output (submitAll config submissions).results "quorum_partial_timeout"
          else .failure (submitAll config submissions).results "quorum_not_reached") := by
  obtain ⟨item, mem⟩ := exists_mem_of_ne_nil _ present
  cases sorted : largestFirst pass (groupBy (outputHash sha256) (successes scores config submissions)) with
  | nil => exact absurd sorted (largestFirst_ne_nil mem)
  | cons best rest =>
    have apart : ∀ first ∈ successes scores config submissions, ∀ second ∈ successes scores config submissions,
        sha256 first.output = sha256 second.output → first.output = second.output := by
      intro first here second there
      have collected := collected_submitAll config submissions
      exact noCollision first (collected.mem_submitted (mem_of_mem_filter here)) second
        (collected.mem_submitted (mem_of_mem_filter there))
    obtain ⟨first, others, rfl, size, largest⟩ := largest_support apart sorted
    rw [← length_supporters] at size
    refine ⟨first.output, ?_, ?_⟩
    · intro other
      rw [← size, length_supporters]
      exact largest other
    · rw [successes] at present sorted
      rw [aggregateQuorum, if_neg (by simpa using present), sorted, ← size]
      simp only [head?_cons, Option.bind_eq_bind, Option.bind_some]
      split
      · rfl
      · split <;> rfl

/-- A quorum is reported exactly if the aggregation may go on and some output has enough supporters.
It has the most of them. -/
structure RealQuorum (scores : Scores F) (config : AggregationConfig F) (n : Nat)
    (submissions : List Submission) (checked : Instant) (outcome : AggregationOutcome) : Prop where
  reached : outcome.reason = "quorum_reached" ↔
    (config.minResults ≤ (agents submissions).length ∨ TimedOut config submissions checked) ∧
      ∃ output, n ≤ (supporters scores config submissions output).length
  most : outcome.reason = "quorum_reached" → ∀ other,
    (supporters scores config submissions other).length ≤
      (supporters scores config submissions outcome.output).length
  only : outcome.reason = "quorum_reached" → (accepted scores config submissions).length < 2 * n →
    ∀ other, n ≤ (supporters scores config submissions other).length ↔ other = outcome.output

theorem realQuorum_of_unreached (unreached : outcome.reason ≠ "quorum_reached")
    (missing : ¬ ((config.minResults ≤ (agents submissions).length ∨ TimedOut config submissions checked) ∧
      ∃ output, n ≤ (supporters scores config submissions output).length)) :
    RealQuorum scores config n submissions checked outcome where
  reached := iff_of_false unreached missing
  most reached := absurd reached unreached
  only reached := absurd reached unreached

theorem realQuorum_of_succeeded {output : List UInt8} {results : List TaskResult}
    (ready : config.minResults ≤ (agents submissions).length ∨ TimedOut config submissions checked)
    (enough : n ≤ (supporters scores config submissions output).length)
    (largest : ∀ other, (supporters scores config submissions other).length ≤
      (supporters scores config submissions output).length) :
    RealQuorum scores config n submissions checked (.succeeded output results "quorum_reached") where
  reached := iff_of_true rfl ⟨ready, output, enough⟩
  most _ := largest
  only _ majority other := by
    constructor
    · exact fun supported => eq_of_majority majority supported enough
    · rintro rfl
      exact enough

theorem not_supported_of_unsuccessful (positive : 1 ≤ n) (unsuccessful : successes scores config submissions = []) :
    ¬ ∃ output, n ≤ (supporters scores config submissions output).length := by
  rintro ⟨output, enough⟩
  rw [length_supporters, unsuccessful] at enough
  exact absurd (le_trans positive enough) (by simp)

theorem aggregateQuorum_realQuorum (scores : Scores F) (positive : 1 ≤ n) (noCollision : NoCollision sha256 submissions)
    (ready : config.minResults ≤ (agents submissions).length ∨ TimedOut config submissions checked)
    (pass : IterationOrder Bytes32 (List TaskResult)) (later : Instant) :
    ∃ outcome, (submitAll config submissions).aggregateQuorum scores sha256 pass
        (submitAll config submissions).results n later = some outcome ∧
      RealQuorum scores config n submissions checked outcome := by
  by_cases unsuccessful : successes scores config submissions = []
  · refine ⟨_, if_pos (isEmpty_iff.mpr unsuccessful), realQuorum_of_unreached (by simp [AggregationOutcome.failure]) ?_⟩
    exact fun claimed => not_supported_of_unsuccessful positive unsuccessful claimed.2
  · obtain ⟨output, largest, ends⟩ := aggregateQuorum_eq noCollision unsuccessful pass n later
    refine ⟨_, ends, ?_⟩
    split
    next enough => exact realQuorum_of_succeeded ready enough largest
    next enough =>
      apply realQuorum_of_unreached
      · split <;> simp [AggregationOutcome.failure, AggregationOutcome.succeeded]
      · rintro ⟨-, other, supported⟩
        exact enough (le_trans supported (largest other))

theorem aggregate_realQuorum (scores : Scores F) (strategy : config.strategy = .quorum n) (positive : 1 ≤ n)
    (noCollision : NoCollision sha256 submissions) (pass : IterationOrder Bytes32 (List TaskResult))
    (checked later : Instant) :
    ∃ outcome, (submitAll config submissions).aggregate scores sha256 pass checked later = some outcome ∧
      RealQuorum scores config n submissions checked outcome := by
  have counted := (collected_submitAll config submissions).length_eq
  rw [aggregate]
  by_cases empty : (submitAll config submissions).results = []
  · refine ⟨_, if_pos (by simp [empty]), realQuorum_of_unreached (by simp [AggregationOutcome.failure]) ?_⟩
    have unsuccessful : successes scores config submissions = [] := by
      rw [successes_eq, empty]
      rfl
    exact fun claimed => not_supported_of_unsuccessful positive unsuccessful claimed.2
  · rw [if_neg (by simpa using empty)]
    by_cases early : (submitAll config submissions).results.length < (submitAll config submissions).config.minResults ∧
        ¬ (submitAll config submissions).isTimedOut checked
    · refine ⟨_, if_pos early, realQuorum_of_unreached (by simp [AggregationOutcome.failure]) ?_⟩
      rw [config_submitAll, isTimedOut_submitAll] at early
      rintro ⟨ready | timedOut, _⟩
      · omega
      · exact early.2 timedOut
    · rw [if_neg early, config_submitAll, strategy]
      rw [config_submitAll, isTimedOut_submitAll, counted, not_and_or, not_not, not_lt] at early
      exact aggregateQuorum_realQuorum scores positive noCollision early pass later

/-- A reported quorum is a real one. The output of a majority does not depend on the order of the
submissions. -/
theorem quorum_is_real (scores : Scores F) (sha256 : List UInt8 → Bytes32) (config : AggregationConfig F)
    (n : Nat) (strategy : config.strategy = .quorum n) (positive : 1 ≤ n) (submissions : List Submission)
    (noCollision : NoCollision sha256 submissions) (pass : IterationOrder Bytes32 (List TaskResult))
    (checked later : Instant) :
    ∃ outcome, (submitAll config submissions).aggregate scores sha256 pass checked later = some outcome ∧
      RealQuorum scores config n submissions checked outcome ∧
      ∀ others, (∀ agent, latest others agent = latest submissions agent) → NoCollision sha256 others →
        ∀ otherPass otherChecked otherLater otherOutcome,
          (submitAll config others).aggregate scores sha256 otherPass otherChecked otherLater = some otherOutcome →
          outcome.reason = "quorum_reached" → otherOutcome.reason = "quorum_reached" →
          (accepted scores config submissions).length < 2 * n → otherOutcome.output = outcome.output := by
  obtain ⟨outcome, ends, real⟩ := aggregate_realQuorum scores strategy positive noCollision pass
    checked later
  refine ⟨outcome, ends, real, ?_⟩
  intro others same otherFree otherPass otherChecked otherLater otherOutcome otherEnds reached otherReached majority
  obtain ⟨_, again, otherReal⟩ := aggregate_realQuorum scores strategy positive otherFree otherPass
    otherChecked otherLater
  rw [otherEnds] at again
  cases again
  refine (real.only reached majority _).mp ?_
  obtain ⟨-, output, enough⟩ := otherReal.reached.mp otherReached
  have most := otherReal.most otherReached output
  rw [length_supporters_eq same, length_supporters_eq same] at most
  rw [length_supporters_eq same] at enough
  exact le_trans enough most

def sampleSubmission (agent output : UInt8) : Submission :=
  ⟨⟨.filled 0, .filled agent, [output], ∅, 0, true⟩, 0⟩

def sampleSubmissions : List Submission :=
  [sampleSubmission 1 7, sampleSubmission 3 8, sampleSubmission 2 7, sampleSubmission 4 8, sampleSubmission 3 7]

def sampleConfig : AggregationConfig Nat := { strategy := .quorum 3 }

theorem sampleSubmissions_reach_quorum :
    ∃ outcome, (submitAll sampleConfig sampleSubmissions).aggregate ⟨0, fun left right => compare left right⟩
        (fun output => .filled (output.headD 0)) .inOrder 0 0 = some outcome ∧
      outcome.reason = "quorum_reached" ∧ outcome.output = [7] := by
  obtain ⟨outcome, ends, real, -⟩ := quorum_is_real ⟨0, fun left right => compare left right⟩
    (fun output => .filled (output.headD 0)) sampleConfig 3 rfl (by decide) sampleSubmissions
    (by unfold NoCollision; decide +kernel) .inOrder 0 0
  have reached : outcome.reason = "quorum_reached" :=
    real.reached.mpr ⟨.inl (by decide +kernel), [7], by decide +kernel⟩
  refine ⟨outcome, ends, reached, ?_⟩
  exact ((real.only reached (by decide +kernel) [7]).mp (by decide +kernel)).symm

end Quorum

end ResultAggregator

end Aafp.Execution
