import Aafp.Economics.SlashingRuns
import Aafp.Foundation.SlidingWindow

/-! The rate limit of a slashing engine. -/
namespace Aafp.Economics

open Foundation List

namespace SlashingEngine

def slashTimes (agent : String) (records : List SlashRecord) : List Nat :=
  (records.filter fun record => record.agentId = agent).map fun record => record.timestamp.toNat

def keptTimes (engine : SlashingEngine) (agent : String) : List Nat :=
  timesOf Prod.snd (engine.timestampsOf agent)

abbrev RateTracked (config : SlashingConfig) (time : Nat) (kept stamps : List Nat) : Prop :=
  Tracks config.rateLimitWindowMs.toNat config.maxSlashesPerWindow.toNat time kept stamps

/-- At a time, the engine knows enough of every agent's slashes. -/
structure Counts (config : SlashingConfig) (time : UInt64) (records : List SlashRecord) (engine : SlashingEngine) :
    Prop where
  configured : engine.config = config
  tracked : ∀ agent, RateTracked config time.toNat (engine.keptTimes agent) (slashTimes agent records)

section counts

variable {config : SlashingConfig} {time : UInt64} {records : List SlashRecord} {engine : SlashingEngine}
  {agent : String}

theorem keptTimes_recordSlashTimestamp (engine : SlashingEngine) (slashed agent : String)
    (condition : SlashingCondition)
    (now : UInt64) : (engine.recordSlashTimestamp slashed condition now).keptTimes agent =
      if slashed = agent then engine.keptTimes agent ++ [now.toNat] else engine.keptTimes agent := by
  rw [keptTimes, timestampsOf_recordSlashTimestamp]
  split
  next same =>
    rw [timesOf, map_append, same]
    rfl
  · rfl

theorem Counts.step (counts : Counts config time records engine) (call : Call)
    (current : ∀ now, call.now? = some now → now = time) :
    Counts config time (records ++ (machine.step engine call).1.record?.toList) (machine.step engine call).2 := by
  refine ⟨(config_step engine call).trans counts.configured, fun agent => ?_⟩
  have tracks := counts.tracked agent
  rw [slashTimes] at tracks
  rw [slashTimes]
  cases step_stamps engine call with
  | slashed record answered read admitted stamped =>
    have kept : (machine.step engine call).2.keptTimes agent =
        (engine.recordSlashTimestamp record.agentId record.penalty.condition record.timestamp).keptTimes agent :=
      congrArg (timesOf Prod.snd) (stamped agent)
    rw [kept, keptTimes_recordSlashTimestamp, answered]
    by_cases same : record.agentId = agent
    · subst same
      rw [← current _ read, ← counts.configured] at tracks
      have free := (admission_eq_ok.mp admitted).2.1
      rw [isRateLimited, decide_eq_false_iff_not] at free
      have recorded := tracks.record (tracks.room free)
      rw [counts.configured] at recorded
      simpa [current _ read] using recorded
    · simpa [same] using tracks
  | evicted now answered read pruned =>
    rw [← current now read] at tracks ⊢
    have kept : (machine.step engine call).2.keptTimes agent = (engine.keptTimes agent).filter _ :=
      (congrArg (timesOf Prod.snd) ((pruned agent).trans (engine.timestampsOf_evictExpired agent now))).trans
        (timesOf_recent tracks.keptPast)
    rw [kept, answered, counts.configured]
    simpa using tracks.prune
  | kept answered same =>
    have kept : (machine.step engine call).2.keptTimes agent = engine.keptTimes agent :=
      congrArg (timesOf Prod.snd) (same agent)
    rw [kept, answered]
    simpa using tracks

end counts

/-- If the clock never goes back, no window of a run holds more slashes of an agent than the
configuration allows. -/
theorem countP_slashes_le (config : SlashingConfig) (account : Option ResourceAccount)
    (history : AList fun _ : String => AgentHistory) (calls : List Call)
    (ordered : (calls.filterMap Call.now?).Pairwise (· ≤ ·)) (agent : String) (time : Nat) :
    (slashes (machine.log (started config account history) calls)).countP (fun record =>
      record.agentId = agent && within config.rateLimitWindowMs.toNat time record.timestamp.toNat) ≤
        config.maxSlashesPerWindow.toNat := by
  have held := @Machine.invariant_clocked _ _ _ machine (started config account history) UInt64 _ Call.now?
    fun time past engine => Counts config time (slashes past) engine
  have counts := held ?_ ?_ ?_ calls ordered u64Max fun now _ => le_u64Max now
  · have limited := (counts.tracked agent).limited time
    rw [slashTimes, countP_map, countP_filter] at limited
    simpa [Function.comp_def, Bool.and_comm] using limited
  · exact fun time => ⟨rfl, fun agent => tracks_nil _ _ _⟩
  · intro time after past engine passed counts
    exact ⟨counts.configured, fun agent => (counts.tracked agent).later (UInt64.le_iff_toNat_le.mp passed)⟩
  · intro time past engine call current counts
    rw [slashes_concat]
    exact counts.step call current

theorem countP_slashes_le_forgetful : ((forgetful .default).filterMap Call.now?).Pairwise (· ≤ ·) ∧
      (slashes (machine.log (started .default none ∅) (forgetful .default))).countP (fun record =>
        record.agentId = "agent" && within SlashingConfig.default.rateLimitWindowMs.toNat 0 record.timestamp.toNat) ≤
          SlashingConfig.default.maxSlashesPerWindow.toNat :=
  have ordered : ((forgetful .default).filterMap Call.now?).Pairwise (· ≤ ·) := by decide
  ⟨ordered, countP_slashes_le .default none ∅ (forgetful .default) ordered "agent" 0⟩

end SlashingEngine

end Aafp.Economics
