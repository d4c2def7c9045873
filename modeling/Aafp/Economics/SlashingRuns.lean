import Aafp.Economics.Slashing
import Aafp.Foundation.Counter

/-! Runs of a slashing engine. -/
namespace Aafp.Economics

open Foundation Option
open List hiding after

inductive SlashStatus.Next : SlashStatus → SlashStatus → Prop where
  | appeal : Next .executed .appealed
  | reverse : Next .appealed .reversed
  | uphold : Next .appealed .upheld

namespace SlashingEngine

inductive Call where
  | slash (agentId : String) (penalty : SlashingPenalty) (now : UInt64)
  | slashWithId (id agentId : String) (penalty : SlashingPenalty) (now : UInt64)
  | evaluateAndSlash (agentId : String) (condition : SlashingCondition) (severity : Severity) (evidence : String)
      (now : UInt64)
  | appeal (slashId filedBy evidence : String) (now : UInt64)
  | assignArbiter (slashId arbiter : String)
  | resolveAppeal (slashId : String) (uphold : Bool) (note : String)
  | remove (id : String)
  | evictExpired (now : UInt64)
  | setAgentHistory (agentId : String) (history : AgentHistory)

inductive Answer where
  | done
  | slashed (result : Except Interruption SlashRecord)
  | changed (result : Except EconomicsError SlashRecord)
  | removed (record : Option SlashRecord)

def answering (wrap : α → Answer) (result : α × SlashingEngine) : Answer × SlashingEngine := (wrap result.1, result.2)

def machine : Machine Call Answer SlashingEngine where
  step engine
    | .slash agentId penalty now => answering .slashed (engine.slash agentId penalty now)
    | .slashWithId id agentId penalty now => answering .slashed (engine.slashWithId id agentId penalty now)
    | .evaluateAndSlash agentId condition severity evidence now =>
      answering .slashed (engine.evaluateAndSlash agentId condition severity evidence now)
    | .appeal slashId filedBy evidence now => answering .changed (engine.appeal slashId filedBy evidence now)
    | .assignArbiter slashId arbiter => answering .changed (engine.assignArbiter slashId arbiter)
    | .resolveAppeal slashId uphold note => answering .changed (engine.resolveAppeal slashId uphold note)
    | .remove id => answering .removed (engine.remove id)
    | .evictExpired now => (.done, engine.evictExpired now)
    | .setAgentHistory agentId history => (.done, engine.setAgentHistory agentId history)

/-- The engine at the start of a run: new, with an account and what is known of the agents. -/
def started (config : SlashingConfig) (account : Option ResourceAccount)
    (agentHistory : AList fun _ : String => AgentHistory) : SlashingEngine :=
  { new config with
    account
    agentHistory }

def Call.now? : Call → Option UInt64
  | .slash _ _ now => some now
  | .slashWithId _ _ _ now => some now
  | .evaluateAndSlash _ _ _ _ now => some now
  | .appeal _ _ _ now => some now
  | .assignArbiter _ _ => none
  | .resolveAppeal _ _ _ => none
  | .remove _ => none
  | .evictExpired now => some now
  | .setAgentHistory _ _ => none

def Answer.record? : Answer → Option SlashRecord
  | .slashed (.ok record) => some record
  | _ => none

def Answer.Failed : Answer → Prop
  | .slashed (.error _) => True
  | .changed (.error _) => True
  | _ => False

def slashes (log : List (Call × Answer)) : List SlashRecord := log.filterMap fun entry => entry.2.record?

def charge (record : SlashRecord) (account : ResourceAccount) : ResourceAccount :=
  if 0 < record.executedAmountMilli then
    account.onEntry record.agentId (·.debit (tokens record.executedAmountMilli))
  else account

def credited (record : SlashRecord) (account : ResourceAccount) : ResourceAccount :=
  if 0 < record.executedAmountMilli then account.credit record.agentId (tokens record.executedAmountMilli) else account

def entered (engine : SlashingEngine) (record : SlashRecord) : SlashingEngine :=
  { engine.recordSlashTimestamp record.agentId record.penalty.condition record.timestamp with
    records := engine.records.insert record.id record
    account := engine.account.map (charge record) }

structure Applies (engine : SlashingEngine) (now : UInt64) (record : SlashRecord) : Prop where
  admitted : engine.admission record.agentId record.penalty record.timestamp = .ok ()
  timestamp : record.timestamp = now
  status : record.status = .executed
  nonneg : 0 ≤ record.executedAmountMilli

/-- A record is still the one of the same slash, and its status has only moved on. -/
structure Continues (record later : SlashRecord) : Prop where
  agentId : later.agentId = record.agentId
  penalty : later.penalty = record.penalty
  executedAmount : later.executedAmountMilli = record.executedAmountMilli
  status : Relation.ReflTransGen SlashStatus.Next record.status later.status

def Call.Draws : Call → Prop
  | .slash _ _ _ => True
  | .evaluateAndSlash _ _ _ _ _ => True
  | _ => False

def Call.Amends : Call → Prop
  | .appeal _ _ _ _ => True
  | .assignArbiter _ _ => True
  | .resolveAppeal _ uphold _ => uphold = true
  | _ => False

inductive Outcome (engine : SlashingEngine) : Call → Answer → SlashingEngine → Prop where
  | refused (counter : UInt64) (failed : Answer.Failed answer) (grown : engine.idCounter ≤ counter) :
      Outcome engine call answer { engine with idCounter := counter }
  | drawn (record : SlashRecord) (draws : Call.Draws call) (reading : call.now? = some now)
      (applies : engine.Applies now record) (more : (engine.idCounter + 1).toNat = engine.idCounter.toNat + 1)
      (named : record.id = engine.nextLabel) :
      Outcome engine call (.slashed (.ok record)) { engine.entered record with idCounter := engine.idCounter + 1 }
  | chosen (record : SlashRecord) (absent : record.id ∉ engine.records) (applies : engine.Applies now record) :
      Outcome engine (.slashWithId record.id agentId penalty now) (.slashed (.ok record)) (engine.entered record)
  | amended (slashId : String) (record later : SlashRecord) (amends : Call.Amends call)
      (found : engine.records.lookup slashId = some record) (continues : Continues record later)
      (stood : record.status ≠ .reversed) (stands : later.status ≠ .reversed) :
      Outcome engine call (.changed (.ok later)) { engine with records := engine.records.insert slashId later }
  | reversed (slashId note : String) (record : SlashRecord) (found : engine.records.lookup slashId = some record)
      (appealed : record.status = .appealed) :
      Outcome engine (.resolveAppeal slashId false note) (.changed (.ok (record.resolved false note)))
        { engine with
          records := engine.records.insert slashId (record.resolved false note)
          account := engine.account.map (credited record) }
  | removed (id : String) : Outcome engine (.remove id) (.removed (engine.records.lookup id)) (engine.remove id).2
  | evicted (now : UInt64) : Outcome engine (.evictExpired now) .done (engine.evictExpired now)
  | noted (agentId : String) (history : AgentHistory) :
      Outcome engine (.setAgentHistory agentId history) .done (engine.setAgentHistory agentId history)

theorem resolved_continues (appealed : record.status = .appealed) (uphold : Bool) (note : String) :
    Continues record (record.resolved uphold note) := by
  refine ⟨rfl, rfl, rfl, ?_⟩
  rw [appealed]
  cases uphold with
  | false => exact .single .reverse
  | true => exact .single .uphold

theorem record_of_failed {answer : Answer} (failed : answer.Failed) : answer.record? = none := by
  unfold Answer.record?
  split
  · exact failed.elim
  · rfl

section calls

variable (engine : SlashingEngine) (id agentId : String) (penalty : SlashingPenalty) (now : UInt64)

theorem effectiveAmount_nonneg : 0 ≤ engine.effectiveAmount agentId penalty := by
  unfold effectiveAmount
  split
  · exact Int64.le_refl 0
  · exact Int64.not_lt.mp ‹_›

theorem debitAccount_cases (record : SlashRecord) :
    (∃ error, engine.debitAccount record.agentId record.executedAmountMilli = (.error error, engine)) ∨
      engine.debitAccount record.agentId record.executedAmountMilli =
        (.ok (), { engine with account := engine.account.map (charge record) }) := by
  obtain ⟨config, records, history, timestamps, account, counter⟩ := engine
  unfold debitAccount
  cases account with
  | none => exact .inr rfl
  | some account =>
    simp only [map_some, charge, ResourceAccount.debit]
    split
    · rcases account.debitChecked_cases record.agentId (tokens record.executedAmountMilli) with
        ⟨check, entered, -⟩ | ⟨error, refused⟩
      · rw [entered]
        exact .inr rfl
      · rw [refused]
        exact .inl ⟨error, rfl⟩
    · exact .inr rfl

theorem execute_cases (admitted : engine.admission agentId penalty now = .ok ()) :
    (∃ error, engine.execute id agentId penalty now = (.error error, engine)) ∨
      ∃ record, engine.execute id agentId penalty now = (.ok record, engine.entered record) ∧
        engine.Applies now record ∧ record.id = id := by
  rcases engine.debitAccount_cases (engine.executedRecord id agentId penalty now) with ⟨error, refused⟩ | charged
  · refine .inl ⟨.refused error, ?_⟩
    simp only [execute]
    rw [refused]
  · refine .inr ⟨engine.executedRecord id agentId penalty now, ?_, ?_, rfl⟩
    · simp only [execute]
      rw [charged]
      rfl
    · exact ⟨admitted, rfl, rfl, engine.effectiveAmount_nonneg agentId penalty⟩

theorem Outcome.failed {engine : SlashingEngine} {call : Call} {answer : Answer} (failed : answer.Failed) :
    Outcome engine call answer engine :=
  .refused engine.idCounter failed (UInt64.le_refl _)

section drawing

variable {call : Call} (draws : call.Draws) (reading : call.now? = some now)
include draws reading

theorem slash_outcome : Outcome engine call (.slashed (engine.slash agentId penalty now).1)
    (engine.slash agentId penalty now).2 := by
  unfold slash nextId
  cases admitted : engine.admission agentId penalty now with
  | error error => exact .failed trivial
  | ok =>
    split_ifs with full
    · exact .failed trivial
    · have more := toNat_add_one full
      rcases execute_cases { engine with idCounter := engine.idCounter + 1 } engine.nextLabel
        agentId penalty now admitted with ⟨error, refused⟩ | ⟨record, done, applies, named⟩
      · simp only [refused]
        exact .refused _ trivial (UInt64.le_of_lt (lt_of_toNat_eq more))
      · simp only [done]
        exact .drawn record draws reading
          ⟨applies.admitted, applies.timestamp, applies.status, applies.nonneg⟩ more named

end drawing

variable (slashId : String)

theorem onRecord_cases (expected : SlashStatus) (change : SlashRecord → SlashRecord) :
    (∃ error, engine.onRecord slashId expected change = (.error error, engine)) ∨
      ∃ record, engine.records.lookup slashId = some record ∧ record.status = expected ∧
        engine.onRecord slashId expected change =
          (.ok (change record), { engine with records := engine.records.insert slashId (change record) }) := by
  unfold onRecord
  split
  · exact .inl ⟨_, rfl⟩
  next record found =>
    split
    · exact .inr ⟨record, found, ‹_›, rfl⟩
    · exact .inl ⟨_, rfl⟩

theorem refund_eq (record : SlashRecord) : engine.refund record.agentId record.executedAmountMilli =
      { engine with account := engine.account.map (credited record) } := by
  obtain ⟨config, records, history, timestamps, account, counter⟩ := engine
  unfold refund
  cases account with
  | none => rfl
  | some account =>
    simp only [map_some, credited]
    split <;> rfl

theorem slashWithId_outcome : Outcome engine (.slashWithId id agentId penalty now)
    (.slashed (engine.slashWithId id agentId penalty now).1) (engine.slashWithId id agentId penalty now).2 := by
  unfold slashWithId
  split
  · exact .failed trivial
  next absent =>
    cases admitted : engine.admission agentId penalty now with
    | error error => exact .failed trivial
    | ok =>
      rcases engine.execute_cases id agentId penalty now admitted with ⟨error, refused⟩ | ⟨record, done, applies, rfl⟩
      · simp only [refused]
        exact .failed trivial
      · simp only [done]
        exact .chosen record absent applies

theorem onRecord_outcome {call : Call} (expected : SlashStatus) {change : SlashRecord → SlashRecord}
    (stood : expected ≠ .reversed) (changes : ∀ record, record.status = expected →
      Continues record (change record) ∧ (change record).status ≠ .reversed) (amends : call.Amends) :
    Outcome engine call (.changed (engine.onRecord slashId expected change).1)
      (engine.onRecord slashId expected change).2 := by
  rcases engine.onRecord_cases slashId expected change with ⟨error, refused⟩ | ⟨record, found, rfl, done⟩
  · rw [refused]
    exact .failed trivial
  · rw [done]
    obtain ⟨continues, stands⟩ := changes record rfl
    exact .amended slashId record _ amends found continues stood stands

theorem resolveAppeal_outcome (uphold : Bool) (note : String) : Outcome engine (.resolveAppeal slashId uphold note)
    (.changed (engine.resolveAppeal slashId uphold note).1) (engine.resolveAppeal slashId uphold note).2 := by
  unfold resolveAppeal
  rcases engine.onRecord_cases slashId .appealed _ with ⟨error, refused⟩ | ⟨record, found, appealed, done⟩
  · rw [refused]
    exact .failed trivial
  · rw [done]
    cases uphold with
    | true =>
      exact .amended slashId record _ rfl found (resolved_continues appealed true note) (by simp [appealed]) nofun
    | false =>
      simp only [Bool.false_eq_true, if_false, refund_eq]
      exact .reversed slashId note record found appealed

theorem step_outcome (call : Call) : Outcome engine call (machine.step engine call).1 (machine.step engine call).2 := by
  cases call with
  | slash agentId penalty now => exact engine.slash_outcome agentId penalty now trivial rfl
  | evaluateAndSlash agentId condition severity evidence now =>
    simp only [machine, answering, evaluateAndSlash]
    split
    · exact engine.slash_outcome agentId _ now (by trivial) rfl
    · exact .failed trivial
  | slashWithId id agentId penalty now => exact engine.slashWithId_outcome id agentId penalty now
  | appeal slashId filedBy evidence now =>
    refine engine.onRecord_outcome slashId .executed nofun (fun record executed => ⟨⟨rfl, rfl, rfl, ?_⟩, nofun⟩) trivial
    rw [executed]
    exact .single .appeal
  | assignArbiter slashId arbiter =>
    refine engine.onRecord_outcome slashId .appealed nofun (fun record appealed => ⟨⟨rfl, rfl, rfl, .refl⟩, ?_⟩) trivial
    simp [appealed]
  | resolveAppeal slashId uphold note => exact engine.resolveAppeal_outcome slashId uphold note
  | remove id => exact .removed id
  | evictExpired now => exact .evicted now
  | setAgentHistory agentId history => exact .noted agentId history

end calls

def Spaced (config : SlashingConfig) (records : List SlashRecord) : Prop :=
  records.Pairwise fun first second =>
    first.agentId = second.agentId → first.penalty.condition = second.penalty.condition →
      first.timestamp.toNat + config.cooldownPeriodMs.toNat ≤ second.timestamp.toNat

theorem timestampsOf_recordSlashTimestamp (engine : SlashingEngine) (agent other : String)
    (condition : SlashingCondition) (now : UInt64) :
    (engine.recordSlashTimestamp agent condition now).timestampsOf other =
      if agent = other then engine.timestampsOf agent ++ [(condition, now)] else engine.timestampsOf other := by
  rw [recordSlashTimestamp, timestampsOf, lookup_insert_ite]
  split <;> rfl

theorem timestampsOf_evictExpired (engine : SlashingEngine) (agent : String) (now : UInt64) :
    (engine.evictExpired now).timestampsOf agent = (engine.timestampsOf agent).filter (engine.inWindow now) := by
  rw [timestampsOf, evictExpired, lookup_mapValues, timestampsOf]
  cases engine.slashTimestamps.lookup agent <;> rfl

variable {engine : SlashingEngine}

theorem admission_eq_ok : engine.admission agentId penalty now = .ok () ↔ engine.config.validate = .ok () ∧
      engine.isRateLimited agentId now = false ∧ engine.cooldownRemaining agentId penalty.condition now = none := by
  simp only [admission, unit_bind_eq_ok, ensure_eq_ok]
  cases engine.cooldownRemaining agentId penalty.condition now <;> simp

theorem cooldown_of_admitted (admitted : engine.admission agentId penalty now = .ok ())
    (stamped : (penalty.condition, earlier) ∈ engine.timestampsOf agentId) (before : earlier ≤ now) :
    earlier.toNat + engine.config.cooldownPeriodMs.toNat ≤ now.toNat := by
  have cooled := (admission_eq_ok.mp admitted).2.2
  have mem : earlier ∈ ((engine.timestampsOf agentId).filter fun entry => entry.1 = penalty.condition).map Prod.snd :=
    mem_map.mpr ⟨_, mem_filter.mpr ⟨stamped, by simp⟩, rfl⟩
  cases found : engine.lastSlashForCondition agentId penalty.condition with
  | none =>
    rw [lastSlashForCondition, max?_eq_none_iff] at found
    rw [found] at mem
    cases mem
  | some last =>
    rw [cooldownRemaining, found] at cooled
    have latest : earlier ≤ last := (max?_eq_some_iff.mp found).2 earlier mem
    have elapsed : ¬ saturatingSub now last < engine.config.cooldownPeriodMs := by
      intro active
      simp [active] at cooled
    rw [UInt64.not_lt, UInt64.le_iff_toNat_le, toNat_saturatingSub] at elapsed
    rw [UInt64.le_iff_toNat_le] at latest before
    omega

inductive Stamps (engine after : SlashingEngine) (call : Call) (answer : Answer) : Prop where
  | slashed (record : SlashRecord) (answered : answer.record? = some record)
      (reading : call.now? = some record.timestamp)
      (admitted : engine.admission record.agentId record.penalty record.timestamp = .ok ())
      (stamped : ∀ agent, after.timestampsOf agent =
        (engine.recordSlashTimestamp record.agentId record.penalty.condition record.timestamp).timestampsOf agent)
  | evicted (now : UInt64) (answered : answer.record? = none) (reading : call.now? = some now)
      (pruned : ∀ agent, after.timestampsOf agent = (engine.evictExpired now).timestampsOf agent)
  | kept (answered : answer.record? = none) (same : ∀ agent, after.timestampsOf agent = engine.timestampsOf agent)

theorem Outcome.config (outcome : Outcome engine call answer after) : after.config = engine.config := by
  cases outcome <;> rfl

theorem Outcome.stamps (outcome : Outcome engine call answer after) : Stamps engine after call answer := by
  cases outcome with
  | refused counter failed => exact .kept (record_of_failed failed) fun _ => rfl
  | drawn record draws reading applies =>
    exact .slashed record rfl (by rw [reading, applies.timestamp]) applies.admitted fun _ => rfl
  | chosen record absent applies =>
    exact .slashed record rfl (by rw [applies.timestamp]; rfl) applies.admitted fun _ => rfl
  | evicted now => exact .evicted now rfl rfl fun _ => rfl
  | _ => exact .kept rfl fun _ => rfl

theorem step_stamps (engine : SlashingEngine) (call : Call) :
    Stamps engine (machine.step engine call).2 call (machine.step engine call).1 :=
  (engine.step_outcome call).stamps

theorem config_step (engine : SlashingEngine) (call : Call) : (machine.step engine call).2.config = engine.config :=
  (engine.step_outcome call).config

/-- At a time, the engine has the timestamp of every slash, or the window has passed it. -/
structure Remembers (config : SlashingConfig) (time : UInt64) (records : List SlashRecord) (engine : SlashingEngine) :
    Prop where
  configured : engine.config = config
  read : ∀ record ∈ records, record.timestamp ≤ time
  stamped : ∀ record ∈ records,
    (record.penalty.condition, record.timestamp) ∈ engine.timestampsOf record.agentId ∨
      record.timestamp.toNat + config.rateLimitWindowMs.toNat < time.toNat

theorem slashes_concat (past : List (Call × Answer)) (call : Call) (answer : Answer) :
    slashes (past ++ [(call, answer)]) = slashes past ++ answer.record?.toList :=
  filterMap_concat _ past _

section remembering

variable {config : SlashingConfig} {time : UInt64} {records : List SlashRecord} {engine : SlashingEngine}

theorem Remembers.later {after : UInt64} (remembers : Remembers config time records engine) (passed : time ≤ after) :
    Remembers config after records engine where
  configured := remembers.configured
  read record mem := UInt64.le_trans (remembers.read record mem) passed
  stamped record mem :=
    (remembers.stamped record mem).imp_right (·.trans_le (UInt64.le_iff_toNat_le.mp passed))

theorem Remembers.step (remembers : Remembers config time records engine) (call : Call)
    (current : ∀ now, call.now? = some now → now = time) :
    Remembers config time (records ++ (machine.step engine call).1.record?.toList) (machine.step engine call).2 := by
  have configured := (config_step engine call).trans remembers.configured
  cases step_stamps engine call with
  | slashed new answered reading admitted stamped =>
    rw [answered]
    refine ⟨configured, forall_mem_append.mpr ⟨remembers.read, ?_⟩, forall_mem_append.mpr ⟨?_, ?_⟩⟩
    · simp [current _ reading]
    · intro record old
      refine (remembers.stamped record old).imp_left fun there => ?_
      rw [stamped, timestampsOf_recordSlashTimestamp]
      split
      next same =>
        rw [same]
        exact mem_append_left _ there
      · exact there
    · simp [stamped, timestampsOf_recordSlashTimestamp]
  | evicted now answered reading pruned =>
    rw [answered, toList_none, append_nil]
    refine ⟨configured, remembers.read, fun record mem => ?_⟩
    rcases remembers.stamped record mem with there | passed
    · rw [pruned, timestampsOf_evictExpired]
      by_cases recent : engine.inWindow now (record.penalty.condition, record.timestamp)
      · exact .inl (mem_filter.mpr ⟨there, recent⟩)
      · -- an entry that is pruned is older than the window
        rw [← current now reading]
        simp only [inWindow, decide_eq_true_eq, UInt64.not_le, UInt64.lt_iff_toNat_lt, toNat_saturatingSub,
          remembers.configured] at recent
        omega
    · exact .inr passed
  | kept answered same =>
    rw [answered, toList_none, append_nil]
    refine ⟨configured, remembers.read, fun record mem => ?_⟩
    rw [same]
    exact remembers.stamped record mem

end remembering

/-- Timestamps are kept for as long as the cooldown lasts, if anybody is slashed at all. -/
def KeepsCooldown (config : SlashingConfig) : Prop :=
  config.validate = .ok () → 0 < config.maxSlashesPerWindow →
    config.cooldownPeriodMs.toNat ≤ config.rateLimitWindowMs.toNat + 1

variable {config : SlashingConfig}

theorem spaced_step {time : UInt64} {records : List SlashRecord} (keeps : KeepsCooldown config)
    (remembers : Remembers config time records engine) (spaced : Spaced config records) (call : Call)
    (current : ∀ now, call.now? = some now → now = time) :
    Spaced config (records ++ (machine.step engine call).1.record?.toList) := by
  rcases step_stamps engine call with ⟨new, answered, reading, admitted, -⟩ | ⟨now, answered, -, -⟩ | ⟨answered, -⟩
  all_goals rw [answered]
  · rw [Spaced, pairwise_append]
    refine ⟨spaced, pairwise_singleton _ _, ?_⟩
    intro first mem second own sameAgent sameCondition
    rw [mem_singleton.mp own] at sameAgent sameCondition ⊢
    rcases remembers.stamped first mem with there | passed
    · rw [sameAgent, sameCondition] at there
      have before := remembers.read first mem
      rw [← current _ reading] at before
      have apart := cooldown_of_admitted admitted there before
      rwa [remembers.configured] at apart
    · obtain ⟨valid, free, -⟩ := admission_eq_ok.mp admitted
      rw [isRateLimited, decide_eq_false_iff_not, UInt32.not_le, remembers.configured] at free
      have room := keeps (remembers.configured ▸ valid) (Nat.lt_of_le_of_lt (Nat.zero_le _) free)
      rw [← current _ reading] at passed
      omega
  · simpa using spaced
  · simpa using spaced

theorem spaced_of_keepsCooldown (keeps : KeepsCooldown config)
    (account : Option ResourceAccount) (history : AList fun _ : String => AgentHistory) (calls : List Call)
    (ordered : (calls.filterMap Call.now?).Pairwise (· ≤ ·)) :
    Spaced config (slashes (machine.log (started config account history) calls)) := by
  have held := @Machine.invariant_clocked _ _ _ machine (started config account history) UInt64 _ Call.now?
    fun time past engine => Remembers config time (slashes past) engine ∧ Spaced config (slashes past)
  refine (held ?_ ?_ ?_ calls ordered u64Max fun now _ => le_u64Max now).2
  · exact fun time => ⟨⟨rfl, by simp [slashes], by simp [slashes]⟩, List.Pairwise.nil⟩
  · exact fun passed ⟨remembers, spaced⟩ => ⟨remembers.later passed, spaced⟩
  · rintro time past engine call current ⟨remembers, spaced⟩
    rw [slashes_concat]
    exact ⟨remembers.step call current, spaced_step keeps remembers spaced call current⟩

section forgetting

variable (engine : SlashingEngine) (agentId : String) (penalty : SlashingPenalty) (now : UInt64)

theorem admit_of_no_timestamps (valid : engine.config.validate = .ok ())
    (allowed : 0 < engine.config.maxSlashesPerWindow) (nothing : engine.timestampsOf agentId = []) :
    engine.admission agentId penalty now = .ok () := by
  refine admission_eq_ok.mpr ⟨valid, ?_, ?_⟩
  · rw [isRateLimited, countRecentSlashes, nothing, decide_eq_false_iff_not, UInt32.not_le]
    exact allowed
  · rw [cooldownRemaining, lastSlashForCondition, nothing]
    rfl

theorem slash_of_admitted (admitted : engine.admission agentId penalty now = .ok ())
    (unattached : engine.account = none)
    (room : ¬ engine.idCounter.toNat + 1 = UInt64.size) :
    ∃ record, machine.step engine (.slash agentId penalty now) =
        (.slashed (.ok record), { engine.entered record with idCounter := engine.idCounter + 1 }) ∧
      record.agentId = agentId ∧ record.penalty = penalty ∧ record.timestamp = now := by
  obtain ⟨config, records, history, timestamps, account, counter⟩ := engine
  cases unattached
  refine ⟨executedRecord ⟨config, records, history, timestamps, none, counter + 1⟩
    ("slash-" ++ toString (counter + 1)) agentId penalty now, ?_, rfl, rfl, rfl⟩
  simp only [machine, answering, slash, admitted, nextId, if_neg room]
  rfl

end forgetting

/-- A slash, an eviction once the window has passed, and the same slash again. -/
def forgetful (config : SlashingConfig) : List Call :=
  [.slash "agent" (.new .downtime .minor config.baseAmountMilli "") 0, .evictExpired (config.rateLimitWindowMs + 1),
    .slash "agent" (.new .downtime .minor config.baseAmountMilli "") (config.rateLimitWindowMs + 1)]

theorem timestampsOf_evicted (only : engine.timestampsOf agentId = [(condition, 0)])
    (next : (engine.config.rateLimitWindowMs + 1).toNat = engine.config.rateLimitWindowMs.toNat + 1) :
    (engine.evictExpired (engine.config.rateLimitWindowMs + 1)).timestampsOf agentId = [] := by
  rw [timestampsOf_evictExpired, only, filter_eq_nil_iff]
  intro entry mem
  rw [mem_singleton.mp mem, inWindow, decide_eq_true_eq, UInt64.le_iff_toNat_le, toNat_saturatingSub, next,
    UInt64.toNat_zero]
  omega

theorem keepsCooldown_of_forgetful
    (spaced : Spaced config (slashes (machine.log (started config none ∅) (forgetful config)))) :
    KeepsCooldown config := by
  intro valid allowed
  by_contra short
  have bound := config.cooldownPeriodMs.toNat_lt_size
  have next : (config.rateLimitWindowMs + 1).toNat = config.rateLimitWindowMs.toNat + 1 := toNat_add_one (by omega)
  obtain ⟨first, slashed, agent, penalized, stamp⟩ := slash_of_admitted (started config none ∅) "agent"
    (.new .downtime .minor config.baseAmountMilli "") 0 (admit_of_no_timestamps _ _ _ _ valid allowed rfl) rfl
    (show ¬ (0 : UInt64).toNat + 1 = UInt64.size by decide)
  -- the engine between the two slashes has forgotten the first one
  let between : SlashingEngine :=
    { (started config none ∅).entered first with idCounter := (started config none ∅).idCounter + 1 }
  have only : between.timestampsOf "agent" = [(.downtime, 0)] := by
    have recorded : between.timestampsOf "agent" = _ := timestampsOf_recordSlashTimestamp (started config none ∅)
      first.agentId "agent" first.penalty.condition first.timestamp
    rw [if_pos agent, penalized, stamp] at recorded
    exact recorded
  obtain ⟨second, again, sameAgent, samePenalty, later⟩ := slash_of_admitted
    (between.evictExpired (config.rateLimitWindowMs + 1)) "agent" (.new .downtime .minor config.baseAmountMilli "")
    (config.rateLimitWindowMs + 1)
    (admit_of_no_timestamps _ _ _ _ valid allowed (timestampsOf_evicted only next)) rfl
    (show ¬ ((0 : UInt64) + 1).toNat + 1 = UInt64.size by decide)
  have both : slashes (machine.log (started config none ∅) (forgetful config)) = [first, second] := by
    have evicted : machine.step between (.evictExpired (config.rateLimitWindowMs + 1)) =
      (.done, between.evictExpired (config.rateLimitWindowMs + 1)) := rfl
    simp only [forgetful, Machine.log, slashed]
    rw [evicted]
    simp only [again]
    rfl
  rw [both, Spaced, pairwise_pair] at spaced
  have apart := spaced (agent.trans sameAgent.symm) (by rw [penalized, samePenalty])
  rw [later] at apart
  omega

/-- Slashes for one condition keep their distance exactly if timestamps are kept for the cooldown,
or nobody is slashed. -/
theorem spaced_iff_keepsCooldown (config : SlashingConfig) :
    (∀ account history calls, (calls.filterMap Call.now?).Pairwise (· ≤ ·) →
      Spaced config (slashes (machine.log (started config account history) calls))) ↔ KeepsCooldown config := by
  constructor
  · intro spaced
    apply keepsCooldown_of_forgetful
    apply spaced
    simp [forgetful, Call.now?]
  · intro keeps account history calls ordered
    exact spaced_of_keepsCooldown keeps account history calls ordered

def hastyConfig : SlashingConfig := { SlashingConfig.default with rateLimitWindowMs := 1000 }

/-- An agent is slashed twice within a good second for one condition. -/
theorem hasty_not_spaced : ((forgetful hastyConfig).filterMap Call.now?).Pairwise (· ≤ ·) ∧
      ¬ Spaced hastyConfig (slashes (machine.log (started hastyConfig none ∅) (forgetful hastyConfig))) := by
  constructor
  · decide +kernel
  · unfold Spaced
    decide +kernel

end SlashingEngine

end Aafp.Economics
