import Aafp.Economics.Account
import Aafp.Foundation.Bytes
import Aafp.Foundation.Machine

/-! Slashing. -/
namespace Aafp.Economics

open Foundation

inductive Severity where
  | minor
  | major
  | critical
deriving DecidableEq

def Severity.multiplier : Severity → UInt32
  | .minor => 1
  | .major => 5
  | .critical => 10

structure SlashingPenalty where
  condition : SlashingCondition
  amountMilli : Int64
  severity : Severity
  evidence : String
deriving DecidableEq

namespace SlashingPenalty

def computeAmount (baseAmountMilli : Int64) (severity : Severity) : Int64 :=
  .ofIntClamp (baseAmountMilli.toInt * severity.multiplier.toNat)

def new (condition : SlashingCondition) (severity : Severity) (baseAmountMilli : Int64) (evidence : String) :
    SlashingPenalty where
  condition
  amountMilli := computeAmount baseAmountMilli severity
  severity
  evidence

end SlashingPenalty

structure SlashingConfig where
  downtimeThresholdMs : UInt64
  missedTasksThreshold : UInt32
  maliciousBehaviorThreshold : UInt32
  resourceMisuseThreshold : UInt32
  contractViolationThreshold : UInt32
  repeatedFailuresThreshold : UInt32
  maxSlashPercentage : UInt32
  cooldownPeriodMs : UInt64
  baseAmountMilli : Int64
  maxSlashesPerWindow : UInt32
  rateLimitWindowMs : UInt64

namespace SlashingConfig

def default : SlashingConfig where
  downtimeThresholdMs := 3600000
  missedTasksThreshold := 5
  maliciousBehaviorThreshold := 1
  resourceMisuseThreshold := 3
  contractViolationThreshold := 1
  repeatedFailuresThreshold := 3
  maxSlashPercentage := 50
  cooldownPeriodMs := 3600000
  baseAmountMilli := 10000
  maxSlashesPerWindow := 5
  rateLimitWindowMs := 3600000

def validate (config : SlashingConfig) : Except EconomicsError Unit := do
  ensure (config.maxSlashPercentage ≤ 100) (.invalidSlashingConfig "max_slash_percentage must be 0-100")
  ensure (0 ≤ config.baseAmountMilli) (.invalidSlashingConfig "base_amount_milli must be non-negative")

end SlashingConfig

inductive SlashStatus where
  | pending
  | executed
  | appealed
  | reversed
  | upheld
deriving DecidableEq

def SlashStatus.debug : SlashStatus → String
  | .pending => "Pending"
  | .executed => "Executed"
  | .appealed => "Appealed"
  | .reversed => "Reversed"
  | .upheld => "Upheld"

structure AppealInfo where
  filedBy : String
  evidence : String
  filedAt : UInt64
  arbiter : String
  resolutionNote : Option String
deriving DecidableEq

def AppealInfo.new (filedBy evidence : String) (filedAt : UInt64) : AppealInfo where
  filedBy
  evidence
  filedAt
  arbiter := ""
  resolutionNote := none

structure SlashRecord where
  id : String
  agentId : String
  penalty : SlashingPenalty
  timestamp : UInt64
  status : SlashStatus
  appeal : Option AppealInfo
  executedAt : Option UInt64
  executedAmountMilli : Int64
deriving DecidableEq

def SlashRecord.new (id agentId : String) (penalty : SlashingPenalty) (timestamp : UInt64) : SlashRecord where
  id
  agentId
  penalty
  timestamp
  status := .pending
  appeal := none
  executedAt := none
  executedAmountMilli := penalty.amountMilli

def SlashRecord.resolved (record : SlashRecord) (uphold : Bool) (note : String) : SlashRecord :=
  { record with
    status := if uphold then .upheld else .reversed
    appeal := record.appeal.map fun appeal => { appeal with resolutionNote := some note } }

structure AgentHistory where
  lastSeenMs : UInt64
  missedTaskCount : UInt32
  consecutiveFailures : UInt32
  resourceOveruseCount : UInt32
  contractViolations : UInt32
  maliciousFlags : UInt32

structure SlashingEngine where
  config : SlashingConfig
  records : AList fun _ : String => SlashRecord
  agentHistory : AList fun _ : String => AgentHistory
  slashTimestamps : AList fun _ : String => List (SlashingCondition × UInt64)
  account : Option ResourceAccount
  idCounter : UInt64

namespace SlashingEngine

def new (config : SlashingConfig) : SlashingEngine where
  config
  records := ∅
  agentHistory := ∅
  slashTimestamps := ∅
  account := none
  idCounter := 0

variable (engine : SlashingEngine)

/-- The id that the counter gives out next. -/
def nextLabel : String := "slash-" ++ toString (engine.idCounter + 1)

/-- Generate a slash record id. Nothing is returned if the counter overflows. -/
def nextId : Option (String × SlashingEngine) :=
  if engine.idCounter.toNat + 1 = UInt64.size then none
  else some (engine.nextLabel, { engine with idCounter := engine.idCounter + 1 })

variable (agentId : String)

def setAgentHistory (history : AgentHistory) : SlashingEngine :=
  { engine with agentHistory := engine.agentHistory.insert agentId history }

variable (agent : String)

def timestampsOf : List (SlashingCondition × UInt64) :=
  (engine.slashTimestamps.lookup agent).getD []

def inWindow (now : UInt64) (entry : SlashingCondition × UInt64) : Bool :=
  saturatingSub now entry.2 ≤ engine.config.rateLimitWindowMs

def countRecentSlashes (now : UInt64) : UInt32 :=
  .ofNat ((engine.timestampsOf agent).filter (engine.inWindow now)).length

variable (condition : SlashingCondition)

def lastSlashForCondition : Option UInt64 :=
  (((engine.timestampsOf agent).filter fun entry => entry.1 = condition).map Prod.snd).max?

def recordSlashTimestamp (now : UInt64) : SlashingEngine :=
  { engine with
    slashTimestamps := engine.slashTimestamps.insert agent (engine.timestampsOf agent ++ [(condition, now)]) }

def evictExpired (now : UInt64) : SlashingEngine :=
  { engine with slashTimestamps := mapValues (·.filter (engine.inWindow now)) engine.slashTimestamps }

def isRateLimited (now : UInt64) : Bool :=
  engine.config.maxSlashesPerWindow ≤ engine.countRecentSlashes agent now

def cooldownRemaining (now : UInt64) : Option UInt64 :=
  match engine.lastSlashForCondition agent condition with
  | none => none
  | some last =>
    let elapsed := saturatingSub now last
    if elapsed < engine.config.cooldownPeriodMs then some (engine.config.cooldownPeriodMs - elapsed) else none

def evaluateCondition (now : UInt64) : Bool :=
  match engine.agentHistory.lookup agentId with
  | none => false
  | some history =>
    match condition with
    | .downtime => engine.config.downtimeThresholdMs < saturatingSub now history.lastSeenMs
    | .missedTasks => engine.config.missedTasksThreshold ≤ history.missedTaskCount
    | .maliciousBehavior => engine.config.maliciousBehaviorThreshold ≤ history.maliciousFlags
    | .resourceMisuse => engine.config.resourceMisuseThreshold ≤ history.resourceOveruseCount
    | .contractViolation => engine.config.contractViolationThreshold ≤ history.contractViolations
    | .repeatedFailures => engine.config.repeatedFailuresThreshold ≤ history.consecutiveFailures

variable (penalty : SlashingPenalty)

def admission (now : UInt64) : Except EconomicsError Unit := do
  engine.config.validate
  ensure (engine.isRateLimited agentId now = false) (.slashRateLimited agentId)
  match engine.cooldownRemaining agentId penalty.condition now with
  | some remaining => .error (.slashCooldownActive agentId penalty.condition remaining)
  | none => .ok ()

/-- The amount of a penalty, capped by the maximal percentage of the agent's balance. -/
def cappedAmount : Int64 :=
  match engine.account with
  | none => penalty.amountMilli
  | some account =>
    let balanceTokens := (account.balance agentId).inferenceTokens
    if 0 < engine.config.maxSlashPercentage ∧ engine.config.maxSlashPercentage < 100 then
      let maxSlash := balanceTokens / 100 * engine.config.maxSlashPercentage.toUInt64
      if penalty.amountMilli ≤ maxSlash.toInt64 then penalty.amountMilli else maxSlash.toInt64
    else penalty.amountMilli

/-- The amount that is debited, which is not negative. -/
def effectiveAmount : Int64 :=
  if engine.cappedAmount agentId penalty < 0 then 0 else engine.cappedAmount agentId penalty

/-- An amount in the dimension that stands for credits. -/
def tokens (amount : Int64) : ResourceUsage := ⟨0, 0, 0, 0, 0, amount.toUInt64⟩

def debitAccount (amount : Int64) : Except EconomicsError Unit × SlashingEngine :=
  match engine.account with
  | none => (.ok (), engine)
  | some account =>
    if 0 < amount then
      match account.debit agentId (tokens amount) with
      | (result, account) => (result, { engine with account := some account })
    else (.ok (), engine)

def executedRecord (id agentId : String) (penalty : SlashingPenalty) (now : UInt64) : SlashRecord :=
  { SlashRecord.new id agentId penalty now with
    executedAmountMilli := engine.effectiveAmount agentId penalty
    status := .executed
    executedAt := some now }

def execute (id agentId : String) (penalty : SlashingPenalty) (now : UInt64) :
    Except Interruption SlashRecord × SlashingEngine :=
  let record := engine.executedRecord id agentId penalty now
  match engine.debitAccount record.agentId record.executedAmountMilli with
  | (.error error, engine) => (.error (.refused error), engine)
  | (.ok (), engine) =>
    let engine := engine.recordSlashTimestamp record.agentId record.penalty.condition now
    (.ok record, { engine with records := engine.records.insert record.id record })

/-- Apply a slashing penalty to an agent. -/
def slash (now : UInt64) : Except Interruption SlashRecord × SlashingEngine :=
  match engine.admission agentId penalty now with
  | .error error => (.error (.refused error), engine)
  | .ok () =>
    match engine.nextId with
    | none => (.error .overflow, engine)
    | some (id, engine) => engine.execute id agentId penalty now

def slashWithId (id agentId : String) (penalty : SlashingPenalty) (now : UInt64) :
    Except Interruption SlashRecord × SlashingEngine :=
  if id ∈ engine.records then
    (.error (.refused (.invalidSlashState id "slash record ID already exists")), engine)
  else
    match engine.admission agentId penalty now with
    | .error error => (.error (.refused error), engine)
    | .ok () => engine.execute id agentId penalty now

def evaluateAndSlash
    (severity : Severity) (evidence : String) (now : UInt64) : Except Interruption SlashRecord × SlashingEngine :=
  if engine.evaluateCondition agentId condition now then
    engine.slash agentId (.new condition severity engine.config.baseAmountMilli evidence) now
  else (.error (.refused (.slashConditionNotMet agentId condition)), engine)

def onRecord (slashId : String) (expected : SlashStatus)
    (change : SlashRecord → SlashRecord) : Except EconomicsError SlashRecord × SlashingEngine :=
  match engine.records.lookup slashId with
  | none => (.error (.slashNotFound slashId), engine)
  | some record =>
    if record.status = expected then
      (.ok (change record), { engine with records := engine.records.insert slashId (change record) })
    else
      (.error (.invalidSlashState slashId
        ("expected " ++ expected.debug ++ ", got " ++ record.status.debug)), engine)

/-- File an appeal against an executed slash. -/
def appeal (engine : SlashingEngine) (slashId filedBy evidence : String) (now : UInt64) :
    Except EconomicsError SlashRecord × SlashingEngine :=
  engine.onRecord slashId .executed fun record =>
    { record with
      status := .appealed
      appeal := some (.new filedBy evidence now) }

def assignArbiter (slashId arbiter : String) : Except EconomicsError SlashRecord × SlashingEngine :=
  engine.onRecord slashId .appealed fun record =>
    { record with appeal := record.appeal.map fun appeal => { appeal with arbiter } }

def refund (amount : Int64) : SlashingEngine :=
  match engine.account with
  | none => engine
  | some account =>
    if 0 < amount then { engine with account := some (account.credit agentId (tokens amount)) } else engine

/-- Resolve an appealed slash. -/
def resolveAppeal (slashId : String) (uphold : Bool) (note : String) :
    Except EconomicsError SlashRecord × SlashingEngine :=
  match engine.onRecord slashId .appealed (·.resolved uphold note) with
  | (.error error, engine) => (.error error, engine)
  | (.ok record, engine) =>
    (.ok record, if uphold then engine else engine.refund record.agentId record.executedAmountMilli)

def remove (id : String) : Option SlashRecord × SlashingEngine :=
  (engine.records.lookup id, { engine with records := engine.records.erase id })

theorem toNat_maxSlash (tokens : UInt64) {percentage : UInt32} (below : percentage.toNat < 100) :
    (tokens / 100 * percentage.toUInt64).toNat = tokens.toNat / 100 * percentage.toNat := by
  have fits : tokens.toNat / 100 * percentage.toNat < 2 ^ 64 := by
    calc tokens.toNat / 100 * percentage.toNat
        ≤ tokens.toNat / 100 * 100 := Nat.mul_le_mul_left _ (Nat.le_of_lt below)
      _ ≤ tokens.toNat := Nat.div_mul_le_self _ _
      _ < 2 ^ 64 := tokens.toNat_lt
  exact Nat.mod_eq_of_lt fits

theorem toInt_effectiveAmount {account : ResourceAccount} (attached : engine.account = some account) :
    let percentage := engine.config.maxSlashPercentage
    (engine.effectiveAmount agentId penalty).toInt = max 0
      (if 0 < percentage.toNat ∧ percentage.toNat < 100 then min penalty.amountMilli.toInt
        ((account.balance agentId).inferenceTokens / 100 * percentage.toUInt64).toInt64.toInt
      else penalty.amountMilli.toInt) := by
  simp only [effectiveAmount, cappedAmount, attached, Int64.lt_iff_toInt_lt, Int64.le_iff_toInt_le,
    UInt32.lt_iff_toNat_lt, apply_ite Int64.toInt, Int64.toInt_zero, UInt32.toNat_zero, UInt32.reduceToNat]
  omega

variable {engine agentId penalty}

theorem executedAmount_of_execute {id : String} (done : (engine.execute id agentId penalty now).1 = .ok record) :
    record.executedAmountMilli = engine.effectiveAmount agentId penalty := by
  simp only [execute] at done
  split at done <;> cases done
  rfl

theorem executedAmount_of_slash {id : String}
    (done : (engine.slash agentId penalty now).1 = .ok record ∨
      (engine.slashWithId id agentId penalty now).1 = .ok record) :
    record.executedAmountMilli = engine.effectiveAmount agentId penalty := by
  rcases done with done | done
  · unfold slash nextId at done
    split at done
    · cases done
    · split at done
      · cases done
      next drawn =>
        split at drawn <;> cases drawn
        exact (executedAmount_of_execute done :)
  · unfold slashWithId at done
    split at done
    · cases done
    · split at done
      · cases done
      · exact executedAmount_of_execute done

/-- The cap on a slash holds between 1 and 99 percent. A cap that does not fit into an `i64` counts
as zero. -/
theorem executed_within_share_iff (engine : SlashingEngine) (account : ResourceAccount)
    (attached : engine.account = some account) (id agentId : String) (penalty : SlashingPenalty) (now : UInt64)
    (record : SlashRecord) (done : (engine.slash agentId penalty now).1 = .ok record ∨
      (engine.slashWithId id agentId penalty now).1 = .ok record) :
    let executed := record.executedAmountMilli.toInt
    let amount := penalty.amountMilli.toInt
    let percentage := engine.config.maxSlashPercentage.toNat
    let balance := (account.balance agentId).inferenceTokens.toNat
    (0 ≤ executed ∧ executed ≤ max 0 amount) ∧
    (executed * 100 ≤ percentage * balance ↔
      (0 < percentage ∧ percentage < 100) ∨ max 0 amount * 100 ≤ percentage * balance) ∧
    (0 < percentage → percentage < 100 → 0 ≤ amount →
      (executed = min amount ↑(balance / 100 * percentage) ↔ amount = 0 ∨ balance / 100 * percentage < 2 ^ 63)) := by
  intro executed amount percentage balance
  have result : executed = _ :=
    (congrArg Int64.toInt (executedAmount_of_slash done)).trans (engine.toInt_effectiveAmount agentId penalty attached)
  by_cases capped : 0 < percentage ∧ percentage < 100
  · have share : balance / 100 * percentage * 100 ≤ percentage * balance := by
      rw [Nat.mul_right_comm, Nat.mul_comm]
      exact Nat.mul_le_mul_left _ (Nat.div_mul_le_self _ _)
    have product : _ = balance / 100 * percentage := toNat_maxSlash _ capped.2
    rw [if_pos capped, toInt_toInt64] at result
    have fits := ((account.balance agentId).inferenceTokens / 100 * engine.config.maxSlashPercentage.toUInt64).toNat_lt
    omega
  · omega

/-- An agent that has 1000 tokens, and a cap on what is taken. -/
def capping (percentage : UInt32) : SlashingEngine :=
  { new { SlashingConfig.default with maxSlashPercentage := percentage } with
    account := some (ResourceAccount.onEntry (.new .default) "agent" (·.debit (tokens 1000))) }

theorem executed_within_half : ∃ record, ((capping 50).slash "agent" (.new .downtime .minor 5000 "") 0).1 = .ok record ∧
    record.executedAmountMilli.toInt * 100 ≤ 50 * 1000 :=
  ⟨(capping 50).executedRecord "slash-1" "agent" (.new .downtime .minor 5000 "") 0, by decide +kernel,
    (executed_within_share_iff (capping 50) _ rfl "" "agent" (.new .downtime .minor 5000 "") 0 _
      (.inl (by decide +kernel))).2.1.mpr (.inl (by decide))⟩

/-- With 0 and with 100 percent, more than that share of the 1000 tokens is taken. -/
theorem executed_beyond_share :
    (∃ record, ((capping 0).slash "agent" (.new .downtime .minor 5000 "") 0).1 = .ok record ∧
      ¬ record.executedAmountMilli.toInt * 100 ≤ 0 * 1000) ∧
    ∃ record, ((capping 100).slash "agent" (.new .downtime .minor 5000 "") 0).1 = .ok record ∧
      ¬ record.executedAmountMilli.toInt * 100 ≤ 100 * 1000 :=
  ⟨⟨(capping 0).executedRecord "slash-1" "agent" (.new .downtime .minor 5000 "") 0, by decide +kernel,
    by decide +kernel⟩,
    (capping 100).executedRecord "slash-1" "agent" (.new .downtime .minor 5000 "") 0, by decide +kernel,
    by decide +kernel⟩

end SlashingEngine

end Aafp.Economics
