import Aafp.Foundation.HashMap
import Aafp.Foundation.Result
import Aafp.Foundation.Saturating

/-! Resource accounting. -/
namespace Aafp.Economics

open Foundation

inductive SlashingCondition where
  | downtime
  | missedTasks
  | maliciousBehavior
  | resourceMisuse
  | contractViolation
  | repeatedFailures
deriving DecidableEq

inductive EconomicsError where
  | limitExceeded (agent resource : String) (wouldBe limit : UInt64)
  | insufficientBalance (agent : String) (has need : UInt64)
  | compensationNotFound (id : String)
  | invalidCompensationState (id message : String)
  | compensationExceedsMaximum (amount maximum : Int64)
  | compensationPolicyViolation (message : String)
  | slashNotFound (id : String)
  | invalidSlashState (id message : String)
  | slashConditionNotMet (agent : String) (condition : SlashingCondition)
  | slashRateLimited (agent : String)
  | slashCooldownActive (agent : String) (condition : SlashingCondition) (remainingMs : UInt64)
  | invalidSlashingConfig (message : String)
deriving DecidableEq

/-- A call that does not return a result: an error, or the panic of a counter that overflows. -/
inductive Interruption where
  | refused (error : EconomicsError)
  | overflow
deriving DecidableEq

/-- The six dimensions of resources. -/
inductive Resource where
  | cpuMs
  | memoryMb
  | storageMb
  | networkKb
  | apiCalls
  | inferenceTokens

structure ResourceUsage where
  cpuMs : UInt64
  memoryMb : UInt64
  storageMb : UInt64
  networkKb : UInt64
  apiCalls : UInt64
  inferenceTokens : UInt64
deriving DecidableEq

namespace ResourceUsage

def zero : ResourceUsage := ⟨0, 0, 0, 0, 0, 0⟩

def of (usage : ResourceUsage) : Resource → UInt64
  | .cpuMs => usage.cpuMs
  | .memoryMb => usage.memoryMb
  | .storageMb => usage.storageMb
  | .networkKb => usage.networkKb
  | .apiCalls => usage.apiCalls
  | .inferenceTokens => usage.inferenceTokens

theorem ext_of {left right : ResourceUsage} (same : ∀ resource, left.of resource = right.of resource) :
    left = right := by
  cases left
  cases right
  simp only [mk.injEq]
  exact ⟨same .cpuMs, same .memoryMb, same .storageMb, same .networkKb, same .apiCalls, same .inferenceTokens⟩

def add (usage other : ResourceUsage) : ResourceUsage where
  cpuMs := saturatingAdd usage.cpuMs other.cpuMs
  memoryMb := saturatingAdd usage.memoryMb other.memoryMb
  storageMb := saturatingAdd usage.storageMb other.storageMb
  networkKb := saturatingAdd usage.networkKb other.networkKb
  apiCalls := saturatingAdd usage.apiCalls other.apiCalls
  inferenceTokens := saturatingAdd usage.inferenceTokens other.inferenceTokens

def saturatingSub (usage other : ResourceUsage) : ResourceUsage where
  cpuMs := Foundation.saturatingSub usage.cpuMs other.cpuMs
  memoryMb := Foundation.saturatingSub usage.memoryMb other.memoryMb
  storageMb := Foundation.saturatingSub usage.storageMb other.storageMb
  networkKb := Foundation.saturatingSub usage.networkKb other.networkKb
  apiCalls := Foundation.saturatingSub usage.apiCalls other.apiCalls
  inferenceTokens := Foundation.saturatingSub usage.inferenceTokens other.inferenceTokens

def weightedTotal (usage : ResourceUsage) : UInt64 :=
  let cpu := usage.cpuMs
  let mem := saturatingMul usage.memoryMb 10
  let storage := saturatingMul usage.storageMb 2
  let net := saturatingMul usage.networkKb 5
  let api := saturatingMul usage.apiCalls 100
  let tokens := usage.inferenceTokens
  saturatingAdd (saturatingAdd (saturatingAdd (saturatingAdd (saturatingAdd cpu mem) storage) net) api) tokens

variable (usage other : ResourceUsage) (resource : Resource)

@[simp] theorem of_zero : zero.of resource = 0 := by
  cases resource <;> rfl

@[simp] theorem of_add : (usage.add other).of resource = saturatingAdd (usage.of resource) (other.of resource) := by
  cases resource <;> rfl

@[simp] theorem of_saturatingSub :
    (usage.saturatingSub other).of resource = Foundation.saturatingSub (usage.of resource) (other.of resource) := by
  cases resource <;> rfl

end ResourceUsage

/-- Per-agent resource limits. -/
structure ResourceLimits where
  cpuMs : UInt64
  memoryMb : UInt64
  storageMb : UInt64
  networkKb : UInt64
  apiCalls : UInt64
  inferenceTokens : UInt64

namespace ResourceLimits

def unlimited : ResourceLimits := ⟨u64Max, u64Max, u64Max, u64Max, u64Max, u64Max⟩

def of (limits : ResourceLimits) : Resource → UInt64
  | .cpuMs => limits.cpuMs
  | .memoryMb => limits.memoryMb
  | .storageMb => limits.storageMb
  | .networkKb => limits.networkKb
  | .apiCalls => limits.apiCalls
  | .inferenceTokens => limits.inferenceTokens

/-- Check whether a usage fits within these limits; the error names the first resource that
exceeds. -/
def check (limits : ResourceLimits) (usage : ResourceUsage) : Except (String × UInt64 × UInt64) Unit := do
  ensure (usage.cpuMs ≤ limits.cpuMs) ("cpu_ms", usage.cpuMs, limits.cpuMs)
  ensure (usage.memoryMb ≤ limits.memoryMb) ("memory_mb", usage.memoryMb, limits.memoryMb)
  ensure (usage.storageMb ≤ limits.storageMb) ("storage_mb", usage.storageMb, limits.storageMb)
  ensure (usage.networkKb ≤ limits.networkKb) ("network_kb", usage.networkKb, limits.networkKb)
  ensure (usage.apiCalls ≤ limits.apiCalls) ("api_calls", usage.apiCalls, limits.apiCalls)
  ensure (usage.inferenceTokens ≤ limits.inferenceTokens)
    ("inference_tokens", usage.inferenceTokens, limits.inferenceTokens)

theorem check_eq_ok {limits : ResourceLimits} :
    limits.check usage = .ok () ↔ ∀ resource, usage.of resource ≤ limits.of resource := by
  simp only [check, unit_bind_eq_ok, ensure_eq_ok]
  constructor
  · rintro ⟨cpu, memory, storage, network, api, tokens⟩ resource
    cases resource <;> assumption
  · intro each
    exact ⟨each .cpuMs, each .memoryMb, each .storageMb, each .networkKb, each .apiCalls, each .inferenceTokens⟩

end ResourceLimits

inductive OverflowPolicy where
  | reject
  | allow
  | warn

structure AccountConfig where
  defaultLimits : ResourceLimits
  agentLimits : AList fun _ : String => ResourceLimits
  overflowPolicy : OverflowPolicy

def AccountConfig.default : AccountConfig := ⟨.unlimited, ∅, .reject⟩

def AccountConfig.limitsFor (config : AccountConfig) (agent : String) : ResourceLimits :=
  (config.agentLimits.lookup agent).getD config.defaultLimits

inductive LimitCheck where
  | ok
  | warning (resource : String) (wouldBe limit : UInt64)

structure AgentLedger where
  netUsage : ResourceUsage
  totalDebited : ResourceUsage
  totalCredited : ResourceUsage

namespace AgentLedger

def new : AgentLedger := ⟨.zero, .zero, .zero⟩

def debit (ledger : AgentLedger) (usage : ResourceUsage) : AgentLedger :=
  { ledger with
    netUsage := ledger.netUsage.add usage
    totalDebited := ledger.totalDebited.add usage }

def credit (ledger : AgentLedger) (usage : ResourceUsage) : AgentLedger :=
  { ledger with
    netUsage := ledger.netUsage.saturatingSub usage
    totalCredited := ledger.totalCredited.add usage }

end AgentLedger

/-- Tracks resource consumption per agent. -/
structure ResourceAccount where
  config : AccountConfig
  ledgers : AList fun _ : String => AgentLedger

namespace ResourceAccount

def new (config : AccountConfig) : ResourceAccount := ⟨config, ∅⟩

variable (account : ResourceAccount) (agent : String)

/-- Register an agent with an empty ledger. Returns `false` if the agent already exists. -/
def register : Bool × ResourceAccount :=
  if agent ∈ account.ledgers then (false, account)
  else (true, { account with ledgers := account.ledgers.insert agent .new })

def balance : ResourceUsage :=
  ((account.ledgers.lookup agent).map AgentLedger.netUsage).getD .zero

/-- Change the ledger of an agent, which is created if the agent is unknown. -/
def onEntry (change : AgentLedger → AgentLedger) : ResourceAccount :=
  { account with ledgers := account.ledgers.insert agent (change ((account.ledgers.lookup agent).getD .new)) }

def checkLimits (usage : ResourceUsage) : Except (String × UInt64 × UInt64) Unit :=
  let current := account.balance agent
  let projected := current.add usage
  (account.config.limitsFor agent).check projected

def debitChecked (usage : ResourceUsage) : Except EconomicsError LimitCheck × ResourceAccount :=
  match account.checkLimits agent usage with
  | .ok () => (.ok .ok, account.onEntry agent (·.debit usage))
  | .error (resource, wouldBe, limit) =>
    match account.config.overflowPolicy with
    | .reject => (.error (.limitExceeded agent resource wouldBe limit), account)
    | .allow => (.ok .ok, account.onEntry agent (·.debit usage))
    | .warn => (.ok (.warning resource wouldBe limit), account.onEntry agent (·.debit usage))

/-- Record resource consumption. -/
def debit (usage : ResourceUsage) : Except EconomicsError Unit × ResourceAccount :=
  match account.debitChecked agent usage with
  | (result, account) => (result.map fun _ => (), account)

def credit (account : ResourceAccount) (agent : String) (usage : ResourceUsage) : ResourceAccount :=
  account.onEntry agent (·.credit usage)

/-- Transfer resources from one agent to another: the source is credited and the destination is
debited, without a check of its limits. -/
def transfer (fromAgent toAgent : String) (usage : ResourceUsage) : Except EconomicsError Unit × ResourceAccount :=
  let fromBalance := account.balance fromAgent
  if fromBalance.cpuMs < usage.cpuMs ∨ fromBalance.memoryMb < usage.memoryMb ∨
      fromBalance.storageMb < usage.storageMb ∨ fromBalance.networkKb < usage.networkKb ∨
      fromBalance.apiCalls < usage.apiCalls ∨ fromBalance.inferenceTokens < usage.inferenceTokens then
    (.error (.insufficientBalance fromAgent fromBalance.weightedTotal usage.weightedTotal), account)
  else (.ok (), (account.onEntry fromAgent (·.credit usage)).onEntry toAgent (·.debit usage))

def reset : ResourceAccount :=
  match account.ledgers.lookup agent with
  | some _ => { account with ledgers := account.ledgers.insert agent .new }
  | none => account

def remove : Bool × ResourceAccount :=
  (decide (agent ∈ account.ledgers), { account with ledgers := account.ledgers.erase agent })

def Covers (usage : ResourceUsage) : Prop :=
  ∀ resource, usage.of resource ≤ (account.balance agent).of resource

variable (change : AgentLedger → AgentLedger) (account : ResourceAccount) (agent other : String)
  (usage : ResourceUsage)

theorem balance_onEntry : (account.onEntry agent change).balance other =
      if agent = other then (change ((account.ledgers.lookup agent).getD .new)).netUsage
      else account.balance other := by
  unfold balance onEntry
  rw [lookup_insert_ite]
  split <;> rfl

theorem netUsage_entry : ((account.ledgers.lookup agent).getD .new).netUsage = account.balance agent := by
  rw [balance]
  cases account.ledgers.lookup agent <;> rfl

theorem balance_debited : (account.onEntry agent (·.debit usage)).balance other =
      if agent = other then (account.balance agent).add usage else account.balance other := by
  rw [balance_onEntry, AgentLedger.debit, netUsage_entry]

theorem balance_credit : (account.credit agent usage).balance other =
      if agent = other then (account.balance agent).saturatingSub usage else account.balance other := by
  rw [credit, balance_onEntry, AgentLedger.credit, netUsage_entry]

theorem debitChecked_cases :
    (∃ check, account.debitChecked agent usage = (.ok check, account.onEntry agent (·.debit usage)) ∧
        (account.config.overflowPolicy = .reject → account.checkLimits agent usage = .ok ())) ∨
      ∃ error, account.debitChecked agent usage = (.error error, account) := by
  unfold debitChecked
  cases fits : account.checkLimits agent usage with
  | ok => exact .inl ⟨.ok, rfl, fun _ => rfl⟩
  | error exceeded =>
    cases policy : account.config.overflowPolicy with
    | reject => exact .inr ⟨_, rfl⟩
    | allow => exact .inl ⟨.ok, rfl, nofun⟩
    | warn => exact .inl ⟨_, rfl, nofun⟩

theorem transfer_of_covers (covers : account.Covers fromAgent usage) : account.transfer fromAgent other usage =
      (.ok (), (account.credit fromAgent usage).onEntry other (·.debit usage)) := by
  have enough : ∀ resource, ¬ (account.balance fromAgent).of resource < usage.of resource :=
    fun resource => UInt64.not_lt.mpr (covers resource)
  refine if_neg ?_
  simp only [not_or]
  exact ⟨enough .cpuMs, enough .memoryMb, enough .storageMb, enough .networkKb, enough .apiCalls,
    enough .inferenceTokens⟩

theorem transfer_of_not_covers (lacks : ¬ account.Covers fromAgent usage) :
    ∃ error, account.transfer fromAgent other usage = (.error error, account) := by
  refine ⟨_, if_pos ?_⟩
  by_contra enough
  simp only [not_or, UInt64.not_lt] at enough
  obtain ⟨cpu, memory, storage, network, api, tokens⟩ := enough
  refine lacks fun resource => ?_
  cases resource <;> assumption

end ResourceAccount

end Aafp.Economics
