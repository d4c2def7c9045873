import Aafp.Economics.Account
import Aafp.Foundation.SwapRemove

/-! The priority queue for tasks. -/
namespace Aafp.Economics

open Foundation

inductive PriorityBand where
  | critical
  | high
  | normal
  | low
  | bestEffort
deriving DecidableEq

def PriorityBand.bonusMilli : PriorityBand → Int64
  | .critical => 5000000
  | .high => 3000000
  | .normal => 1000000
  | .low => 500000
  | .bestEffort => 0

structure PriorityConfig where
  urgencyWeightMilli : Int64
  costWeightMilli : Int64
  resourceAvailabilityWeightMilli : Int64
  reputationWeightMilli : Int64
  maxCostMilli : Int64
  resourceCapacity : UInt64
  agingIntervalMs : UInt64
  agingBoostMilli : Int64
  agingMaxBoostMilli : Int64

inductive PriorityConfigError where
  | invalidPriorityConfig (message : String)

def clampMilli (value : Int64) : Int64 := if value < 0 then 0 else if 1000 < value then 1000 else value

namespace PriorityConfig

def default : PriorityConfig where
  urgencyWeightMilli := 250
  costWeightMilli := 250
  resourceAvailabilityWeightMilli := 250
  reputationWeightMilli := 250
  maxCostMilli := 1000000
  resourceCapacity := 100000
  agingIntervalMs := 60000
  agingBoostMilli := 50000
  agingMaxBoostMilli := 2000000

/-- Validate the configuration. -/
def validate (config : PriorityConfig) : Except PriorityConfigError Unit := do
  ensure (0 ≤ config.urgencyWeightMilli ∧ 0 ≤ config.costWeightMilli ∧ 0 ≤ config.resourceAvailabilityWeightMilli ∧
    0 ≤ config.reputationWeightMilli) (.invalidPriorityConfig "weights must be non-negative")
  ensure (0 < config.maxCostMilli) (.invalidPriorityConfig "max_cost_milli must be positive")
  ensure (config.agingIntervalMs ≠ 0) (.invalidPriorityConfig "aging_interval_ms must be positive")
  ensure (0 ≤ config.agingBoostMilli) (.invalidPriorityConfig "aging_boost_milli must be non-negative")
  ensure (0 ≤ config.agingMaxBoostMilli) (.invalidPriorityConfig "aging_max_boost_milli must be non-negative")

/-- How close a deadline is, within the horizon. The casts to signed words may wrap. -/
def urgencyFactor (deadline now deadlineHorizonMs : UInt64) : Option Int64 :=
  if deadline = 0 then some 0
  else if deadline ≤ now then some 1000
  else
    let remaining := deadline - now
    if deadlineHorizonMs = 0 ∨ deadlineHorizonMs ≤ remaining then some 0
    else
      (checkedDivInt (saturatingMulInt 1000 (deadlineHorizonMs - remaining).toInt64) deadlineHorizonMs.toInt64).map
        clampMilli

def costFactor (config : PriorityConfig) (costEstimateMilli : Int64) : Option Int64 :=
  if costEstimateMilli ≤ 0 then some 0
  else if config.maxCostMilli ≤ costEstimateMilli then some 1000
  else checkedDivInt (saturatingMulInt 1000 costEstimateMilli) config.maxCostMilli

def resourceFactor (config : PriorityConfig) (usage : ResourceUsage) : Option Int64 :=
  if config.resourceCapacity = 0 then some 0
  else if config.resourceCapacity ≤ usage.weightedTotal then some 0
  else
    checkedDivInt (saturatingMulInt 1000 (config.resourceCapacity - usage.weightedTotal).toInt64)
      config.resourceCapacity.toInt64

def contribution (factor weight : Int64) : Int64 := saturatingMulInt factor weight / 1000

def compositeScore (config : PriorityConfig) (deadline now deadlineHorizonMs : UInt64) (costEstimateMilli : Int64)
    (resourceEstimate : ResourceUsage) (reputationMilli : Int64) : Option Int64 := do
  let urgency ← urgencyFactor deadline now deadlineHorizonMs
  let cost ← config.costFactor costEstimateMilli
  let resource ← config.resourceFactor resourceEstimate
  let reputation := clampMilli reputationMilli
  some (saturatingAddInt (saturatingAddInt
      (saturatingAddInt (contribution urgency config.urgencyWeightMilli) (contribution cost config.costWeightMilli))
      (contribution resource config.resourceAvailabilityWeightMilli))
    (contribution reputation config.reputationWeightMilli))

end PriorityConfig

structure PriorityEntry where
  taskId : String
  agentId : String
  priorityScore : Int64
  resourceEstimate : ResourceUsage
  deadline : UInt64
  costEstimateMilli : Int64
  band : PriorityBand
  enqueueTime : UInt64
  boostMilli : Int64
  reputationMilli : Int64
  agingAccumulatedMilli : Int64

namespace PriorityEntry

def new (taskId agentId : String) (resourceEstimate : ResourceUsage) (deadline : UInt64) (costEstimateMilli : Int64)
    (band : PriorityBand) (reputationMilli : Int64) (enqueueTime : UInt64) : PriorityEntry where
  taskId
  agentId
  priorityScore := 0
  resourceEstimate
  deadline
  costEstimateMilli
  band
  enqueueTime
  boostMilli := 0
  reputationMilli := clampMilli reputationMilli
  agingAccumulatedMilli := 0

def recomputeScore (entry : PriorityEntry) (config : PriorityConfig) (now deadlineHorizonMs : UInt64) :
    Option PriorityEntry := do
  let composite ← config.compositeScore entry.deadline now deadlineHorizonMs entry.costEstimateMilli
    entry.resourceEstimate entry.reputationMilli
  some { entry with
    priorityScore := saturatingAddInt
      (saturatingAddInt (saturatingAddInt composite entry.band.bonusMilli) entry.boostMilli)
        entry.agingAccumulatedMilli }

/-- The score with the aging that was not applied yet. -/
def effectiveScoreWithAging (entry : PriorityEntry) (config : PriorityConfig) (now : UInt64) : Option Int64 :=
  if entry.enqueueTime < now ∧ 0 < config.agingBoostMilli then
    if config.agingIntervalMs = 0 then none
    else do
      let intervals := ((now - entry.enqueueTime) / config.agingIntervalMs).toInt64
      let alreadyApplied ← checkedDivInt entry.agingAccumulatedMilli config.agingBoostMilli
      let newIntervals := saturatingSubInt intervals alreadyApplied
      if 0 < newIntervals then do
        let room ← checkedSubInt config.agingMaxBoostMilli entry.agingAccumulatedMilli
        let additional := min (saturatingMulInt newIntervals config.agingBoostMilli) room
        some (saturatingAddInt entry.priorityScore (max additional 0))
      else some entry.priorityScore
  else some entry.priorityScore

end PriorityEntry

structure PriorityQueue where
  config : PriorityConfig
  entries : List PriorityEntry
  index : AList fun _ : String => Nat
  indexDirty : Bool
  deadlineHorizonMs : UInt64

namespace PriorityQueue

def empty (config : PriorityConfig) (deadlineHorizonMs : UInt64) : PriorityQueue where
  config
  entries := []
  index := ∅
  indexDirty := false
  deadlineHorizonMs

def new (config : PriorityConfig) : Except PriorityConfigError PriorityQueue := do
  config.validate
  .ok (empty config 3600000)

variable (queue : PriorityQueue)

def positions (entries : List PriorityEntry) : List (String × Nat) :=
  entries.zipIdx.map fun entry => (entry.1.taskId, entry.2)

def rebuildIndex : PriorityQueue :=
  { queue with
    index := (positions queue.entries).foldl (fun index entry => index.insert entry.1 entry.2) ∅
    indexDirty := false }

def ensureIndex : PriorityQueue := if queue.indexDirty then queue.rebuildIndex else queue

/-- Add an entry to the queue. -/
def enqueue (entry : PriorityEntry) (now : UInt64) : Option Bool × PriorityQueue :=
  let queue := queue.ensureIndex
  if entry.taskId ∈ queue.index then (some false, queue)
  else
    match entry.recomputeScore queue.config now queue.deadlineHorizonMs with
    | none => (none, queue)
    | some scored =>
      (some true, { queue with
        index := queue.index.insert entry.taskId queue.entries.length
        entries := queue.entries ++ [scored] })

/-- The loop over the entries after the first: a position replaces the best one so far if its score is
greater. -/
def findBetter (score : PriorityEntry → Option Int64) : Nat × Int64 → Nat → List PriorityEntry → Option Nat
  | best, _, [] => some best.1
  | best, position, entry :: entries => do
    let current ← score entry
    findBetter score (if best.2 < current then (position, current) else best) (position + 1) entries

def findBestIndex (now : UInt64) : Option Nat :=
  match queue.entries with
  | [] => none
  | first :: others => do
    let score ← first.effectiveScoreWithAging queue.config now
    findBetter (·.effectiveScoreWithAging queue.config now) (0, score) 1 others

def takeOut (position : Nat) : Option (Option PriorityEntry) × PriorityQueue :=
  match swapRemove queue.entries position with
  | none => (none, queue)
  | some (entry, entries) => (some (some entry), { queue with entries, indexDirty := true })

/-- Remove and return the highest-priority entry. -/
def dequeue (now : UInt64) : Option (Option PriorityEntry) × PriorityQueue :=
  if queue.entries = [] then (some none, queue)
  else
    match queue.findBestIndex now with
    | none => (none, queue)
    | some position => queue.takeOut position

def remove (taskId : String) : Option (Option PriorityEntry) × PriorityQueue :=
  let queue := queue.ensureIndex
  match queue.index.lookup taskId with
  | none => (some none, queue)
  | some position => queue.takeOut position

end PriorityQueue

end Aafp.Economics
