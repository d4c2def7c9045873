import Aafp.Execution.Plan
import Aafp.Foundation.Clock
import Aafp.Foundation.Grouping

/-! The aggregator of results. -/
namespace Aafp.Execution

open Foundation Crypto Identity

structure Scores (F : Type) where
  zero : F
  partialCmp : F → F → Option Ordering

def Scores.positive (scores : Scores F) (score : F) : Bool := scores.partialCmp score scores.zero = some .gt

structure TaskResult where
  taskId : TaskId
  agentId : AgentId
  output : List UInt8
  metadata : AList fun _ : String => String
  timestamp : UInt64
  success : Bool
deriving DecidableEq

def TaskResult.outputHash (sha256 : List UInt8 → Bytes32) (result : TaskResult) : Bytes32 :=
  sha256 result.output

inductive AggregationStrategy where
  | firstSuccess
  | allRequired
  | bestOfN (n : Nat)
  | quorum (n : Nat)

structure AggregationConfig (F : Type) where
  strategy : AggregationStrategy := .firstSuccess
  timeoutMs : UInt64 := 30000
  minResults : Nat := 1
  verifier : Option (TaskResult → F) := none
  mergeFn : Option (List (List UInt8) → List UInt8) := none

structure AggregationOutcome where
  output : List UInt8
  results : List TaskResult
  success : Bool
  reason : String
  selectedAgent : Option AgentId

namespace AggregationOutcome

def succeeded (output : List UInt8) (results : List TaskResult) (reason : String) : AggregationOutcome where
  output := output
  results := results
  success := true
  reason := reason
  selectedAgent :=
    (results.find? fun result => result.success && result.output = output).map TaskResult.agentId

def failure (results : List TaskResult) (reason : String) : AggregationOutcome :=
  ⟨[], results, false, reason, none⟩

end AggregationOutcome

structure ResultAggregator (F : Type) where
  config : AggregationConfig F
  results : List TaskResult
  startTime : Option Instant

/-- The first result of the same agent is replaced, or the result is appended. -/
def record (result : TaskResult) : List TaskResult → List TaskResult
  | [] => [result]
  | existing :: results =>
    if existing.agentId = result.agentId then result :: results else existing :: record result results

namespace ResultAggregator

def new (config : AggregationConfig F) : ResultAggregator F := ⟨config, [], none⟩

def submit (aggregator : ResultAggregator F) (result : TaskResult) (now : Instant) : ResultAggregator F :=
  { aggregator with
    startTime := aggregator.startTime.or (some now)
    results := record result aggregator.results }

def isTimedOut (aggregator : ResultAggregator F) (now : Instant) : Bool :=
  if aggregator.config.timeoutMs = 0 then false
  else
    match aggregator.startTime with
    | some start => now - start ≥ aggregator.config.timeoutMs.toNat * 1000000
    | none => false

def mergeOutputs (aggregator : ResultAggregator F) (results : List TaskResult) : List UInt8 :=
  match results.map TaskResult.output with
  | [] => []
  | [output] => output
  | outputs =>
    match aggregator.config.mergeFn with
    | some merge => merge outputs
    | none => outputs.flatten

section Aggregation

variable (scores : Scores F) (sha256 : List UInt8 → Bytes32) (aggregator : ResultAggregator F)

def verifyPasses (result : TaskResult) : Bool :=
  match aggregator.config.verifier with
  | some verifier => scores.positive (verifier result)
  | none => true

variable (results : List TaskResult)

def successful : List TaskResult :=
  results.filter fun result => result.success && aggregator.verifyPasses scores result

def aggregateFirstSuccess : AggregationOutcome :=
  match (sortBy (compareOn TaskResult.timestamp) results).find? fun result =>
      result.success && aggregator.verifyPasses scores result with
  | some result => .succeeded result.output results "first_success"
  | none => .failure results "no_successful_results"

def aggregateAllRequired : AggregationOutcome :=
  let successful := aggregator.successful scores results
  if successful.length < results.length then
    let failedCount := results.length - successful.length
    .failure results s!"all_required_failed ({failedCount} failures)"
  else .succeeded (aggregator.mergeOutputs successful) results "all_required_merged"

/-- The successful result with the best score, or the first one if nothing scores them. -/
def best (successful : List TaskResult) : Option TaskResult :=
  match aggregator.config.verifier with
  | some verifier =>
    (sortBy (fun left right : F × TaskResult => (scores.partialCmp right.1 left.1).getD .eq)
      (successful.map fun result => (verifier result, result))).head?.map Prod.snd
  | none => successful.head?

/-- An index out of bounds is a panic, here and below. -/
def aggregateBestOfN (n : Nat) (now : Instant) : Option AggregationOutcome :=
  let successful := aggregator.successful scores results
  if successful.isEmpty then some (.failure results "best_of_n_no_success")
  else if successful.length < n ∧ ¬ aggregator.isTimedOut now then
    some (.failure results "best_of_n_insufficient")
  else do
    let best ← aggregator.best scores successful
    some (.succeeded best.output results "best_of_n_selected")

def aggregateQuorum (pass : IterationOrder Bytes32 (List TaskResult)) (results : List TaskResult) (n : Nat)
    (now : Instant) : Option AggregationOutcome :=
  let successful := aggregator.successful scores results
  if successful.isEmpty then some (.failure results "quorum_no_success")
  else do
    let bestGroup ← (largestFirst pass (groupBy (TaskResult.outputHash sha256) successful)).head?
    if bestGroup.length ≥ n then
      let first ← bestGroup.head?
      some (.succeeded first.output results "quorum_reached")
    else if aggregator.isTimedOut now then
      match bestGroup with
      | first :: _ => some (.succeeded first.output results "quorum_partial_timeout")
      | [] => some (.failure results "quorum_timeout_no_agreement")
    else some (.failure results "quorum_not_reached")

/-- `checked` and `later` are the readings of the clock for the two tests of the timeout. -/
def aggregate (pass : IterationOrder Bytes32 (List TaskResult)) (checked later : Instant) :
    Option AggregationOutcome :=
  let results := aggregator.results
  if results.isEmpty then some (.failure results "no_results")
  else if results.length < aggregator.config.minResults ∧ ¬ aggregator.isTimedOut checked then
    some (.failure results "insufficient_results")
  else
    match aggregator.config.strategy with
    | .firstSuccess => some (aggregator.aggregateFirstSuccess scores results)
    | .allRequired => some (aggregator.aggregateAllRequired scores results)
    | .bestOfN n => aggregator.aggregateBestOfN scores results n later
    | .quorum n => aggregator.aggregateQuorum scores sha256 pass results n later

end Aggregation

end ResultAggregator

end Aafp.Execution
