import Aafp.Economics.Account
import Aafp.Foundation.Machine

/-! Compensations. -/
namespace Aafp.Economics

open Foundation

inductive CompensationStatus where
  | pending
  | approved
  | rejected
  | paid
  | disputed
deriving DecidableEq

namespace CompensationStatus

def debug : CompensationStatus → String
  | .pending => "Pending"
  | .approved => "Approved"
  | .rejected => "Rejected"
  | .paid => "Paid"
  | .disputed => "Disputed"

def isTerminal (status : CompensationStatus) : Bool := status = .paid || status = .rejected

end CompensationStatus

inductive CompensationReason where
  | taskFailure
  | partialCompletion
  | timeout
  | overcharge
  | slashing
deriving DecidableEq

structure CompensationPolicy where
  autoApproveThresholdMilli : Int64
  maxAmountMilli : Int64
  autoApproveRateLimit : UInt32
  rateLimitWindowMs : UInt64
  autoApproveSlashing : Bool

namespace CompensationPolicy

def default : CompensationPolicy where
  autoApproveThresholdMilli := 10000
  maxAmountMilli := 1000000
  autoApproveRateLimit := 10
  rateLimitWindowMs := 3600000
  autoApproveSlashing := false

def checkAmount (policy : CompensationPolicy) (amountMilli : Int64) : Except EconomicsError Unit := do
  ensure (0 ≤ amountMilli) (.compensationPolicyViolation "amount must be non-negative")
  ensure (amountMilli ≤ policy.maxAmountMilli) (.compensationExceedsMaximum amountMilli policy.maxAmountMilli)

def shouldAutoApprove (policy : CompensationPolicy) (amountMilli : Int64) (reason : CompensationReason)
    (recentAutoApprovals : UInt32) : Bool :=
  if reason = .slashing ∧ policy.autoApproveSlashing = false then false
  else if policy.autoApproveThresholdMilli < amountMilli then false
  else if policy.autoApproveRateLimit ≤ recentAutoApprovals then false
  else true

end CompensationPolicy

structure DisputeInfo where
  filedBy : String
  evidence : String
  arbiter : String
  filedAt : UInt64
  resolutionNote : Option String
deriving DecidableEq

def DisputeInfo.new (filedBy evidence : String) (filedAt : UInt64) : DisputeInfo where
  filedBy
  evidence
  arbiter := ""
  filedAt
  resolutionNote := none

structure Compensation where
  id : String
  taskId : String
  agentId : String
  amountMilli : Int64
  reason : CompensationReason
  timestamp : UInt64
  status : CompensationStatus
  rejectionReason : Option String
  dispute : Option DisputeInfo
  resourceCredit : Option ResourceUsage
  paidAt : Option UInt64
  autoApproved : Bool

def Compensation.new (id taskId agentId : String) (amountMilli : Int64) (reason : CompensationReason)
    (timestamp : UInt64) : Compensation where
  id
  taskId
  agentId
  amountMilli
  reason
  timestamp
  status := .pending
  rejectionReason := none
  dispute := none
  resourceCredit := none
  paidAt := none
  autoApproved := false

structure BatchResult where
  autoApproved : Nat
  leftPending : Nat
  rejected : Nat
  paid : Nat

structure CompensationProtocol where
  policy : CompensationPolicy
  compensations : AList fun _ : String => Compensation
  account : Option ResourceAccount
  autoApprovalHistory : AList fun _ : String => List UInt64
  idCounter : UInt64

namespace CompensationProtocol

def new (policy : CompensationPolicy) : CompensationProtocol where
  policy
  compensations := ∅
  account := none
  autoApprovalHistory := ∅
  idCounter := 0

variable (protocol : CompensationProtocol)

def nextLabel : String := "comp-" ++ toString (protocol.idCounter + 1)

/-- Generate a compensation id. Nothing is returned if the counter overflows. -/
def nextId : Option (String × CompensationProtocol) :=
  if protocol.idCounter.toNat + 1 = UInt64.size then none
  else some (protocol.nextLabel, { protocol with idCounter := protocol.idCounter + 1 })

/-- The number of auto-approvals within the rate-limit window, cut to 32 bits. -/
def countRecentAutoApprovals (agent : String) (now : UInt64) : UInt32 :=
  .ofNat (((protocol.autoApprovalHistory.lookup agent).getD []).filter fun stamp =>
    saturatingSub now stamp ≤ protocol.policy.rateLimitWindowMs).length

def recordAutoApproval (agent : String) (now : UInt64) : CompensationProtocol :=
  { protocol with
    autoApprovalHistory := protocol.autoApprovalHistory.insert agent
      ((protocol.autoApprovalHistory.lookup agent).getD [] ++ [now]) }

def evictExpired (now : UInt64) : CompensationProtocol :=
  { protocol with
    autoApprovalHistory := mapValues
      (·.filter fun stamp => saturatingSub now stamp ≤ protocol.policy.rateLimitWindowMs) protocol.autoApprovalHistory }

def submit (comp : Compensation) (now : UInt64) : Compensation × CompensationProtocol :=
  let recent := protocol.countRecentAutoApprovals comp.agentId now
  if protocol.policy.shouldAutoApprove comp.amountMilli comp.reason recent then
    let approved := { comp with
      status := .approved
      autoApproved := true }
    let protocol := protocol.recordAutoApproval comp.agentId now
    (approved, { protocol with compensations := protocol.compensations.insert comp.id approved })
  else (comp, { protocol with compensations := protocol.compensations.insert comp.id comp })

/-- Submit a compensation request. -/
def requestCompensation (taskId agentId : String) (amountMilli : Int64)
    (reason : CompensationReason) (now : UInt64) : Except Interruption Compensation × CompensationProtocol :=
  match protocol.policy.checkAmount amountMilli with
  | .error error => (.error (.refused error), protocol)
  | .ok () =>
    match protocol.nextId with
    | none => (.error .overflow, protocol)
    | some (id, protocol) =>
      match protocol.submit (.new id taskId agentId amountMilli reason now) now with
      | (comp, protocol) => (.ok comp, protocol)

def requestCompensationWithId (id taskId agentId : String) (amountMilli : Int64)
    (reason : CompensationReason) (now : UInt64) : Except Interruption Compensation × CompensationProtocol :=
  match protocol.policy.checkAmount amountMilli with
  | .error error => (.error (.refused error), protocol)
  | .ok () =>
    if id ∈ protocol.compensations then
      (.error (.refused (.invalidCompensationState id "compensation ID already exists")), protocol)
    else
      match protocol.submit (.new id taskId agentId amountMilli reason now) now with
      | (comp, protocol) => (.ok comp, protocol)

def onCompensation (id : String) (allowed : List CompensationStatus)
    (expected : String) (change : Compensation → Compensation) :
    Except EconomicsError Compensation × CompensationProtocol :=
  match protocol.compensations.lookup id with
  | none => (.error (.compensationNotFound id), protocol)
  | some comp =>
    if comp.status ∈ allowed then
      (.ok (change comp), { protocol with compensations := protocol.compensations.insert id (change comp) })
    else
      (.error (.invalidCompensationState id ("expected " ++ expected ++ ", got " ++ comp.status.debug)), protocol)

def approveCompensation (id : String) : Except EconomicsError Compensation × CompensationProtocol :=
  protocol.onCompensation id [.pending] "Pending" fun comp => { comp with status := .approved }

def rejectCompensation (id reason : String) : Except EconomicsError Compensation × CompensationProtocol :=
  protocol.onCompensation id [.pending] "Pending" fun comp =>
    { comp with
      status := .rejected
      rejectionReason := some reason }

def disputeCompensation (id filedBy evidence : String) (now : UInt64) :
    Except EconomicsError Compensation × CompensationProtocol :=
  protocol.onCompensation id [.pending, .approved] "Pending or Approved" fun comp =>
    { comp with
      status := .disputed
      dispute := some (.new filedBy evidence now) }

def assignArbiter (id arbiter : String) : Except EconomicsError Compensation × CompensationProtocol :=
  protocol.onCompensation id [.disputed] "Disputed" fun comp =>
    { comp with dispute := comp.dispute.map fun dispute => { dispute with arbiter } }

/-- Resolve a disputed compensation. -/
def resolveDispute (id : String) (approve : Bool) (note : String) :
    Except EconomicsError Compensation × CompensationProtocol :=
  protocol.onCompensation id [.disputed] "Disputed" fun comp =>
    { comp with
      status := if approve then .approved else .rejected
      rejectionReason := if approve then comp.rejectionReason else some note
      dispute := comp.dispute.map fun dispute => { dispute with resolutionNote := some note } }

def pay (account : ResourceAccount) (comp : Compensation) : ResourceAccount :=
  match comp.resourceCredit with
  | none => account
  | some usage => account.credit comp.agentId usage

/-- Process payment for an approved compensation. -/
def processPayment (id : String) (now : UInt64) : Except EconomicsError Compensation × CompensationProtocol :=
  match protocol.onCompensation id [.approved] "Approved" fun comp =>
      { comp with
        status := .paid
        paidAt := some now } with
  | (.error error, protocol) => (.error error, protocol)
  | (.ok comp, protocol) => (.ok comp, { protocol with account := protocol.account.map (pay · comp) })

def markAutoApproved (id : String) : CompensationProtocol :=
  match protocol.compensations.lookup id with
  | none => protocol
  | some stored =>
    { protocol with compensations := protocol.compensations.insert id { stored with autoApproved := true } }

/-- One round of a batch. The ids are keys of the map, so that there always is a compensation. -/
def batchRound (now : UInt64) (state : CompensationProtocol × BatchResult) (id : String) :
    CompensationProtocol × BatchResult :=
  let (protocol, result) := state
  match protocol.compensations.lookup id with
  | none => state
  | some comp =>
    match comp.status with
    | .pending =>
      if protocol.policy.maxAmountMilli < comp.amountMilli then
        ((protocol.rejectCompensation id "exceeds maximum").2, { result with rejected := result.rejected + 1 })
      else
        let recent := protocol.countRecentAutoApprovals comp.agentId now
        if protocol.policy.shouldAutoApprove comp.amountMilli comp.reason recent then
          match protocol.approveCompensation id with
          | (.error _, protocol) => (protocol, result)
          | (.ok _, protocol) =>
            let protocol := (protocol.markAutoApproved id).recordAutoApproval comp.agentId now
            match protocol.processPayment id now with
            | (.ok _, protocol) =>
              (protocol, { result with
                paid := result.paid + 1
                autoApproved := result.autoApproved + 1 })
            | (.error _, protocol) => (protocol, { result with autoApproved := result.autoApproved + 1 })
        else (protocol, { result with leftPending := result.leftPending + 1 })
    | .approved =>
      match protocol.processPayment id now with
      | (.ok _, protocol) => (protocol, { result with paid := result.paid + 1 })
      | (.error _, protocol) => (protocol, result)
    | _ => state

/-- Batch process all compensations, in the order in which the map lists its keys. -/
def processBatch (pass : IterationOrder String Compensation) (now : UInt64) : BatchResult × CompensationProtocol :=
  let ids := (pass.iterate protocol.compensations).map Sigma.fst
  (ids.foldl (batchRound now) (protocol, ⟨0, 0, 0, 0⟩)).swap

end CompensationProtocol

end Aafp.Economics
