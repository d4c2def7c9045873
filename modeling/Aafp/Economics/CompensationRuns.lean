import Aafp.Economics.Compensation
import Aafp.Foundation.Counter

/-! Runs of the compensation protocol. -/
namespace Aafp.Economics

open Foundation Option AList

namespace CompensationProtocol

inductive Call where
  | requestCompensation (taskId agentId : String) (amountMilli : Int64) (reason : CompensationReason) (now : UInt64)
  | requestCompensationWithId (id taskId agentId : String) (amountMilli : Int64) (reason : CompensationReason)
      (now : UInt64)
  | approveCompensation (id : String)
  | rejectCompensation (id reason : String)
  | disputeCompensation (id filedBy evidence : String) (now : UInt64)
  | assignArbiter (id arbiter : String)
  | resolveDispute (id : String) (approve : Bool) (note : String)
  | processPayment (id : String) (now : UInt64)
  | processBatch (pass : IterationOrder String Compensation) (now : UInt64)

inductive Answer where
  | requested (result : Except Interruption Compensation)
  | changed (result : Except EconomicsError Compensation)
  | batch (result : BatchResult)

def answering (wrap : α → Answer) (result : α × CompensationProtocol) : Answer × CompensationProtocol :=
  (wrap result.1, result.2)

def machine : Machine Call Answer CompensationProtocol where
  step protocol
    | .requestCompensation taskId agentId amountMilli reason now =>
      answering .requested (protocol.requestCompensation taskId agentId amountMilli reason now)
    | .requestCompensationWithId id taskId agentId amountMilli reason now =>
      answering .requested (protocol.requestCompensationWithId id taskId agentId amountMilli reason now)
    | .approveCompensation id => answering .changed (protocol.approveCompensation id)
    | .rejectCompensation id reason => answering .changed (protocol.rejectCompensation id reason)
    | .disputeCompensation id filedBy evidence now =>
      answering .changed (protocol.disputeCompensation id filedBy evidence now)
    | .assignArbiter id arbiter => answering .changed (protocol.assignArbiter id arbiter)
    | .resolveDispute id approve note => answering .changed (protocol.resolveDispute id approve note)
    | .processPayment id now => answering .changed (protocol.processPayment id now)
    | .processBatch pass now => answering .batch (protocol.processBatch pass now)

/-- What a compensation was asked for with. -/
def asked (comp : Compensation) : String × String × Int64 × CompensationReason × UInt64 :=
  (comp.taskId, comp.agentId, comp.amountMilli, comp.reason, comp.timestamp)

/-- A compensation is still the one that was asked for, and a final state is still the same. -/
structure Continues (comp later : Compensation) : Prop where
  asked : asked later = asked comp
  final : comp.status.isTerminal → later.status = comp.status

def Keeps (before after : CompensationProtocol) : Prop :=
  ∀ id comp, before.compensations.lookup id = some comp →
    ∃ later, after.compensations.lookup id = some later ∧ Continues comp later

def EntersPaid (before after : CompensationProtocol) (id : String) : Prop :=
  (∃ later, after.compensations.lookup id = some later ∧ later.status = .paid) ∧
    ∀ comp, before.compensations.lookup id = some comp → comp.status ≠ .paid

/-- The account is credited for the compensations that enter the paid state, once for each, and
for nothing else. -/
structure Pays (before after : CompensationProtocol) (paid : List (String × Compensation)) : Prop where
  account : after.account = before.account.map fun account => (paid.map Prod.snd).foldl pay account
  once : (paid.map Prod.fst).Nodup
  entered : ∀ id, id ∈ paid.map Prod.fst ↔ EntersPaid before after id
  stored : ∀ entry ∈ paid, ∃ later, after.compensations.lookup entry.1 = some later ∧
    later.agentId = entry.2.agentId ∧ later.resourceCredit = entry.2.resourceCredit

/-- What operations other than requests do: they change no compensation into another one. -/
structure Advances (before after : CompensationProtocol) (paid : List (String × Compensation)) : Prop where
  keeps : ∀ id comp, before.compensations.lookup id = some comp →
    ∃ later, after.compensations.lookup id = some later ∧ Continues comp later ∧
      later.resourceCredit = comp.resourceCredit
  known : ∀ id, id ∈ after.compensations → id ∈ before.compensations
  pays : Pays before after paid

section advances

variable {before middle after : CompensationProtocol} {comp between later : Compensation}

theorem Continues.refl (comp : Compensation) : Continues comp comp := ⟨rfl, fun _ => rfl⟩

theorem Continues.trans (first : Continues comp between) (second : Continues between later) :
    Continues comp later where
  asked := second.asked.trans first.asked
  final terminal := by
    have kept := first.final terminal
    rw [second.final (by rwa [kept]), kept]

theorem Keeps.asked (keeps : Keeps before after) (id : String)
    (stored : (before.compensations.lookup id).map asked = some terms) :
    (after.compensations.lookup id).map asked = some terms := by
  obtain ⟨comp, found, rfl⟩ := map_eq_some_iff.mp stored
  obtain ⟨later, kept, continues⟩ := keeps id comp found
  rw [kept, map_some, continues.asked]

theorem Advances.toKeeps (advances : Advances before after paid) : Keeps before after := by
  intro id comp found
  obtain ⟨later, kept, continues, -⟩ := advances.keeps id comp found
  exact ⟨later, kept, continues⟩

theorem Advances.of_same (compensations : after.compensations = before.compensations)
    (account : after.account = before.account) : Advances before after [] where
  keeps id comp found := ⟨comp, by rwa [compensations], .refl comp, rfl⟩
  known id mem := by rwa [compensations] at mem
  pays := by
    refine ⟨by simp [account], List.nodup_nil, fun id => ?_, by simp⟩
    simp only [List.map_nil, List.not_mem_nil, false_iff, EntersPaid, compensations]
    rintro ⟨⟨later, found, paid⟩, unpaid⟩
    exact unpaid later found paid

theorem EntersPaid.of_advances {id : String} (early : Advances before middle first)
    (late : Advances middle after second) :
    EntersPaid before after id ↔ EntersPaid before middle id ∨ EntersPaid middle after id := by
  constructor
  · rintro ⟨there, unpaid⟩
    by_cases done : ∃ between, middle.compensations.lookup id = some between ∧ between.status = .paid
    · exact .inl ⟨done, unpaid⟩
    · refine .inr ⟨there, fun between found paid => done ⟨between, found, paid⟩⟩
  · rintro (⟨⟨between, found, paid⟩, unpaid⟩ | ⟨there, unpaid⟩)
    · obtain ⟨later, kept, continues, -⟩ := late.keeps id between found
      refine ⟨⟨later, kept, ?_⟩, unpaid⟩
      rw [continues.final (by simp [paid, CompensationStatus.isTerminal]), paid]
    · refine ⟨there, fun comp found paid => ?_⟩
      obtain ⟨between, kept, continues, -⟩ := early.keeps id comp found
      refine unpaid between kept ?_
      rw [continues.final (by simp [paid, CompensationStatus.isTerminal]), paid]

theorem Advances.trans {first second : List (String × Compensation)} (early : Advances before middle first)
    (late : Advances middle after second) : Advances before after (first ++ second) where
  keeps := Extends.trans (fun one two => ⟨one.1.trans two.1, two.2.trans one.2⟩) early.keeps late.keeps
  known id mem := early.known id (late.known id mem)
  pays := by
    constructor
    · rw [late.pays.account, early.pays.account, map_map]
      congr 1
      funext account
      simp [List.foldl_append]
    · -- what was paid first is no longer unpaid in the middle
      rw [List.map_append, List.nodup_append]
      refine ⟨early.pays.once, late.pays.once, ?_⟩
      rintro id earlier other later rfl
      obtain ⟨⟨between, found, paid⟩, -⟩ := (early.pays.entered id).mp earlier
      exact ((late.pays.entered id).mp later).2 between found paid
    · intro id
      rw [List.map_append, List.mem_append, early.pays.entered, late.pays.entered]
      exact (EntersPaid.of_advances early late).symm
    · intro entry mem
      rcases List.mem_append.mp mem with earlier | later
      · obtain ⟨between, found, agent, credit⟩ := early.pays.stored entry earlier
        obtain ⟨comp, kept, continues, sameCredit⟩ := late.keeps _ between found
        exact ⟨comp, kept, (Prod.ext_iff.mp (Prod.ext_iff.mp continues.asked).2).1.trans agent, sameCredit.trans credit⟩
      · exact late.pays.stored entry later

theorem entersPaid_insert_iff {id other : String}
    (compensations : after.compensations = before.compensations.insert id later) :
    EntersPaid before after other ↔ other = id ∧ later.status = .paid ∧
      ∀ comp, before.compensations.lookup id = some comp → comp.status ≠ .paid := by
  rw [EntersPaid, compensations]
  by_cases same : other = id
  · subst same
    simp
  · rw [lookup_insert_ne same]
    refine iff_of_false ?_ fun entered => same entered.1
    rintro ⟨⟨stored, there, paid⟩, unpaid⟩
    exact unpaid stored there paid

theorem Advances.of_insert {id : String} (found : before.compensations.lookup id = some comp)
    (compensations : after.compensations = before.compensations.insert id later) (continues : Continues comp later)
    (credit : later.resourceCredit = comp.resourceCredit) (pays : Pays before after paid) :
    Advances before after paid where
  keeps := by
    rw [compensations]
    refine (extends_insert_iff fun comp => ⟨.refl comp, rfl⟩).mpr fun stored there => ?_
    cases found.symm.trans there
    exact ⟨continues, credit⟩
  known other mem := by
    rw [compensations, mem_insert] at mem
    rcases mem with rfl | old
    · exact mem_iff_lookup.mpr ⟨comp, found⟩
    · exact old
  pays := pays

end advances

section operations

variable (protocol : CompensationProtocol) (id : String) (now : UInt64)

theorem advances_insert {protocol changed : CompensationProtocol} {id : String}
    (found : protocol.compensations.lookup id = some comp)
    (compensations : changed.compensations = protocol.compensations.insert id later)
    (account : changed.account = protocol.account) (continues : Continues comp later)
    (credit : later.resourceCredit = comp.resourceCredit) (unpaid : comp.status ≠ .paid → later.status ≠ .paid) :
    Advances protocol changed [] := by
  apply Advances.of_insert found compensations continues credit
  refine ⟨by simp [account], List.nodup_nil, fun other => ?_, by simp⟩
  rw [entersPaid_insert_iff compensations]
  simp only [List.map_nil, List.not_mem_nil, false_iff]
  rintro ⟨-, paid, before⟩
  exact unpaid (before comp found) paid

theorem onCompensation_cases (allowed : List CompensationStatus) (expected : String)
    (change : Compensation → Compensation) :
    (∃ error, protocol.onCompensation id allowed expected change = (.error error, protocol)) ∨
      ∃ comp, protocol.compensations.lookup id = some comp ∧ comp.status ∈ allowed ∧
        protocol.onCompensation id allowed expected change =
          (.ok (change comp), { protocol with compensations := protocol.compensations.insert id (change comp) }) := by
  unfold onCompensation
  split
  · exact .inl ⟨_, rfl⟩
  next comp found =>
    split
    · exact .inr ⟨comp, found, ‹_›, rfl⟩
    · exact .inl ⟨_, rfl⟩

/-- A change that keeps what a compensation is about, and does not pay it. -/
structure Gentle (change : Compensation → Compensation) : Prop where
  same : ∀ comp, asked (change comp) = asked comp ∧ (change comp).resourceCredit = comp.resourceCredit
  unpaid : ∀ comp, comp.status ≠ .paid → (change comp).status ≠ .paid

theorem onCompensation_advances {allowed : List CompensationStatus} (expected : String)
    (open_ : ∀ status ∈ allowed, status.isTerminal = false) (gentle : Gentle change) :
    Advances protocol (protocol.onCompensation id allowed expected change).2 [] := by
  rcases protocol.onCompensation_cases id allowed expected change with ⟨error, refused⟩ | ⟨comp, found, status, done⟩
  · rw [refused]
    exact .of_same rfl rfl
  · rw [done]
    obtain ⟨same, credit⟩ := gentle.same comp
    refine advances_insert found rfl rfl ⟨same, ?_⟩ credit (gentle.unpaid comp)
    intro terminal
    rw [open_ _ status] at terminal
    cases terminal

/-- A compensation is paid out. -/
def settle (comp : Compensation) (automatic : Bool) : CompensationProtocol :=
  { protocol with
    compensations := protocol.compensations.insert id { comp with
      status := .paid
      paidAt := some now
      autoApproved := automatic }
    account := protocol.account.map (pay · comp) }

theorem settle_advances (found : protocol.compensations.lookup id = some comp)
    (unsettled : comp.status.isTerminal = false)
    (automatic : Bool) : Advances protocol (protocol.settle id now comp automatic) [(id, comp)] := by
  refine .of_insert found rfl ⟨rfl, ?_⟩ rfl ⟨rfl, by simp, fun other => ?_, by simp [settle]⟩
  · intro terminal
    rw [unsettled] at terminal
    cases terminal
  · rw [entersPaid_insert_iff rfl]
    have unpaid : comp.status ≠ .paid := fun paid => by simp [paid, CompensationStatus.isTerminal] at unsettled
    simp [found, unpaid]

theorem processPayment_advances : ∃ paid, Advances protocol (protocol.processPayment id now).2 paid := by
  unfold processPayment
  rcases protocol.onCompensation_cases id [.approved] "Approved" _ with ⟨error, refused⟩ | ⟨comp, found, status, done⟩
  · rw [refused]
    exact ⟨[], .of_same rfl rfl⟩
  · rw [done]
    have approved : comp.status = .approved := by simpa using status
    exact ⟨_, protocol.settle_advances id now found (by rw [approved]; rfl) comp.autoApproved⟩

theorem batchRound_eq (result : BatchResult) : batchRound now (protocol, result) id =
    match protocol.compensations.lookup id with
    | none => (protocol, result)
    | some comp =>
      match comp.status with
      | .pending =>
        if protocol.policy.maxAmountMilli < comp.amountMilli then
          ((protocol.rejectCompensation id "exceeds maximum").2, { result with rejected := result.rejected + 1 })
        else if protocol.policy.shouldAutoApprove comp.amountMilli comp.reason
            (protocol.countRecentAutoApprovals comp.agentId now) then
          ((protocol.recordAutoApproval comp.agentId now).settle id now comp true, { result with
            paid := result.paid + 1
            autoApproved := result.autoApproved + 1 })
        else (protocol, { result with leftPending := result.leftPending + 1 })
      | .approved => (protocol.settle id now comp comp.autoApproved, { result with paid := result.paid + 1 })
      | _ => (protocol, result) := by
  simp only [batchRound]
  cases found : protocol.compensations.lookup id with
  | none => rfl
  | some comp =>
    cases status : comp.status with
    | pending =>
      simp [status, approveCompensation, onCompensation, found, markAutoApproved, recordAutoApproval, processPayment,
        settle, pay]
    | approved =>
      simp [status, processPayment, onCompensation, found, settle, pay]
    | _ => simp [status]

theorem batchRound_advances (state : CompensationProtocol × BatchResult) :
    ∃ paid, Advances state.1 (batchRound now state id).1 paid := by
  obtain ⟨protocol, result⟩ := state
  rw [batchRound_eq]
  split
  · exact ⟨[], .of_same rfl rfl⟩
  next comp found =>
    split
    next pending =>
      split_ifs
      · exact ⟨[], protocol.onCompensation_advances id _ (by decide) ⟨fun _ => ⟨rfl, rfl⟩, fun _ _ => nofun⟩⟩
      · have recorded : Advances protocol (protocol.recordAutoApproval comp.agentId now) [] := .of_same rfl rfl
        exact ⟨_, recorded.trans (settle_advances _ id now (by exact found) (by rw [pending]; rfl) true)⟩
      · exact ⟨[], .of_same rfl rfl⟩
    next approved => exact ⟨_, protocol.settle_advances id now found (by rw [approved]; rfl) _⟩
    · exact ⟨[], .of_same rfl rfl⟩

theorem batchRounds_advances (ids : List String) (state : CompensationProtocol × BatchResult) :
    ∃ paid, Advances state.1 (ids.foldl (batchRound now) state).1 paid := by
  induction ids generalizing state with
  | nil => exact ⟨[], .of_same rfl rfl⟩
  | cons id ids ih =>
    obtain ⟨first, early⟩ := batchRound_advances id now state
    obtain ⟨second, late⟩ := ih (batchRound now state id)
    exact ⟨first ++ second, early.trans late⟩

end operations

/-- A request was entered under its id, and is not final. -/
structure Stores (before after : CompensationProtocol) (comp : Compensation) : Prop where
  compensations : after.compensations = before.compensations.insert comp.id comp
  account : after.account = before.account
  unsettled : comp.status.isTerminal = false

def Call.Asks : Call → Compensation → Prop
  | .requestCompensation taskId agentId amountMilli reason now, comp =>
    asked comp = (taskId, agentId, amountMilli, reason, now)
  | .requestCompensationWithId id taskId agentId amountMilli reason now, comp =>
    comp.id = id ∧ asked comp = (taskId, agentId, amountMilli, reason, now)
  | _, _ => False

/-- An id from the counter is free, or its unsettled compensation is asked for again on the same
terms. -/
def FreeId (protocol : CompensationProtocol) : Call → Prop
  | .requestCompensation taskId agentId amountMilli reason now =>
    protocol.policy.checkAmount amountMilli = .ok () → ¬ protocol.idCounter.toNat + 1 = UInt64.size →
      ∀ comp, protocol.compensations.lookup protocol.nextLabel = some comp →
        asked comp = (taskId, agentId, amountMilli, reason, now) ∧ comp.status.isTerminal = false
  | _ => True

section requests

variable {protocol after : CompensationProtocol} {comp : Compensation}

theorem submit_stores (protocol : CompensationProtocol) (id taskId agentId : String) (amountMilli : Int64)
    (reason : CompensationReason) (now : UInt64) :
    ∃ comp after, protocol.submit (.new id taskId agentId amountMilli reason now) now = (comp, after) ∧
      Stores protocol after comp ∧ comp.id = id ∧ asked comp = (taskId, agentId, amountMilli, reason, now) := by
  unfold submit
  simp only
  split
  · exact ⟨_, _, rfl, ⟨rfl, rfl, rfl⟩, rfl, rfl⟩
  · exact ⟨_, _, rfl, ⟨rfl, rfl, rfl⟩, rfl, rfl⟩

section

variable (stores : Stores protocol after comp)
include stores

theorem Stores.lookup : after.compensations.lookup comp.id = some comp := by
  rw [stores.compensations]
  exact lookup_insert _

theorem Stores.pays : Pays protocol after [] := by
  refine ⟨by simp [stores.account], List.nodup_nil, fun id => ?_, by simp⟩
  rw [entersPaid_insert_iff stores.compensations]
  simp only [List.map_nil, List.not_mem_nil, false_iff]
  rintro ⟨-, paid, -⟩
  have open_ := stores.unsettled
  rw [paid] at open_
  cases open_

theorem Stores.keeps_iff :
    Keeps protocol after ↔ ∀ old, protocol.compensations.lookup comp.id = some old → Continues old comp := by
  rw [Keeps, stores.compensations]
  exact extends_insert_iff .refl

theorem Stores.continues_iff (old : Compensation) :
    Continues old comp ↔ asked old = asked comp ∧ old.status.isTerminal = false := by
  constructor
  · intro ⟨same, final⟩
    refine ⟨same.symm, ?_⟩
    cases settled : old.status.isTerminal with
    | false => rfl
    | true => rw [← settled, ← final settled, stores.unsettled]
  · intro ⟨same, unsettled⟩
    refine ⟨same.symm, fun settled => ?_⟩
    rw [unsettled] at settled
    cases settled

end

end requests

/-- A request that succeeds is stored, and what is paid is credited. What is stored is kept exactly
if no id is given out twice. -/
structure Steps (protocol : CompensationProtocol) (call : Call) (answer : Answer) (after : CompensationProtocol) :
    Prop where
  stored : ∀ comp, answer = .requested (.ok comp) → after.compensations.lookup comp.id = some comp ∧ call.Asks comp
  paid : ∃ paid, Pays protocol after paid
  kept : Keeps protocol after ↔ protocol.FreeId call

section steps

variable {protocol : CompensationProtocol} {call : Call}

theorem Advances.steps (advances : Advances protocol after paid) (quiet : ∀ comp, answer ≠ .requested (.ok comp))
    (free : protocol.FreeId call) : Steps protocol call answer after where
  stored comp same := absurd same (quiet comp)
  paid := ⟨paid, advances.pays⟩
  kept := iff_of_true advances.toKeeps free

theorem Stores.steps (stores : Stores protocol after comp)
    (asked : call.Asks comp) (kept : Keeps protocol after ↔ protocol.FreeId call) :
    Steps protocol call (.requested (.ok comp)) after where
  stored answered same := by
    cases same
    exact ⟨stores.lookup, asked⟩
  paid := ⟨[], stores.pays⟩
  kept := kept

section

variable (protocol : CompensationProtocol) (id taskId agentId : String) (amountMilli : Int64)
  (reason : CompensationReason) (now : UInt64)

theorem requestCompensation_steps :
    let result := protocol.requestCompensation taskId agentId amountMilli reason now
    Steps protocol (.requestCompensation taskId agentId amountMilli reason now) (.requested result.1) result.2 := by
  unfold requestCompensation nextId
  cases allowed : protocol.policy.checkAmount amountMilli with
  | error error =>
    refine (Advances.of_same rfl rfl).steps (fun _ => nofun) fun ok => ?_
    rw [allowed] at ok
    cases ok
  | ok =>
    split_ifs with full
    · exact (Advances.of_same rfl rfl).steps (fun _ => nofun) fun _ room => absurd full room
    · obtain ⟨comp, after, same, stores, label, terms⟩ :=
        submit_stores { protocol with idCounter := protocol.idCounter + 1 } protocol.nextLabel
          taskId agentId amountMilli reason now
      have entered : Stores protocol after comp := ⟨stores.compensations, stores.account, stores.unsettled⟩
      simp only [same]
      refine entered.steps terms ?_
      rw [entered.keeps_iff, label]
      simp only [entered.continues_iff, terms]
      exact ⟨fun replaces _ _ => replaces, fun free => free allowed full⟩

theorem requestCompensationWithId_steps :
    let result := protocol.requestCompensationWithId id taskId agentId amountMilli reason now
    Steps protocol (.requestCompensationWithId id taskId agentId amountMilli reason now) (.requested result.1)
      result.2 := by
  unfold requestCompensationWithId
  cases protocol.policy.checkAmount amountMilli with
  | error error => exact (Advances.of_same rfl rfl).steps (fun _ => nofun) trivial
  | ok =>
    simp only
    split
    · exact (Advances.of_same rfl rfl).steps (fun _ => nofun) trivial
    next absent =>
      obtain ⟨comp, after, same, stores, label, terms⟩ :=
        submit_stores protocol id taskId agentId amountMilli reason now
      simp only [same]
      refine stores.steps ⟨label, terms⟩ (iff_of_true (stores.keeps_iff.mpr ?_) trivial)
      intro old found
      rw [label] at found
      exact absurd (mem_iff_lookup.mpr ⟨old, found⟩) absent

end

theorem onCompensation_steps {id : String} (free : protocol.FreeId call) {allowed : List CompensationStatus}
    (open_ : ∀ status ∈ allowed, status.isTerminal = false) (gentle : Gentle change) :
    Steps protocol call (.changed (protocol.onCompensation id allowed expected change).1)
      (protocol.onCompensation id allowed expected change).2 :=
  (protocol.onCompensation_advances id expected open_ gentle).steps (fun _ => nofun) free

theorem step_settles (protocol : CompensationProtocol) (call : Call) :
    Steps protocol call (machine.step protocol call).1 (machine.step protocol call).2 := by
  cases call with
  | requestCompensation => exact protocol.requestCompensation_steps ..
  | requestCompensationWithId => exact protocol.requestCompensationWithId_steps ..
  | approveCompensation | rejectCompensation | disputeCompensation =>
    exact onCompensation_steps (by trivial) (by decide) ⟨fun _ => ⟨rfl, rfl⟩, fun _ _ => nofun⟩
  | assignArbiter =>
    exact onCompensation_steps (by trivial) (by decide) ⟨fun _ => ⟨rfl, rfl⟩, fun _ unpaid => unpaid⟩
  | resolveDispute id approve =>
    refine onCompensation_steps (by trivial) (by decide) ⟨fun _ => ⟨rfl, rfl⟩, fun _ _ => ?_⟩
    cases approve <;> exact nofun
  | processPayment id now =>
    obtain ⟨paid, advances⟩ := protocol.processPayment_advances id now
    exact advances.steps (fun _ => nofun) trivial
  | processBatch pass now =>
    obtain ⟨paid, advances⟩ := batchRounds_advances now ((pass.iterate protocol.compensations).map Sigma.fst)
      (protocol, ⟨0, 0, 0, 0⟩)
    exact advances.steps (fun _ => nofun) trivial

end steps

structure Settles (start : CompensationProtocol) (calls : List Call) : Prop where
  stored : ∀ past call, past ++ [call] <+: calls → ∀ comp,
    (machine.step (machine.after start past) call).1 = .requested (.ok comp) →
      (machine.after start (past ++ [call])).compensations.lookup comp.id = some comp ∧ call.Asks comp
  kept : ∀ past more, past ++ more <+: calls → Keeps (machine.after start past) (machine.after start (past ++ more))
  paid : ∀ past call, past ++ [call] <+: calls →
    ∃ paid, Pays (machine.after start past) (machine.after start (past ++ [call])) paid

/-- Compensations are settled exactly in the runs that give out no id that a caller chose before. -/
theorem settles_iff (start : CompensationProtocol) (calls : List Call) :
    Settles start calls ↔ machine.Meets start (fun _ protocol call => protocol.FreeId call) calls := by
  have related : (∀ past more, past ++ more <+: calls →
      Keeps (machine.after start past) (machine.after start (past ++ more))) ↔
        machine.Meets start (fun _ protocol call => protocol.FreeId call) calls := by
    rw [@Machine.related_iff_steps _ _ _ _ _ _ Keeps (fun _ => Extends.refl .refl _) (Extends.trans .trans)]
    simp only [Machine.Meets, (step_settles _ _).kept]
  constructor
  · intro settles
    exact related.mp settles.kept
  · intro free
    refine ⟨fun past call _ comp answered => ?_, related.mpr free, fun past call _ => ?_⟩
    · rw [Machine.after_concat]
      exact (step_settles _ call).stored comp answered
    · rw [Machine.after_concat]
      exact (step_settles _ call).paid

/-- The id of the first request from the counter is chosen by a caller before. -/
def clashingCalls : List Call :=
  [.requestCompensationWithId "comp-1" "first" "alice" 5000 .taskFailure 0, .processPayment "comp-1" 1,
    .requestCompensation "second" "bob" 7000 .timeout 2]

/-- A compensation that was paid is replaced by another one. -/
theorem clashingCalls_not_settles : ¬ Settles (new .default) clashingCalls ∧
      ((machine.after (new .default) (clashingCalls.take 2)).compensations.lookup "comp-1").map
          (fun comp => (comp.taskId, comp.status)) = some ("first", .paid) ∧
      ((machine.after (new .default) clashingCalls).compensations.lookup "comp-1").map
          (fun comp => (comp.taskId, comp.status)) = some ("second", .approved) := by
  refine ⟨fun settles => ?_, by decide +kernel, by decide +kernel⟩
  have keeps := settles.kept (clashingCalls.take 2) (clashingCalls.drop 2) (by rw [List.take_append_drop])
  exact absurd (@Keeps.asked _ _ ("first", "alice", 5000, .taskFailure, 0) keeps "comp-1" (by decide +kernel))
    (by decide +kernel)

end CompensationProtocol

end Aafp.Economics
