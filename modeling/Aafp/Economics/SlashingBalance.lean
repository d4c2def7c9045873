import Aafp.Economics.SlashingRuns

/-! Slashes and refunds balance. -/
namespace Aafp.Economics

open Foundation List

namespace SlashingEngine

def Call.Ordinary : Call → Prop
  | .slashWithId _ _ _ _ => False
  | .remove _ => False
  | _ => True

/-- A resolution that lets the slash stand. -/
def Call.Upholds : Call → Prop
  | .resolveAppeal _ uphold _ => uphold = true
  | _ => False

def isRefund (slashId : String) : Call × Answer → Bool
  | (.resolveAppeal id false _, .changed (.ok _)) => id = slashId
  | _ => false

def refunds (slashId : String) (log : List (Call × Answer)) : Nat := (log.filter (isRefund slashId)).length

def balanceOf (engine : SlashingEngine) (agent : String) : UInt64 :=
  (engine.account.map fun account => (account.balance agent).inferenceTokens).getD 0

def BelowMax (engine : SlashingEngine) : Prop := ∀ agent, engine.balanceOf agent < u64Max

theorem belowMax_iff {engine : SlashingEngine} :
    engine.BelowMax ↔ ∀ account ∈ engine.account.toList, ∀ entry ∈ account.ledgers.entries,
      entry.2.netUsage.inferenceTokens < u64Max := by
  unfold BelowMax balanceOf
  cases engine.account with
  | none => simp [u64Max]
  | some account =>
    simp only [Option.map_some, Option.getD_some, Option.toList_some, forall_mem_singleton]
    constructor
    · intro each entry mem
      have found := AList.mem_lookup_iff.mpr mem
      have bound := each entry.1
      rwa [ResourceAccount.balance, found] at bound
    · intro each agent
      unfold ResourceAccount.balance
      cases found : account.ledgers.lookup agent with
      | none => decide
      | some ledger => exact each ⟨agent, ledger⟩ (AList.mem_lookup_iff.mp found)

/-- What a record charges to an agent as long as it is not reversed. -/
def owed (agent : String) (record : SlashRecord) : Nat :=
  if record.agentId = agent ∧ record.status ≠ .reversed then record.executedAmountMilli.toInt.toNat else 0

/-- The sum of the executed amounts of an agent's records that are not reversed. -/
def standing (engine : SlashingEngine) (agent : String) : Nat := total (owed agent) engine.records

inductive Effect (engine after : SlashingEngine) (entry : Call × Answer) : Prop where
  | kept (answered : entry.2.record? = none) (quiet : ∀ slashId, isRefund slashId entry = false)
      (records : after.records = engine.records) (account : after.account = engine.account)
      (counter : engine.idCounter ≤ after.idCounter)
  | slashed (record : SlashRecord) (answered : entry.2.record? = some record)
      (quiet : ∀ slashId, isRefund slashId entry = false) (status : record.status = .executed)
      (nonneg : 0 ≤ record.executedAmountMilli) (named : record.id = "slash-" ++ toString after.idCounter)
      (counter : after.idCounter.toNat = engine.idCounter.toNat + 1)
      (records : after.records = engine.records.insert record.id record)
      (account : after.account = engine.account.map (charge record))
  | revised (slashId : String) (old new : SlashRecord) (answered : entry.2.record? = none)
      (refund : ∀ other, isRefund other entry = decide (new.status = .reversed ∧ slashId = other))
      (found : engine.records.lookup slashId = some old) (sameAgent : new.agentId = old.agentId)
      (sameAmount : new.executedAmountMilli = old.executedAmountMilli) (stood : old.status ≠ .reversed)
      (records : after.records = engine.records.insert slashId new)
      (account : after.account = if new.status = .reversed then engine.account.map (credited old) else engine.account)
      (counter : after.idCounter = engine.idCounter)

theorem isRefund_eq_false (other : ∀ id note record, entry ≠ (.resolveAppeal id false note, .changed (.ok record)))
    (slashId : String) : isRefund slashId entry = false := by
  unfold isRefund
  split
  · exact absurd rfl (other _ _ _)
  · rfl

section

variable {amount : Int64} (engine : SlashingEngine)

theorem step_effect (ordinary : call.Ordinary) :
    Effect engine (machine.step engine call).2 (call, (machine.step engine call).1) := by
  have outcome := engine.step_outcome call
  generalize (machine.step engine call).1 = answer, (machine.step engine call).2 = after at *
  cases outcome with
  | refused counter failed grown =>
    refine .kept (record_of_failed failed) (isRefund_eq_false ?_) rfl rfl grown
    rintro _ _ _ ⟨⟩
    exact failed
  | drawn record draws _ applies more named =>
    refine .slashed record rfl (isRefund_eq_false ?_) applies.status applies.nonneg named more rfl rfl
    rintro _ _ _ ⟨⟩
  | chosen => exact ordinary.elim
  | amended slashId record later amends found continues stood stands =>
    refine .revised slashId record later rfl (fun other => ?_) found continues.agentId continues.executedAmount
      stood rfl (if_neg stands).symm rfl
    rw [decide_eq_false fun both => stands both.1, isRefund_eq_false]
    rintro _ _ _ ⟨⟩
    exact Bool.false_ne_true amends
  | reversed slashId note record found appealed =>
    exact .revised slashId record (record.resolved false note) rfl
      (fun other => by simp [isRefund, SlashRecord.resolved])
      found rfl rfl (by simp [appealed]) rfl rfl rfl
  | removed => exact ordinary.elim
  | evicted | noted => exact .kept rfl (fun _ => rfl) rfl rfl (UInt64.le_refl _)

theorem not_idle_of_isRefund (refund : isRefund slashId entry = true) : ¬ (entry.2.Failed ∨ entry.1.Upholds) := by
  unfold isRefund at refund
  split at refund
  · simp [Answer.Failed, Call.Upholds]
  · cases refund

theorem account_of_idle (ordinary : call.Ordinary) (idle : (machine.step engine call).1.Failed ∨ call.Upholds) :
    (machine.step engine call).2.account = engine.account := by
  cases step_effect engine ordinary with
  | kept _ _ _ account => exact account
  | slashed record answered =>
    rcases idle with failed | upholds
    · cases answered.symm.trans (record_of_failed failed)
    · cases call with
      | resolveAppeal => cases answered
      | _ => exact upholds.elim
  | revised slashId _ new _ refund _ _ _ _ _ account =>
    rw [account, if_neg]
    intro reversed
    exact not_idle_of_isRefund ((refund slashId).trans (decide_eq_true ⟨reversed, rfl⟩)) idle

section amounts

variable {record : SlashRecord} {account : ResourceAccount} {agent : String}

theorem toNat_toUInt64 (nonneg : 0 ≤ amount) : amount.toUInt64.toNat = amount.toInt.toNat := by
  have same := toUInt64_toNat_of_nonneg nonneg
  omega

theorem toNat_of_not_pos (zero : ¬ 0 < amount) : amount.toInt.toNat = 0 := by
  rw [Int64.lt_iff_toInt_lt, Int64.toInt_zero] at zero
  omega

theorem toNat_balance_charge (nonneg : 0 ≤ record.executedAmountMilli)
    (below : ((charge record account).balance agent).inferenceTokens < u64Max) :
    ((charge record account).balance agent).inferenceTokens.toNat = (account.balance agent).inferenceTokens.toNat +
        if record.agentId = agent then record.executedAmountMilli.toInt.toNat else 0 := by
  unfold charge at below ⊢
  split
  · rw [if_pos ‹_›, ResourceAccount.balance_debited] at below
    rw [ResourceAccount.balance_debited]
    split_ifs at below ⊢ with own
    · subst own
      rw [← toNat_toUInt64 nonneg]
      have sum : saturatingAdd (account.balance record.agentId).inferenceTokens record.executedAmountMilli.toUInt64 <
        u64Max := below
      rw [UInt64.lt_iff_toNat_lt, toNat_saturatingAdd, toNat_u64Max] at sum
      have fits : (account.balance record.agentId).inferenceTokens.toNat +
        record.executedAmountMilli.toUInt64.toNat < 2 ^ 64 := by omega
      exact toNat_saturatingAdd_eq_iff.mpr fits
    · rfl
  · rw [toNat_of_not_pos ‹_›, ite_self, Nat.add_zero]

theorem toNat_balance_credited (nonneg : 0 ≤ record.executedAmountMilli) :
    ((credited record account).balance agent).inferenceTokens.toNat =
      (account.balance agent).inferenceTokens.toNat -
        if record.agentId = agent then record.executedAmountMilli.toInt.toNat else 0 := by
  unfold credited
  split
  · rw [ResourceAccount.balance_credit]
    split_ifs with own
    · subst own
      rw [← toNat_toUInt64 nonneg]
      exact toNat_saturatingSub _ _
    · rfl
  · rw [toNat_of_not_pos ‹_›, ite_self, Nat.sub_zero]

theorem owed_of_stands (stands : record.status ≠ .reversed) :
    owed agent record = if record.agentId = agent then record.executedAmountMilli.toInt.toNat else 0 := by
  simp only [owed, ne_eq, stands, not_false_eq_true, and_true]

theorem owed_of_reversed (reversed : record.status = .reversed) : owed agent record = 0 := by
  simp [owed, reversed]

end amounts

end

/-- Every balance is accounted for by the records, ids are given out once, and a refunded slash is
reversed. -/
structure Balanced (initial : ResourceAccount) (past : List (Call × Answer)) (engine : SlashingEngine) : Prop where
  account : ∃ account, engine.account = some account ∧ ∀ agent,
    (account.balance agent).inferenceTokens.toNat =
      (initial.balance agent).inferenceTokens.toNat + engine.standing agent
  nonneg : ∀ id record, engine.records.lookup id = some record → 0 ≤ record.executedAmountMilli
  issued : ∀ record ∈ slashes past, ∃ number ≤ engine.idCounter, record.id = "slash-" ++ toString number
  distinct : ((slashes past).map SlashRecord.id).Nodup
  stored : ∀ id record, engine.records.lookup id = some record → id ∈ (slashes past).map SlashRecord.id
  refunded : ∀ slashId, refunds slashId past ≤ 1 ∧ (0 < refunds slashId past →
    ∃ record, engine.records.lookup slashId = some record ∧ record.status = .reversed)

theorem balanced_started (config : SlashingConfig) (account : ResourceAccount)
    (history : AList fun _ : String => AgentHistory) :
    Balanced account [] (started config (some account) history) where
  account := ⟨account, rfl, fun _ => rfl⟩
  nonneg := forall_lookup_empty
  issued := by simp [slashes]
  distinct := nodup_nil
  stored := forall_lookup_empty
  refunded _ := ⟨Nat.zero_le _, fun some => absurd some (Nat.lt_irrefl 0)⟩

theorem refunds_concat (slashId : String) (past : List (Call × Answer)) (entry : Call × Answer) :
    refunds slashId (past ++ [entry]) = refunds slashId past + if isRefund slashId entry then 1 else 0 := by
  rw [refunds, filter_append, length_append, filter_singleton]
  cases isRefund slashId entry <;> rfl

section steps

variable {initial : ResourceAccount} {past : List (Call × Answer)} {engine after : SlashingEngine}
  {entry : Call × Answer}

section

variable (balanced : Balanced initial past engine) {number : UInt64} (more : number.toNat = engine.idCounter.toNat + 1)
include balanced more

theorem Balanced.fresh : "slash-" ++ toString number ∉ (slashes past).map SlashRecord.id := by
  intro again
  obtain ⟨record, mem, same⟩ := mem_map.mp again
  obtain ⟨old, below, named⟩ := balanced.issued record mem
  rw [named] at same
  rw [label_inj same, UInt64.le_iff_toNat_le] at below
  omega

theorem Balanced.absent : "slash-" ++ toString number ∉ engine.records := by
  intro there
  obtain ⟨old, found⟩ := mem_iff_lookup.mp there
  exact balanced.fresh more (balanced.stored _ old found)

end

theorem standing_insert {old new : SlashRecord} (found : engine.records.lookup slashId = some old)
    (records : after.records = engine.records.insert slashId new) (agent : String) :
    after.standing agent + owed agent old = engine.standing agent + owed agent new := by
  rw [standing, records]
  exact total_insert_of_mem found

theorem Balanced.account_after (balanced : Balanced initial past engine) (effect : Effect engine after entry)
    (below : after.BelowMax) :
    ∃ account, after.account = some account ∧ ∀ agent, (account.balance agent).inferenceTokens.toNat =
      (initial.balance agent).inferenceTokens.toNat + after.standing agent := by
  obtain ⟨held, attached, each⟩ := balanced.account
  cases effect with
  | kept _ _ records account =>
    refine ⟨held, account.trans attached, fun agent => ?_⟩
    rw [each, standing, standing, records]
  | slashed record _ _ status nonneg named counter records account =>
    rw [attached] at account
    refine ⟨_, account, fun agent => ?_⟩
    have room : ((charge record held).balance agent).inferenceTokens < u64Max := by
      have bound := below agent
      rwa [balanceOf, account] at bound
    have absent : record.id ∉ engine.records := by
      rw [named]
      exact balanced.absent counter
    have more : after.standing agent = engine.standing agent + owed agent record := by
      rw [standing, records, total_insert_of_notMem absent]
      rfl
    rw [toNat_balance_charge nonneg room, each, more, owed_of_stands (by simp [status]), Nat.add_assoc]
  | revised slashId old new _ _ found sameAgent sameAmount stood records account =>
    have replaced := standing_insert found records
    simp only [owed_of_stands stood] at replaced
    split at account
    next reversed =>
      rw [attached] at account
      refine ⟨_, account, fun agent => ?_⟩
      have sums := replaced agent
      rw [owed_of_reversed reversed] at sums
      rw [toNat_balance_credited (balanced.nonneg slashId old found), each]
      omega
    next reversed =>
      refine ⟨held, account.trans attached, fun agent => ?_⟩
      have sums := replaced agent
      rw [owed_of_stands reversed, sameAgent, sameAmount] at sums
      rw [each]
      omega

/-- A record was there before with the same amount, or is the one of the slash. -/
theorem Effect.origin {id : String} {record : SlashRecord} (effect : Effect engine after entry)
    (found : after.records.lookup id = some record) :
    (∃ old, engine.records.lookup id = some old ∧ record.executedAmountMilli = old.executedAmountMilli) ∨
      entry.2.record? = some record ∧ record.id = id ∧ 0 ≤ record.executedAmountMilli := by
  cases effect with
  | kept _ _ records => exact .inl ⟨record, records ▸ found, rfl⟩
  | slashed new answered _ _ nonneg _ _ records =>
    rw [records] at found
    obtain ⟨same, rfl⟩ | ⟨_, before⟩ := lookup_insert_eq_some.mp found
    · exact .inr ⟨answered, same, nonneg⟩
    · exact .inl ⟨record, before, rfl⟩
  | revised slashId old new _ _ stored _ sameAmount _ records =>
    rw [records] at found
    obtain ⟨rfl, rfl⟩ | ⟨_, before⟩ := lookup_insert_eq_some.mp found
    · exact .inl ⟨old, stored, sameAmount⟩
    · exact .inl ⟨record, before, rfl⟩

theorem Effect.slashes_cases (effect : Effect engine after entry) (past : List (Call × Answer)) :
    slashes (past ++ [entry]) = slashes past ∧ engine.idCounter ≤ after.idCounter ∨
      ∃ record, slashes (past ++ [entry]) = slashes past ++ [record] ∧
        record.id = "slash-" ++ toString after.idCounter ∧ after.idCounter.toNat = engine.idCounter.toNat + 1 := by
  rw [slashes_concat]
  cases effect with
  | kept answered _ _ _ counter =>
    rw [answered]
    exact .inl ⟨append_nil _, counter⟩
  | slashed record answered _ _ _ named counter =>
    rw [answered]
    exact .inr ⟨record, rfl, named, counter⟩
  | revised _ _ _ answered _ _ _ _ _ _ _ counter =>
    rw [answered, counter]
    exact .inl ⟨append_nil _, UInt64.le_refl _⟩

section

variable (balanced : Balanced initial past engine)
include balanced

theorem Balanced.issued_after (effect : Effect engine after entry) :
    (∀ record ∈ slashes (past ++ [entry]), ∃ number ≤ after.idCounter, record.id = "slash-" ++ toString number) ∧
      ((slashes (past ++ [entry])).map SlashRecord.id).Nodup := by
  have old (counter : engine.idCounter ≤ after.idCounter) : ∀ record ∈ slashes past, ∃ number ≤ after.idCounter,
      record.id = "slash-" ++ toString number := by
    intro record mem
    obtain ⟨number, below, named⟩ := balanced.issued record mem
    exact ⟨number, UInt64.le_trans below counter, named⟩
  rcases effect.slashes_cases past with ⟨same, counter⟩ | ⟨record, more, named, counter⟩
  · rw [same]
    exact ⟨old counter, balanced.distinct⟩
  · rw [more, forall_mem_append, forall_mem_singleton]
    refine ⟨⟨old (UInt64.le_of_lt (lt_of_toNat_eq counter)), _, UInt64.le_refl _, named⟩, ?_⟩
    have fresh := balanced.fresh counter
    rw [← named] at fresh
    simpa [nodup_append] using ⟨balanced.distinct, by simpa using fresh⟩

theorem Balanced.refunded_insert {id : String} {new : SlashRecord}
    (stands : ∀ record, engine.records.lookup id = some record → record.status ≠ .reversed)
    (refund : ∀ other, isRefund other entry = decide (new.status = .reversed ∧ id = other)) (slashId : String) :
    refunds slashId (past ++ [entry]) ≤ 1 ∧ (0 < refunds slashId (past ++ [entry]) →
      ∃ record, (engine.records.insert id new).lookup slashId = some record ∧ record.status = .reversed) := by
  rw [refunds_concat, refund]
  by_cases same : id = slashId
  · subst same
    have none : refunds id past = 0 := by
      by_contra some
      obtain ⟨record, stored, reversed⟩ := (balanced.refunded id).2 (Nat.pos_of_ne_zero some)
      exact stands record stored reversed
    by_cases reversed : new.status = .reversed <;> simp [none, reversed]
  · rw [AList.lookup_insert_ne (Ne.symm same)]
    simpa [same] using balanced.refunded slashId

theorem Balanced.refunded_after (effect : Effect engine after entry)
    (slashId : String) : refunds slashId (past ++ [entry]) ≤ 1 ∧ (0 < refunds slashId (past ++ [entry]) →
      ∃ record, after.records.lookup slashId = some record ∧ record.status = .reversed) := by
  cases effect with
  | kept _ quiet records =>
    rw [refunds_concat, quiet, records]
    exact balanced.refunded slashId
  | slashed record _ quiet status _ named counter records =>
    rw [records]
    refine balanced.refunded_insert (fun old found => ?_) (by simp [quiet, status]) slashId
    rw [named] at found
    exact absurd (mem_iff_lookup.mpr ⟨old, found⟩) (balanced.absent counter)
  | revised id old new _ refund found _ _ stood records =>
    rw [records]
    refine balanced.refunded_insert (fun record same => ?_) refund slashId
    cases found.symm.trans same
    exact stood

theorem balanced_step (ordinary : call.Ordinary) (below : (machine.step engine call).2.BelowMax) :
    Balanced initial (past ++ [(call, (machine.step engine call).1)]) (machine.step engine call).2 := by
  have effect := step_effect engine ordinary
  obtain ⟨issued, distinct⟩ := balanced.issued_after effect
  refine ⟨balanced.account_after effect below, fun id record found => ?_, issued, distinct, fun id record found => ?_,
    balanced.refunded_after effect⟩
  · obtain ⟨old, before, same⟩ | ⟨_, _, nonneg⟩ := effect.origin found
    · exact same ▸ balanced.nonneg id old before
    · exact nonneg
  · rw [slashes_concat, map_append]
    obtain ⟨old, before, _⟩ | ⟨answered, rfl, _⟩ := effect.origin found
    · exact mem_append_left _ (balanced.stored id old before)
    · simp [answered]

end

end steps

/-- In every run that reaches no maximal balance, each balance is the first one and what the agent's
records charge. No slash is refunded twice. -/
theorem slashes_balance (config : SlashingConfig) (account : ResourceAccount)
    (history : AList fun _ : String => AgentHistory) (calls : List Call) (ordinary : ∀ call ∈ calls, call.Ordinary)
    (below : machine.Throughout (started config (some account) history) (fun _ engine => engine.BelowMax) calls) :
    (∀ agent, ((machine.after (started config (some account) history) calls).balanceOf agent).toNat =
        (account.balance agent).inferenceTokens.toNat +
          (machine.after (started config (some account) history) calls).standing agent) ∧
      (∀ id record, (machine.after (started config (some account) history) calls).records.lookup id = some record →
        0 ≤ record.executedAmountMilli) ∧
      ((slashes (machine.log (started config (some account) history) calls)).map SlashRecord.id).Nodup ∧
      (∀ slashId, refunds slashId (machine.log (started config (some account) history) calls) ≤ 1) ∧
      ∀ past call, past ++ [call] <+: calls →
        (machine.step (machine.after (started config (some account) history) past) call).1.Failed ∨ call.Upholds →
        (machine.after (started config (some account) history) (past ++ [call])).account =
          (machine.after (started config (some account) history) past).account := by
  have balanced := Machine.invariant_throughout (balanced_started config account history)
    (fun past engine call allowed before bound => balanced_step before allowed bound) calls ordinary below
  obtain ⟨held, attached, each⟩ := balanced.account
  refine ⟨?_, balanced.nonneg, balanced.distinct, fun slashId => (balanced.refunded slashId).1, ?_⟩
  · intro agent
    rw [balanceOf, attached]
    exact each agent
  · intro past call initial idle
    rw [Machine.after_concat]
    exact account_of_idle _ (ordinary call (initial.subset (by simp))) idle

def sampleCalls : List Call :=
  [.slash "agent" ⟨.downtime, 700, .minor, "offline"⟩ 0, .slash "agent" ⟨.missedTasks, 40, .minor, "late"⟩ 1,
    .appeal "slash-1" "agent" "maintenance" 2, .resolveAppeal "slash-1" false "granted"]

def uncapped : SlashingConfig := { SlashingConfig.default with maxSlashPercentage := 0 }

theorem sampleCalls_below :
    machine.Throughout (started uncapped (some (.new .default)) ∅) (fun _ engine => engine.BelowMax) sampleCalls := by
  intro past initial
  have listed := (mem_inits _ _).mpr initial
  simp only [sampleCalls, inits, map_cons, map_nil, mem_cons, not_mem_nil, or_false] at listed
  rcases listed with rfl | rfl | rfl | rfl | rfl
  all_goals
    apply belowMax_iff.mpr
    decide +kernel

/-- The slash that was not refunded is what the agent's balance shows. -/
theorem slashes_balance_sample :
    ((machine.after (started uncapped (some (.new .default)) ∅) sampleCalls).balanceOf "agent").toNat = 0 + 40 :=
  (slashes_balance uncapped (.new .default) ∅ sampleCalls (by simp [sampleCalls, Call.Ordinary]) sampleCalls_below).1
    "agent"

end SlashingEngine

end Aafp.Economics
