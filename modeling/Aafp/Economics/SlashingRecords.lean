import Aafp.Economics.SlashingRuns

/-! The records of a slashing engine. -/
namespace Aafp.Economics

open Foundation AList

namespace SlashingEngine

def KeepsRecords (before after : SlashingEngine) : Prop :=
  ∀ id record, before.records.lookup id = some record →
    ∃ later, after.records.lookup id = some later ∧ Continues record later

/-- No record is lost: there is one for each slash that succeeded, and it is kept. -/
structure NothingLost (start : SlashingEngine) (calls : List Call) : Prop where
  counted : machine.Throughout start (fun past engine => engine.records.entries.length = (slashes past).length) calls
  stored : ∀ past call, past ++ [call] <+: calls → ∀ record,
    (machine.step (machine.after start past) call).1.record? = some record →
      (machine.after start (past ++ [call])).records.lookup record.id = some record ∧ record.status = .executed
  kept : ∀ past more, past ++ more <+: calls →
    KeepsRecords (machine.after start past) (machine.after start (past ++ more))

/-- A slash is admitted, the counter has room, and the account can be debited. -/
structure Affords (engine : SlashingEngine) (agentId : String) (penalty : SlashingPenalty) (now : UInt64) : Prop where
  admitted : engine.admission agentId penalty now = .ok ()
  room : ¬ engine.idCounter.toNat + 1 = UInt64.size
  debited : (engine.debitAccount agentId (engine.effectiveAmount agentId penalty)).1 = .ok ()

/-- A slash with an id from the counter finds no record there, and no record is removed. -/
def FreeId (engine : SlashingEngine) : Call → Prop
  | .slash agentId penalty now => engine.Affords agentId penalty now → engine.nextLabel ∉ engine.records
  | .evaluateAndSlash agentId condition severity evidence now =>
    engine.evaluateCondition agentId condition now = true ∧ engine.Affords agentId
      (.new condition severity engine.config.baseAmountMilli evidence) now → engine.nextLabel ∉ engine.records
  | .remove id => id ∉ engine.records
  | _ => True

section keeping

variable {before middle after : SlashingEngine} {record between later : SlashRecord}

theorem Continues.refl (record : SlashRecord) : Continues record record := ⟨rfl, rfl, rfl, .refl⟩

theorem Continues.trans (first : Continues record between) (second : Continues between later) :
    Continues record later where
  agentId := second.agentId.trans first.agentId
  penalty := second.penalty.trans first.penalty
  executedAmount := second.executedAmount.trans first.executedAmount
  status := first.status.trans second.status

end keeping

inductive Writes (engine after : SlashingEngine) (call : Call) (answer : Answer) : Prop where
  | entered (record : SlashRecord) (answered : answer.record? = some record) (status : record.status = .executed)
      (records : after.records = engine.records.insert record.id record)
      (free : engine.FreeId call ↔ record.id ∉ engine.records)
  | changed (id : String) (old later : SlashRecord) (answered : answer.record? = none)
      (found : engine.records.lookup id = some old) (continues : Continues old later)
      (records : after.records = engine.records.insert id later) (free : engine.FreeId call)
  | removed (id : String) (answered : answer.record? = none) (records : after.records = engine.records.erase id)
      (free : engine.FreeId call ↔ id ∉ engine.records)
  | kept (answered : answer.record? = none) (records : after.records = engine.records) (free : engine.FreeId call)

section writing

variable {engine : SlashingEngine}

theorem debitAccount_counter (engine : SlashingEngine) (counter : UInt64) (agentId : String) (amount : Int64) :
    (debitAccount { engine with idCounter := counter } agentId amount).1 = (engine.debitAccount agentId amount).1 := by
  obtain ⟨config, records, history, timestamps, account, _⟩ := engine
  cases account with
  | none => rfl
  | some account =>
    simp only [debitAccount]
    split_ifs <;> rfl

theorem execute_isOk (engine : SlashingEngine) (id : String) (penalty : SlashingPenalty) :
    (engine.execute id agentId penalty now).1.isOk =
      (engine.debitAccount agentId (engine.effectiveAmount agentId penalty)).1.isOk := by
  simp only [execute, executedRecord, SlashRecord.new]
  split
  next refused => rw [refused]; rfl
  next charged => rw [charged]; rfl

theorem slash_isOk_iff {penalty : SlashingPenalty} :
    (engine.slash agentId penalty now).1.isOk = true ↔ engine.Affords agentId penalty now := by
  unfold slash nextId
  cases admitted : engine.admission agentId penalty now with
  | error error =>
    refine iff_of_false nofun fun affords => ?_
    cases admitted.symm.trans affords.admitted
  | ok =>
    split_ifs with full
    · exact iff_of_false nofun fun affords => affords.room full
    · simp only [execute_isOk, debitAccount_counter]
      refine ⟨fun made => ⟨admitted, full, ?_⟩, fun affords => ?_⟩
      · change (engine.debitAccount agentId (engine.effectiveAmount agentId penalty)).1.isOk = true at made
        cases charged : (engine.debitAccount agentId (engine.effectiveAmount agentId penalty)).1 with
        | error error =>
          rw [charged] at made
          cases made
        | ok => rfl
      · exact congrArg Except.isOk affords.debited

theorem freeId_slash_iff {penalty : SlashingPenalty} : engine.FreeId (.slash agentId penalty now) ↔
    ((engine.slash agentId penalty now).1.isOk = true → engine.nextLabel ∉ engine.records) := by
  rw [slash_isOk_iff]
  rfl

theorem freeId_evaluateAndSlash_iff :
    engine.FreeId (.evaluateAndSlash agentId condition severity evidence now) ↔
      ((engine.evaluateAndSlash agentId condition severity evidence now).1.isOk = true →
        engine.nextLabel ∉ engine.records) := by
  rw [FreeId, ← slash_isOk_iff, evaluateAndSlash]
  by_cases holds : engine.evaluateCondition agentId condition now = true
  · simp only [holds, true_and, ↓reduceIte]
  · simp only [holds, Bool.false_eq_true, false_and, ↓reduceIte, false_implies, true_iff]
    exact fun made => absurd made Bool.false_ne_true

theorem freeId_of_failed {call : Call} (failed : (machine.step engine call).1.Failed) : engine.FreeId call := by
  cases call with
  | remove id => exact failed.elim
  | slash agentId penalty now | evaluateAndSlash agentId condition severity evidence now =>
    simp only [freeId_slash_iff, freeId_evaluateAndSlash_iff]
    simp only [machine, answering, Answer.Failed] at failed
    intro made
    split at failed <;> simp_all [Except.isOk, Except.toBool]
  | _ => trivial

theorem freeId_iff_of_drawn {call : Call} (draws : call.Draws)
    (answered : (machine.step engine call).1 = .slashed (.ok record)) :
    engine.FreeId call ↔ engine.nextLabel ∉ engine.records := by
  cases call with
  | slash agentId penalty now | evaluateAndSlash agentId condition severity evidence now =>
    have made := Answer.slashed.inj answered
    simp only [freeId_slash_iff, freeId_evaluateAndSlash_iff, made, Except.isOk, Except.toBool, forall_const]
  | _ => exact draws.elim

theorem step_writes (engine : SlashingEngine) (call : Call) :
    Writes engine (machine.step engine call).2 call (machine.step engine call).1 := by
  have failing := @freeId_of_failed engine call
  have drawing := fun record => @freeId_iff_of_drawn engine record call
  have outcome := engine.step_outcome call
  generalize (machine.step engine call).1 = answer, (machine.step engine call).2 = after at *
  cases outcome with
  | refused counter failed => exact .kept (record_of_failed failed) rfl (failing failed)
  | drawn record draws _ applies _ named =>
    refine .entered record rfl applies.status rfl ?_
    rw [named]
    exact drawing record draws rfl
  | chosen record absent applies => exact .entered record rfl applies.status rfl (iff_of_true trivial absent)
  | amended slashId record later amends found continues =>
    refine .changed slashId record later rfl found continues rfl ?_
    cases call with
    | appeal | assignArbiter | resolveAppeal => trivial
    | _ => exact amends.elim
  | reversed slashId note record found appealed =>
    exact .changed slashId record _ rfl found (resolved_continues appealed false note) rfl trivial
  | removed id => exact .removed id rfl rfl .rfl
  | evicted | noted => exact .kept rfl rfl trivial

variable {after : SlashingEngine} {call : Call} {answer : Answer}

theorem Writes.keepsRecords (writes : Writes engine after call answer) (free : engine.FreeId call) :
    KeepsRecords engine after := by
  cases writes with
  | entered record _ _ records absent =>
    rw [KeepsRecords, records]
    refine (extends_insert_iff .refl).mpr fun old found => ?_
    exact absurd (mem_iff_lookup.mpr ⟨old, found⟩) (absent.mp free)
  | changed id old later _ found continues records =>
    rw [KeepsRecords, records]
    refine (extends_insert_iff .refl).mpr fun record same => ?_
    cases found.symm.trans same
    exact continues
  | removed id _ records absent =>
    intro other record found
    refine ⟨record, ?_, .refl record⟩
    have differs : other ≠ id := by
      intro same
      exact absent.mp free (mem_iff_lookup.mpr ⟨record, same ▸ found⟩)
    rwa [records, lookup_erase_ne differs]
  | kept _ records =>
    rw [KeepsRecords, records]
    exact Extends.refl .refl _

theorem Writes.counted_iff (writes : Writes engine after call answer)
    (counted : engine.records.entries.length = count) :
    after.records.entries.length = count + answer.record?.toList.length ↔ engine.FreeId call := by
  cases writes with
  | entered record answered _ records free =>
    rw [free, answered, records, Option.toList_some, List.length_singleton]
    by_cases there : record.id ∈ engine.records
    · rw [length_insert_of_mem there]
      exact iff_of_false (by omega) (not_not.mpr there)
    · rw [length_insert_of_notMem there]
      exact iff_of_true (by omega) there
  | changed id old later answered found _ records free =>
    rw [answered, records, length_insert_of_mem (mem_iff_lookup.mpr ⟨old, found⟩)]
    exact iff_of_true counted free
  | removed id answered records free =>
    rw [free, answered, records]
    by_cases there : id ∈ engine.records
    · have fewer := length_erase_add_one there
      exact iff_of_false (by omega) (not_not.mpr there)
    · rw [length_erase_of_notMem there]
      exact iff_of_true counted there
  | kept answered records free =>
    rw [answered, records]
    exact iff_of_true counted free

end writing

/-- No record is lost exactly in the runs that remove none and give out no id that was chosen
before. -/
theorem nothingLost_iff (config : SlashingConfig) (account : Option ResourceAccount)
    (history : AList fun _ : String => AgentHistory) (calls : List Call) :
    NothingLost (started config account history) calls ↔
      machine.Meets (started config account history) (fun _ engine call => engine.FreeId call) calls := by
  have counted : machine.Throughout (started config account history)
      (fun past engine => engine.records.entries.length = (slashes past).length) calls ↔
        machine.Meets (started config account history) (fun _ engine call => engine.FreeId call) calls := by
    apply @Machine.throughout_iff_meets _ _ _ machine (started config account history) (fun _ _ => True)
    · trivial
    · rfl
    · exact fun _ _ _ _ => trivial
    · intro past engine call _ counted
      rw [slashes_concat, List.length_append]
      exact (step_writes engine call).counted_iff counted
  constructor
  · intro lost
    exact counted.mp lost.counted
  · intro free
    refine ⟨counted.mpr free, ?_, ?_⟩
    · intro past call _ record answered
      rw [Machine.after_concat]
      cases step_writes (machine.after (started config account history) past) call with
      | entered entered same status records =>
        rw [answered] at same
        cases same
        exact ⟨by rw [records]; exact lookup_insert _, status⟩
      | changed _ _ _ none => simp [none] at answered
      | removed _ none => simp [none] at answered
      | kept none => simp [none] at answered
    · rw [@Machine.related_iff_steps _ _ _ _ _ _ KeepsRecords (fun _ => Extends.refl .refl _) (Extends.trans .trans)]
      intro past call initial
      exact (step_writes _ call).keepsRecords (free past call initial)

def clashingCalls : List Call :=
  [.slashWithId "slash-1" "alice" (.new .downtime .minor 1000 "") 0, .slash "bob" (.new .downtime .minor 1000 "") 1]

/-- Both slashes succeed, but only the record of the second one is left. -/
theorem clashingCalls_lost : ¬ NothingLost (started .default none ∅) clashingCalls ∧
      (slashes (machine.log (started .default none ∅) clashingCalls)).map (fun record => (record.id, record.agentId)) =
        [("slash-1", "alice"), ("slash-1", "bob")] ∧
      (machine.after (started .default none ∅) clashingCalls).records.entries.length = 1 ∧
      ((machine.after (started .default none ∅) clashingCalls).records.lookup "slash-1").map SlashRecord.agentId =
        some "bob" := by
  have both : (slashes (machine.log (started .default none ∅) clashingCalls)).map
      (fun record => (record.id, record.agentId)) = [("slash-1", "alice"), ("slash-1", "bob")] := by decide +kernel
  have one : (machine.after (started .default none ∅) clashingCalls).records.entries.length = 1 := by decide +kernel
  refine ⟨fun lost => ?_, both, one, by decide +kernel⟩
  have counted : (machine.after (started .default none ∅) clashingCalls).records.entries.length = _ :=
    lost.counted clashingCalls (List.prefix_refl _)
  cases counted

end SlashingEngine

end Aafp.Economics
