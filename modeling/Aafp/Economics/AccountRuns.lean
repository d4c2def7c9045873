import Aafp.Economics.Account
import Aafp.Foundation.Machine

/-! What the operations of an account keep. -/
namespace Aafp.Economics

open Foundation ResourceUsage AList

namespace ResourceAccount

inductive Call where
  | register (agent : String)
  | debit (agent : String) (usage : ResourceUsage)
  | debitChecked (agent : String) (usage : ResourceUsage)
  | credit (agent : String) (usage : ResourceUsage)
  | transfer (fromAgent toAgent : String) (usage : ResourceUsage)
  | reset (agent : String)
  | remove (agent : String)

inductive Answer where
  | done
  | flag (value : Bool)
  | outcome (result : Except EconomicsError Unit)
  | checked (result : Except EconomicsError LimitCheck)

def machine : Machine Call Answer ResourceAccount where
  step account
    | .register agent => ((account.register agent).map .flag id)
    | .debit agent usage => ((account.debit agent usage).map .outcome id)
    | .debitChecked agent usage => ((account.debitChecked agent usage).map .checked id)
    | .credit agent usage => (.done, account.credit agent usage)
    | .transfer fromAgent toAgent usage => ((account.transfer fromAgent toAgent usage).map .outcome id)
    | .reset agent => (.done, account.reset agent)
    | .remove agent => ((account.remove agent).map .flag id)

def WithinLimits (account : ResourceAccount) : Prop :=
  ∀ agent resource, (account.balance agent).of resource ≤ (account.config.limitsFor agent).of resource

/-- A transfer that goes through to another agent fits in the limits of that agent. -/
def TransferFits (account : ResourceAccount) : Call → Prop
  | .transfer fromAgent toAgent usage =>
    fromAgent ≠ toAgent → account.Covers fromAgent usage → account.checkLimits toAgent usage = .ok ()
  | _ => True

theorem balance_new (config : AccountConfig) (agent : String) : (new config).balance agent = .zero := rfl

theorem checkLimits_eq_ok {account : ResourceAccount} {agent : String} :
    account.checkLimits agent usage = .ok () ↔ ∀ resource,
      saturatingAdd ((account.balance agent).of resource) (usage.of resource) ≤
        (account.config.limitsFor agent).of resource := by
  simp only [checkLimits, ResourceLimits.check_eq_ok, of_add]

theorem withinLimits_new (config : AccountConfig) : (new config).WithinLimits := by
  intro agent resource
  rw [balance_new, of_zero]
  exact UInt64.zero_le

section steps

variable {account : ResourceAccount} {usage : ResourceUsage} (agent : String)

theorem WithinLimits.of_balance {changed : ResourceAccount} (within : account.WithinLimits)
    (sameConfig : changed.config = account.config)
    (others : ∀ other, agent ≠ other → changed.balance other = account.balance other)
    (own : ∀ resource, (changed.balance agent).of resource ≤ (account.config.limitsFor agent).of resource) :
    changed.WithinLimits := by
  intro other resource
  rw [sameConfig]
  by_cases same : agent = other
  · subst same
    exact own resource
  · rw [others other same]
    exact within other resource

section

variable (within : account.WithinLimits)
include within

theorem withinLimits_debited_iff :
    (account.onEntry agent (·.debit usage)).WithinLimits ↔ account.checkLimits agent usage = .ok () := by
  rw [checkLimits_eq_ok]
  constructor
  · intro kept resource
    have own := kept agent resource
    rwa [balance_debited, if_pos rfl, of_add] at own
  · intro fits
    refine WithinLimits.of_balance agent within rfl ?_ ?_
    · intro other different
      rw [balance_debited, if_neg different]
    · intro resource
      rw [balance_debited, if_pos rfl, of_add]
      exact fits resource

theorem withinLimits_credit : (account.credit agent usage).WithinLimits := by
  refine WithinLimits.of_balance agent within rfl ?_ ?_
  · intro other different
    rw [balance_credit, if_neg different]
  · intro resource
    rw [balance_credit, if_pos rfl, of_saturatingSub, UInt64.le_iff_toNat_le, toNat_saturatingSub]
    exact Nat.le_trans (Nat.sub_le _ _) (within agent resource)

theorem withinLimits_emptied : (account.onEntry agent fun _ => .new).WithinLimits := by
  refine WithinLimits.of_balance agent within rfl ?_ ?_
  · intro other different
    rw [balance_onEntry, if_neg different]
  · intro resource
    rw [balance_onEntry, if_pos rfl, AgentLedger.new, of_zero]
    exact UInt64.zero_le

theorem withinLimits_reset : (account.reset agent).WithinLimits := by
  unfold reset
  split
  · exact withinLimits_emptied agent within
  · exact within

theorem withinLimits_register : (account.register agent).2.WithinLimits := by
  unfold register
  split
  · exact within
  · exact withinLimits_emptied agent within

theorem withinLimits_remove : (account.remove agent).2.WithinLimits := by
  refine WithinLimits.of_balance agent within rfl ?_ ?_
  · intro other different
    simp [remove, balance, lookup_erase_ne (Ne.symm different)]
  · intro resource
    simp [remove, balance]

end

end steps

theorem balance_transfer_self {account : ResourceAccount} {agent : String}
    (covers : account.Covers agent usage) (other : String) :
    ((account.credit agent usage).onEntry agent (·.debit usage)).balance other = account.balance other := by
  rw [balance_debited, balance_credit, balance_credit, if_pos rfl]
  split
  · subst agent
    apply ext_of
    intro resource
    rw [of_add, of_saturatingSub]
    exact saturatingAdd_saturatingSub (covers resource)
  · rfl

theorem withinLimits_transfer_iff {account : ResourceAccount} {fromAgent toAgent : String}
    (within : account.WithinLimits) : (account.transfer fromAgent toAgent usage).2.WithinLimits ↔
      account.TransferFits (.transfer fromAgent toAgent usage) := by
  rw [TransferFits]
  by_cases covers : account.Covers fromAgent usage
  · rw [transfer_of_covers account toAgent usage covers]
    by_cases same : fromAgent = toAgent
    · -- the ledger is credited and debited: the balance is what it was
      subst same
      refine iff_of_true ?_ (fun different => absurd rfl different)
      intro other resource
      rw [balance_transfer_self covers]
      exact within other resource
    · have untouched : (account.credit fromAgent usage).balance toAgent = account.balance toAgent := by
        rw [balance_credit, if_neg same]
      rw [withinLimits_debited_iff toAgent (withinLimits_credit fromAgent within), checkLimits_eq_ok,
        checkLimits_eq_ok, untouched]
      exact ⟨fun fits _ _ => fits, fun fits => fits same covers⟩
  · obtain ⟨error, refused⟩ := transfer_of_not_covers account toAgent usage covers
    rw [refused]
    exact iff_of_true within fun _ enough => absurd enough covers

/-- What the operations do to the ledger of an agent. -/
inductive Entry : (AgentLedger → AgentLedger) → Prop where
  | debit (usage : ResourceUsage) : Entry (·.debit usage)
  | credit (usage : ResourceUsage) : Entry (·.credit usage)
  | clear : Entry fun _ => .new

/-- What every entry in a ledger keeps, and the removal of a ledger, is kept by every call. -/
theorem step_keeps {Holds : ResourceAccount → Prop}
    (entered : ∀ account agent change, Entry change → Holds account → Holds (account.onEntry agent change))
    (removed : ∀ account agent, Holds account → Holds (account.remove agent).2) {account : ResourceAccount}
    (held : Holds account) (call : Call) : Holds (machine.step account call).2 := by
  have debited : ∀ agent usage, Holds (account.debitChecked agent usage).2 := by
    intro agent usage
    rcases account.debitChecked_cases agent usage with ⟨check, debited, -⟩ | ⟨error, refused⟩
    · rw [debited]
      exact entered account agent _ (.debit usage) held
    · rw [refused]
      exact held
  cases call with
  | register agent =>
    simp only [machine, register]
    split
    · exact held
    · exact entered account agent _ .clear held
  | debit agent usage => exact debited agent usage
  | debitChecked agent usage => exact debited agent usage
  | credit agent usage => exact entered account agent _ (.credit usage) held
  | transfer fromAgent toAgent usage =>
    simp only [machine, transfer]
    split
    · exact held
    · exact entered _ toAgent _ (.debit usage) (entered account fromAgent _ (.credit usage) held)
  | reset agent =>
    simp only [machine, reset]
    split
    · exact entered account agent _ .clear held
    · exact held
  | remove agent => exact removed account agent held

theorem config_step (account : ResourceAccount) (call : Call) : (machine.step account call).2.config = account.config :=
  @step_keeps (·.config = account.config) (fun _ _ _ _ same => same) (fun _ _ same => same) account rfl call

theorem withinLimits_step_iff {account : ResourceAccount} (rejects : account.config.overflowPolicy = .reject)
    (within : account.WithinLimits) (call : Call) :
    (machine.step account call).2.WithinLimits ↔ account.TransferFits call := by
  have debited : ∀ agent usage, (account.debitChecked agent usage).2.WithinLimits := by
    intro agent usage
    rcases account.debitChecked_cases agent usage with ⟨check, entered, fits⟩ | ⟨error, refused⟩
    · rw [entered]
      exact (withinLimits_debited_iff agent within).mpr (fits rejects)
    · rwa [refused]
  cases call with
  | transfer fromAgent toAgent usage => exact withinLimits_transfer_iff within
  | register agent => exact iff_of_true (withinLimits_register agent within) trivial
  | credit agent usage => exact iff_of_true (withinLimits_credit agent within) trivial
  | reset agent => exact iff_of_true (withinLimits_reset agent within) trivial
  | remove agent => exact iff_of_true (withinLimits_remove agent within) trivial
  | debit agent usage => exact iff_of_true (debited agent usage) trivial
  | debitChecked agent usage => exact iff_of_true (debited agent usage) trivial

/-- The limits hold throughout exactly those runs whose transfers fit in the limits of the
agents that receive. -/
theorem withinLimits_throughout_iff (config : AccountConfig) (calls : List Call) :
    machine.Throughout (new { config with overflowPolicy := .reject }) (fun _ account => account.WithinLimits) calls ↔
      machine.Meets (new { config with overflowPolicy := .reject }) (fun _ account call => account.TransferFits call)
        calls := by
  apply @Machine.throughout_iff_meets _ _ _ machine _ fun _ account => account.config.overflowPolicy = .reject
  · rfl
  · exact withinLimits_new _
  · intro past account call rejects
    rw [config_step]
    exact rejects
  · intro past account call rejects within
    exact withinLimits_step_iff rejects within call

def sampleConfig : AccountConfig where
  defaultLimits := .unlimited
  agentLimits := (∅ : AList fun _ : String => ResourceLimits).insert "idle" ⟨0, 0, 0, 0, 0, 0⟩
  overflowPolicy := .reject

/-- A transfer takes the agent that may use nothing past its limits. -/
theorem withinLimits_not_throughout :
    ¬ machine.Throughout (new sampleConfig) (fun _ account => account.WithinLimits)
      [.debit "busy" ⟨1, 0, 0, 0, 0, 0⟩, .transfer "busy" "idle" ⟨1, 0, 0, 0, 0, 0⟩] := by
  intro kept
  have last := kept _ (List.prefix_refl _) "idle" .cpuMs
  revert last
  decide +kernel

/-- What was debited is the net usage and at most what was credited, which may have been more. -/
def Balances (ledger : AgentLedger) : Prop :=
  ∀ resource, (ledger.netUsage.of resource).toNat ≤ (ledger.totalDebited.of resource).toNat ∧
    (ledger.totalDebited.of resource).toNat ≤
      (ledger.netUsage.of resource).toNat + (ledger.totalCredited.of resource).toNat

def Audited (account : ResourceAccount) : Prop :=
  ∀ agent ledger, account.ledgers.lookup agent = some ledger → Balances ledger

theorem balances_new : Balances .new := by
  simp [Balances, AgentLedger.new]

theorem Entry.balances (entry : Entry change) (balances : Balances ledger) : Balances (change ledger) := by
  cases entry with
  | clear => exact balances_new
  | debit usage =>
    intro resource
    have before := balances resource
    simp only [AgentLedger.debit, of_add, toNat_saturatingAdd]
    omega
  | credit usage =>
    intro resource
    have before := balances resource
    have bound := (ledger.totalDebited.of resource).toNat_lt
    simp only [AgentLedger.credit, of_add, of_saturatingSub, toNat_saturatingAdd, toNat_saturatingSub]
    omega

theorem Audited.onEntry {account : ResourceAccount} (audited : account.Audited) (agent : String)
    (entry : Entry change) : (account.onEntry agent change).Audited := by
  refine forall_lookup_insert audited (entry.balances ?_)
  cases found : account.ledgers.lookup agent with
  | none => exact balances_new
  | some ledger => exact audited agent ledger found

/-- The net usage of an agent is at most what was debited, which is at most the net usage and what
was credited. -/
theorem audited_after (config : AccountConfig) (calls : List Call) : (machine.after (new config) calls).Audited := by
  have held := @Machine.invariant _ _ _ machine (new config) fun _ account => account.Audited
  refine held nofun ?_ calls
  intro past account call audited
  refine step_keeps ?_ ?_ audited call
  · exact fun account agent change entry audited => audited.onEntry agent entry
  · exact fun account agent audited other ledger found => audited other ledger (lookup_of_lookup_erase found)

variable (account : ResourceAccount)

def sumOf (resource : Resource) : Nat :=
  total (fun ledger => (ledger.netUsage.of resource).toNat) account.ledgers

theorem sumOf_onEntry (agent : String) (change : AgentLedger → AgentLedger) (resource : Resource) :
    (account.onEntry agent change).sumOf resource + ((account.balance agent).of resource).toNat =
      account.sumOf resource + (((account.onEntry agent change).balance agent).of resource).toNat := by
  rw [balance_onEntry, if_pos rfl]
  unfold sumOf onEntry balance
  cases found : account.ledgers.lookup agent with
  | some ledger => exact total_insert_of_mem found
  | none =>
    have absent : agent ∉ account.ledgers := lookup_eq_none.mp found
    rw [total_insert_of_notMem absent]
    simp

/-- What a transfer that goes through does: nothing is lost and nothing is invented. -/
structure Moves (before after : ResourceAccount) (fromAgent toAgent : String) (usage : ResourceUsage) : Prop where
  sum : ∀ resource, after.sumOf resource = before.sumOf resource
  source : fromAgent ≠ toAgent → ∀ resource,
    ((after.balance fromAgent).of resource).toNat + (usage.of resource).toNat =
      ((before.balance fromAgent).of resource).toNat
  destination : fromAgent ≠ toAgent → ∀ resource,
    ((after.balance toAgent).of resource).toNat =
      ((before.balance toAgent).of resource).toNat + (usage.of resource).toNat
  self : fromAgent = toAgent → after.balance fromAgent = before.balance fromAgent
  others : ∀ other, other ≠ fromAgent → other ≠ toAgent → after.ledgers.lookup other = before.ledgers.lookup other

/-- A transfer conserves resources if it goes through, and changes nothing if it fails. -/
def TransferConserves (fromAgent toAgent : String) (usage : ResourceUsage) : Prop :=
  ((account.transfer fromAgent toAgent usage).1 = .ok () →
      account.Moves (account.transfer fromAgent toAgent usage).2 fromAgent toAgent usage) ∧
    ∀ error, (account.transfer fromAgent toAgent usage).1 = .error error →
      (account.transfer fromAgent toAgent usage).2 = account

def HasRoom (agent : String) (usage : ResourceUsage) : Prop :=
  ∀ resource, ((account.balance agent).of resource).toNat + (usage.of resource).toNat < 2 ^ 64

section conservation

variable {account : ResourceAccount} {fromAgent toAgent : String} {usage : ResourceUsage}

theorem toNat_balance_credit (covers : account.Covers fromAgent usage) (resource : Resource) :
    (((account.credit fromAgent usage).balance fromAgent).of resource).toNat + (usage.of resource).toNat =
      ((account.balance fromAgent).of resource).toNat := by
  have enough := UInt64.le_iff_toNat_le.mp (covers resource)
  rw [balance_credit, if_pos rfl, of_saturatingSub, toNat_saturatingSub]
  omega

theorem moves_self (covers : account.Covers fromAgent usage) :
    account.Moves ((account.credit fromAgent usage).onEntry fromAgent (·.debit usage)) fromAgent fromAgent usage where
  sum resource := by
    have credited := account.sumOf_onEntry fromAgent (·.credit usage) resource
    have debited := (account.credit fromAgent usage).sumOf_onEntry fromAgent (·.debit usage) resource
    rw [balance_transfer_self covers] at debited
    rw [← credit] at credited
    omega
  source different := absurd rfl different
  destination different := absurd rfl different
  self _ := balance_transfer_self covers fromAgent
  others other first second := by
    simp [credit, onEntry, lookup_insert_ne first]

theorem moves_other (different : fromAgent ≠ toAgent) (covers : account.Covers fromAgent usage)
    (room : account.HasRoom toAgent usage) :
    account.Moves ((account.credit fromAgent usage).onEntry toAgent (·.debit usage)) fromAgent toAgent usage := by
  have untouched : (account.credit fromAgent usage).balance toAgent = account.balance toAgent := by
    rw [balance_credit, if_neg different]
  have received : ∀ resource,
      ((((account.credit fromAgent usage).onEntry toAgent (·.debit usage)).balance toAgent).of resource).toNat =
        ((account.balance toAgent).of resource).toNat + (usage.of resource).toNat := by
    intro resource
    rw [balance_debited, if_pos rfl, untouched, of_add]
    exact toNat_saturatingAdd_eq_iff.mpr (room resource)
  constructor
  · intro resource
    have credited := account.sumOf_onEntry fromAgent (·.credit usage) resource
    have debited := (account.credit fromAgent usage).sumOf_onEntry toAgent (·.debit usage) resource
    have sent := toNat_balance_credit covers resource
    rw [received, untouched] at debited
    rw [← credit] at credited
    omega
  · intro _ resource
    rw [balance_debited, if_neg (Ne.symm different)]
    exact toNat_balance_credit covers resource
  · intro _ resource
    exact received resource
  · intro same
    exact absurd same different
  · intro other first second
    simp [credit, onEntry, lookup_insert_ne first, lookup_insert_ne second]

end conservation

/-- Transfers conserve resources exactly if the agent that receives has room for them. -/
theorem transferConserves_iff (account : ResourceAccount) (fromAgent toAgent : String) (usage : ResourceUsage) :
    account.TransferConserves fromAgent toAgent usage ↔
      (fromAgent ≠ toAgent → account.Covers fromAgent usage → account.HasRoom toAgent usage) := by
  unfold TransferConserves
  by_cases covers : account.Covers fromAgent usage
  · rw [transfer_of_covers account toAgent usage covers]
    constructor
    · rintro ⟨moves, -⟩ different - resource
      rw [← (moves rfl).destination different resource]
      exact UInt64.toNat_lt _
    · intro room
      refine ⟨fun _ => ?_, nofun⟩
      by_cases same : fromAgent = toAgent
      · subst same
        exact moves_self covers
      · exact moves_other same covers (room same covers)
  · obtain ⟨error, refused⟩ := transfer_of_not_covers account toAgent usage covers
    rw [refused]
    exact iff_of_true ⟨nofun, fun _ _ => rfl⟩ fun _ enough => absurd enough covers

/-- The receiver has used all that can be counted, and the sender one unit more. -/
def sampleAccount : ResourceAccount :=
  machine.after (new .default) [.debit "full" ⟨u64Max, 0, 0, 0, 0, 0⟩, .debit "busy" ⟨1, 0, 0, 0, 0, 0⟩]

/-- A transfer to an agent whose balance is full loses what it moves. -/
theorem transfer_loses : ¬ sampleAccount.TransferConserves "busy" "full" ⟨1, 0, 0, 0, 0, 0⟩ ∧
      (sampleAccount.transfer "busy" "full" ⟨1, 0, 0, 0, 0, 0⟩).2.sumOf .cpuMs + 1 = sampleAccount.sumOf .cpuMs := by
  constructor
  · rintro ⟨moves, -⟩
    have sum := (moves (by decide +kernel)).sum .cpuMs
    revert sum
    decide +kernel
  · decide +kernel

end ResourceAccount

end Aafp.Economics
