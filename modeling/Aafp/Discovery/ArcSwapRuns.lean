import Aafp.Discovery.ArcSwapDht

/-! Writers of one sharded table at the same time. -/
namespace Aafp.Discovery

open Foundation Identity DhtShardSnapshot

inductive WriterCall where
  | put (record : AgentRecord)
  | evictExpired (pass : RecordOrder) (now : UInt64)

inductive WriterAnswer where
  | stored (answer : Bool)
  | evicted (total : Nat)

namespace ArcSwapDht

variable {ι : Type} {shardCount : Nat}

def eviction (pass : RecordOrder) (now : UInt64) (shards : List (Fin shardCount))
    (total : Nat) : Access shardCount WriterAnswer := do
  let total ← evictShards pass now shards total
  pure (.evicted total)

def perform : WriterCall → Access shardCount WriterAnswer
  | .put record => do
    let answer ← put record
    pure (.stored answer)
  | .evictExpired pass now => do
    let total ← evictExpired pass now
    pure (.evicted total)

abbrev Writers (ι : Type) (shardCount : Nat) :=
  Running ι (ShardAccess shardCount) DhtPanic WriterAnswer (ArcSwapDht shardCount)

abbrev WriterMoment (ι : Type) (shardCount : Nat) := Moment ι Unit (ShardAccess shardCount)

def starting (shardCount : Nat) (calls : ι → WriterCall) : Writers ι shardCount :=
  ⟨fun run => perform (calls run), withShardCount shardCount⟩

def WasPut (calls : ι → WriterCall) (record : AgentRecord) : Prop := ∃ run, calls run = .put record

def Unexpired (calls : ι → WriterCall) : Prop :=
  ∀ record run pass now, WasPut calls record → calls run = .evictExpired pass now →
    record.isExpired now = false

def Roomy (calls : ι → WriterCall) (before : Writers ι shardCount) (moment : WriterMoment ι shardCount) : Prop :=
  ∀ record shard, calls moment.run = .put record → moment.event.call = .load shard →
    record.agentId ∈ (before.shared.shards shard).records ∨
      (before.shared.shards shard).len < maxPerShard shardCount

def Undisturbed (before : Writers ι shardCount) (moment : WriterMoment ι shardCount) : Prop :=
  ∀ shard current newSnapshot, moment.event.call = .store shard current newSnapshot →
    before.shared.shards shard = current

/-- The agent has a record that is not older. -/
def Covers (dht : ArcSwapDht shardCount) (record : AgentRecord) : Prop :=
  ∃ stored, dht.getById record.agentId = .ok (some stored) ∧ record.createdAt ≤ stored.createdAt

/-- What can be left of a call. An eviction that finds nothing expired only loads. -/
inductive Stage (dht : ArcSwapDht shardCount) : WriterCall → Access shardCount WriterAnswer → Prop where
  | loading : Stage dht (.put record) (perform (.put record))
  | storing (home : shardIndex shardCount record.agentId = .ok shard)
      (built : current.withRecord (maxPerShard shardCount) record = some newSnapshot) :
      Stage dht (.put record) (.ask (.store shard current newSnapshot) fun _ => .done (.ok (.stored true)))
  | answered (covered : dht.Covers record) : Stage dht (.put record) (.done (.ok (.stored answer)))
  | scanning (pass : RecordOrder) (now : UInt64) (left : List (Fin shardCount))
      (total : Nat) : Stage dht (.evictExpired pass now) (eviction pass now left total)

/-- Records of agents are replaced by records that are not older. -/
def Advances (before after : ArcSwapDht shardCount) : Prop :=
  ∀ record, before.Covers record → after.Covers record

theorem Stage.advance (stage : Stage before call program)
    (advances : Advances before after) : Stage after call program := by
  cases stage with
  | loading => exact .loading
  | storing home built => exact .storing home built
  | answered covered => exact .answered (advances _ covered)
  | scanning pass now left total => exact .scanning pass now left total

structure Coherent (calls : ι → WriterCall) (writers : Writers ι shardCount) : Prop where
  stages : ∀ run, Stage writers.shared (calls run) (writers.programs run)
  wasPut : ∀ shard agentId record, (writers.shared.shards shard).getById agentId = some record →
    WasPut calls record

theorem starting_coherent (calls : ι → WriterCall) : Coherent calls (starting shardCount calls) where
  stages run := by
    change Stage _ (calls run) (perform (calls run))
    cases calls run with
    | put record => exact .loading
    | evictExpired pass now => exact .scanning pass now (List.finRange shardCount) 0
  wasPut shard agentId record found := by
    cases found

theorem covers_replace (home : shardIndex shardCount record.agentId = .ok shard)
    (built : (dht.shards shard).withRecord limit record = some newSnapshot) :
    (dht.replace shard newSnapshot).Covers record ∧ Advances dht (dht.replace shard newSnapshot) := by
  obtain ⟨records, older⟩ := withRecord_eq_some built
  have found := getById_replace home records
  constructor
  · exact ⟨record, by rw [found, if_pos rfl], UInt64.le_refl _⟩
  · intro other covered
    obtain ⟨stored, there, notOlder⟩ := covered
    by_cases same : other.agentId = record.agentId
    · -- the record that covered the other one gives way to one that is not older
      refine ⟨record, by rw [found, if_pos same], UInt64.le_trans notOlder (older stored ?_)⟩
      obtain ⟨place, index, holds⟩ := getById_eq_ok_iff.mp there
      rw [same, home] at index
      cases index
      rw [← same, holds]
    · exact ⟨stored, by rw [found, if_neg same, there], notOlder⟩

def loaded (shard : Fin shardCount) (record : AgentRecord) (current : DhtShardSnapshot) :
    Access shardCount WriterAnswer :=
  match current.withRecord (maxPerShard shardCount) record with
  | none => .done (.ok (.stored false))
  | some newSnapshot =>
    .ask (.store shard current newSnapshot : ShardCall shardCount) fun _ => .done (.ok (.stored true))

theorem perform_put (home : shardIndex shardCount record.agentId = .ok shard) :
    perform (.put record) = .ask (.load shard : ShardCall shardCount) (loaded shard record) := by
  simp only [perform, put, home]
  change Program.ask _ _ = _
  congr 1
  funext current
  dsimp only [Program.bind, loaded]
  cases withRecord current (maxPerShard shardCount) record with
  | none => rfl
  | some newSnapshot => rfl

theorem perform_put_panics (home : shardIndex shardCount record.agentId = .error cause) :
    perform (.put record) = (.done (.error cause) : Access shardCount WriterAnswer) := by
  simp only [perform, put, home]
  rfl

theorem eviction_cons (pass : RecordOrder) (now : UInt64) (shard : Fin shardCount)
    (left : List (Fin shardCount)) (total : Nat) :
    ∃ next, eviction pass now (shard :: left) total = .ask (.load shard : ShardCall shardCount) next ∧
      ∀ current, (CapabilityDht.evictExpired current pass now).1 = 0 →
        next current = eviction pass now left total := by
  refine ⟨_, rfl, ?_⟩
  intro current nothing
  dsimp only [Program.bind]
  simp only [nothing]
  rfl

theorem stage_loaded (home : shardIndex shardCount record.agentId = .ok shard)
    (room : record.agentId ∈ (dht.shards shard).records ∨
      (dht.shards shard).len < maxPerShard shardCount) :
    Stage dht (.put record) (loaded shard record (dht.shards shard)) := by
  unfold loaded
  split
  next refused =>
    rcases newer_or_full refused with ⟨existing, found, newer⟩ | ⟨full, absent⟩
    · exact .answered ⟨existing, getById_eq_ok_iff.mpr ⟨shard, home, found⟩, UInt64.le_of_lt newer⟩
    · rcases room with present | below
      · exact absurd present absent
      · exact absurd full (Nat.not_le.mpr below)
  next newSnapshot built => exact .storing home built

theorem wasPut_replace {dht : ArcSwapDht shardCount} (putting : WasPut calls record)
    (each : ∀ shard agentId record, (dht.shards shard).getById agentId = some record → WasPut calls record)
    (built : (dht.shards shard).withRecord limit record = some newSnapshot) :
    ∀ place agentId found, ((dht.replace shard newSnapshot).shards place).getById agentId = some found →
      WasPut calls found := by
  intro place agentId found there
  by_cases same : place = shard
  · subst same
    rw [shards_replace, CapabilityDht.getById, (withRecord_eq_some built).1] at there
    exact forall_lookup_insert (each place) putting agentId found there
  · rw [shards_replace_of_ne same] at there
    exact each place agentId found there

section Steps

variable [DecidableEq ι] {calls : ι → WriterCall} {before after : Writers ι shardCount}
  {moment : WriterMoment ι shardCount}

theorem Coherent.of_step (coherent : Coherent calls before) (taken : before.Step serve moment after)
    (advances : Advances before.shared after.shared)
    (own : Stage after.shared (calls moment.run) (after.programs moment.run))
    (wasPut : ∀ shard agentId record, (after.shared.shards shard).getById agentId = some record →
      WasPut calls record) : Coherent calls after where
  wasPut := wasPut
  stages run := by
    by_cases same : run = moment.run
    · rw [same]
      exact own
    · rw [taken.other same]
      exact (coherent.stages run).advance advances

theorem Coherent.of_load (coherent : Coherent calls before) (taken : before.Step serve moment after)
    (unchanged : after.shared = before.shared)
    (own : Stage before.shared (calls moment.run) (after.programs moment.run)) : Coherent calls after := by
  apply coherent.of_step taken
  · rw [unchanged]
    exact fun _ covered => covered
  · rw [unchanged]
    exact own
  · rw [unchanged]
    exact coherent.wasPut

theorem Coherent.step (coherent : Coherent calls before) (unexpired : Unexpired calls)
    (taken : before.Step serve moment after) (roomy : Roomy calls before moment)
    (undisturbed : Undisturbed before moment) : Coherent calls after := by
  obtain ⟨run, reading, request, answer⟩ := moment
  obtain ⟨next, asks, moved⟩ := taken.own
  have served := taken.served
  have stage := coherent.stages run
  rw [asks] at stage
  generalize asked : calls run = call at stage
  generalize left : Program.ask request next = program at stage
  cases stage with
  | @loading record =>
    cases home : shardIndex shardCount record.agentId with
    | error cause =>
      rw [perform_put_panics home] at left
      cases left
    | ok shard =>
      rw [perform_put home] at left
      cases left
      obtain ⟨current, unchanged⟩ := serve_load served
      apply coherent.of_load taken unchanged
      rw [asked, moved, current]
      exact stage_loaded home (roomy record shard asked rfl)
  | storing home built =>
    cases left
    cases undisturbed _ _ _ rfl
    have replaced := Option.some.inj served
    obtain ⟨covered, advances⟩ := covers_replace home built
    rw [replaced] at covered advances
    apply coherent.of_step taken advances
    · rw [asked, moved]
      exact .answered covered
    · rw [← replaced]
      exact wasPut_replace ⟨run, asked⟩ coherent.wasPut built
  | answered covered => cases left
  | scanning pass now remaining total =>
    cases remaining with
    | nil => cases left
    | cons shard remaining =>
      obtain ⟨further, same, goesOn⟩ := eviction_cons pass now shard remaining total
      rw [same] at left
      cases left
      obtain ⟨current, unchanged⟩ := serve_load served
      apply coherent.of_load taken unchanged
      rw [asked, moved, current, goesOn]
      · exact .scanning pass now remaining total
      · apply CapabilityDht.evictExpired_of_none_expired
        intro agentId record found
        exact unexpired record run pass now (coherent.wasPut shard agentId record found) asked

end Steps

theorem Coherent.covers {writers : Writers ι shardCount}
    (coherent : Coherent calls writers) (asked : calls run = .put record)
    (ended : writers.programs run = .done result) :
    writers.shared.Covers record ∨
      ∃ cause, shardIndex shardCount record.agentId = .error cause ∧ result = .error cause := by
  have stage := coherent.stages run
  rw [asked, ended] at stage
  generalize left : Program.done result = program at stage
  cases stage with
  | loading =>
    right
    cases home : shardIndex shardCount record.agentId with
    | error cause =>
      rw [perform_put_panics home] at left
      cases left
      exact ⟨cause, rfl, rfl⟩
    | ok shard =>
      rw [perform_put home] at left
      cases left
  | storing home built => cases left
  | answered covered => exact .inl covered

/-- Each agent with an accepted put is found, with a newest of the records put for it. -/
def KeepsNewest (calls : ι → WriterCall) (writers : Writers ι shardCount) : Prop :=
  ∀ run record, calls run = .put record → writers.programs run = .done (.ok (.stored true)) →
    ∃ kept, writers.shared.getById record.agentId = .ok (some kept) ∧
      WasPut calls kept ∧ kept.agentId = record.agentId ∧
      ∀ other, WasPut calls other → other.agentId = record.agentId → other.createdAt ≤ kept.createdAt

/-- No record is lost if every store replaces the snapshot that its call has loaded. -/
theorem loses_no_record [DecidableEq ι] {calls : ι → WriterCall} {final : Writers ι shardCount}
    (unexpired : Unexpired calls)
    (run : Interleaves serve (fun before moment => Roomy calls before moment ∧ Undisturbed before moment)
      (starting shardCount calls) log final)
    (finished : ∀ call, ∃ result, final.programs call = .done result) : KeepsNewest calls final := by
  have coherent : Coherent calls final := by
    apply run.invariant _ (starting_coherent calls)
    intro before moment after _ permitted taken coherent
    exact coherent.step unexpired taken permitted.1 permitted.2
  intro putting record asked accepted
  rcases coherent.covers asked accepted with covered | ⟨cause, -, failed⟩
  · obtain ⟨kept, found, -⟩ := covered
    obtain ⟨shard, home, there⟩ := getById_eq_ok_iff.mp found
    refine ⟨kept, found, coherent.wasPut _ _ _ there, (final.shared.shards shard).keyed _ _ there, ?_⟩
    rintro other ⟨caller, putting⟩ same
    obtain ⟨result, ended⟩ := finished caller
    rcases coherent.covers putting ended with ⟨stored, holds, notOlder⟩ | ⟨cause, homeless, -⟩
    · -- both look at the one record of the agent
      rw [same, found] at holds
      cases holds
      exact notOlder
    · rw [same, home] at homeless
      cases homeless
  · cases failed

theorem serve_current (dht : ArcSwapDht shardCount) (shard : Fin shardCount) :
    serve () ⟨.load shard, dht.shards shard⟩ dht = some dht := by
  simp [serve]

theorem serve_store (dht : ArcSwapDht shardCount) (shard : Fin shardCount) (current newSnapshot : DhtShardSnapshot) :
    serve () ⟨.store shard current newSnapshot, ()⟩ dht = some (dht.replace shard newSnapshot) :=
  rfl

theorem roomy_of_store (stores : moment.event.call = .store shard current newSnapshot) :
    Roomy calls before moment := by
  intro record place _ loads
  rw [stores] at loads
  cases loads

theorem undisturbed_of_load (loads : moment.event.call = .load shard) : Undisturbed before moment := by
  intro place current newSnapshot stores
  rw [loads] at stores
  cases stores

/-- A record without capabilities, of an agent whose id ends in a given byte. -/
def announced (last : UInt8) : AgentRecord where
  recordType := recordTypeV1
  agentId := ⟨List.replicate 31 0 ++ [last], rfl⟩
  publicKey := []
  capabilities := []
  endpoints := []
  createdAt := 5
  expiresAt := 100
  signature := []
  keyAlgorithm := 1
  recordVersion := 1
  extensions := []

def putAndEviction (evicts : Bool) : WriterCall := if evicts then .evictExpired .inOrder 7 else .put (announced 1)

theorem putAndEviction_unexpired : Unexpired putAndEviction := by
  intro record run pass now putting evicting
  obtain ⟨other, asked⟩ := putting
  cases run <;> cases evicting
  cases other <;> cases asked
  decide

theorem loses_no_record_beside_eviction :
    ∃ log final, Interleaves serve
        (fun before moment => Roomy putAndEviction before moment ∧ Undisturbed before moment)
        (starting 1 putAndEviction) log final ∧
      final.programs false = .done (.ok (.stored true)) ∧ KeepsNewest putAndEviction final := by
  have room : 0 < maxPerShard 1 := by decide
  have run : ∃ log final, Interleaves serve
      (fun before moment => Roomy putAndEviction before moment ∧ Undisturbed before moment)
      (starting 1 putAndEviction) log final ∧ final.programs false = .done (.ok (.stored true)) ∧
      final.programs true = .done (.ok (.evicted 0)) := by
    refine ⟨_, _,
      .turn false rfl (serve_current _ 0) ⟨fun _ _ _ _ => .inr room, undisturbed_of_load rfl⟩ <|
      .turn false rfl (serve_store ..) ⟨roomy_of_store rfl, ?_⟩ <|
      .turn true rfl (serve_current _ 0) ⟨?_, undisturbed_of_load rfl⟩ .idle, rfl, rfl⟩
    · intro shard current newSnapshot same
      cases same
      rfl
    · intro record shard asked _
      cases asked
  obtain ⟨log, final, taken, accepted, evicted⟩ := run
  refine ⟨log, final, taken, accepted, loses_no_record putAndEviction_unexpired taken ?_⟩
  intro call
  cases call with
  | false => exact ⟨_, accepted⟩
  | true => exact ⟨_, evicted⟩

/-- Two agents of one shard of the default table. -/
theorem racing_put_lost :
    ∃ (calls : Bool → WriterCall) (log : List (WriterMoment Bool dhtShardCount))
      (final : Writers Bool dhtShardCount), Unexpired calls ∧
      Interleaves serve (Roomy calls) (starting dhtShardCount calls) log final ∧
      (∀ call, ∃ result, final.programs call = .done result) ∧ ¬ KeepsNewest calls final := by
  have room : 0 < maxPerShard dhtShardCount := by decide
  -- both have loaded the empty shard when the first one stores its snapshot
  refine ⟨fun late => .put (announced (if late then 2 else 1)), _, _, ?_,
    .turn false rfl (serve_current _ ⟨0, by decide⟩) (fun _ _ _ _ => .inr room) <|
    .turn true rfl (serve_current _ ⟨0, by decide⟩) (fun _ _ _ _ => .inr room) <|
    .turn false rfl (serve_store ..) (roomy_of_store rfl) <|
    .turn true rfl (serve_store ..) (roomy_of_store rfl) .idle, ?_, ?_⟩
  · intro record call pass now _ evicting
    cases evicting
  · intro call
    cases call <;> exact ⟨_, rfl⟩
  · intro keeps
    obtain ⟨kept, found, -⟩ := keeps false (announced 1) rfl rfl
    cases found

end ArcSwapDht

end Aafp.Discovery
