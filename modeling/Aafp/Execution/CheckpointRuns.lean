import Aafp.Execution.CheckpointManager

/-! Runs of saves. -/
namespace Aafp.Execution

open Foundation Cbor Crypto FileName List AList

namespace CheckpointManager

inductive Call where
  | saveRaw (checkpoint : Checkpoint)
  | saveCheckpoint (plan : ExecutionPlan) (now : UInt64)

inductive Answer where
  | saved (result : Except SdkError Unit)
  | savedPlan (result : Except SdkError PlanId)

def machine : Machine Call Answer CheckpointManager where
  step manager
    | .saveRaw checkpoint => ((manager.saveRaw checkpoint).map .saved fun after => after)
    | .saveCheckpoint plan now => ((manager.saveCheckpoint plan now).map .savedPlan fun after => after)

def Call.saved : Call → Checkpoint
  | saveRaw checkpoint => checkpoint
  | saveCheckpoint plan now => .fromPlan plan now

def saves (past : List (Call × Answer)) : List Checkpoint := past.map fun entry => entry.1.saved

theorem saves_concat (past : List (Call × Answer)) (entry : Call × Answer) :
    saves (past ++ [entry]) = saves past ++ [entry.1.saved] := by
  simp [saves]

theorem step_eq (manager : CheckpointManager) (call : Call) :
    (machine.step manager call).2 = (manager.saveRaw call.saved).2 := by
  cases call <;> rfl

/-- The latest checkpoint of each plan is restored, whatever the orders of the two listings. -/
def RestoresLatest (saved : List Checkpoint) (manager : CheckpointManager) : Prop :=
  ∀ planId listing finding, manager.restoreCheckpoint listing finding planId =
    .ok (lastWith Checkpoint.planId planId saved)

def TimeOrdered (saved : List Checkpoint) : Prop :=
  Ordered Checkpoint.planId (fun earlier later => earlier.createdAt ≤ later.createdAt) saved

/-- The files of the plan and second of a checkpoint that is about to be saved hold this checkpoint.
-/
def FreshTime (manager : CheckpointManager) (checkpoint : Checkpoint) : Prop :=
  ∀ seq content, checkpointPath checkpoint.planId checkpoint.createdAt seq ≠
      checkpointPath checkpoint.planId checkpoint.createdAt manager.saveCounter →
    manager.directory.lookup (checkpointPath checkpoint.planId checkpoint.createdAt seq) = some content →
    content = checkpoint.bytes

/-- Each file is one of the saved checkpoints, and the latest one of each plan is there. -/
structure Stores (saved : List Checkpoint) (directory : Directory) : Prop where
  written : ∀ name content, directory.lookup name = some content →
    ∃ checkpoint ∈ saved, ∃ seq,
      name = checkpointPath checkpoint.planId checkpoint.createdAt seq ∧ content = checkpoint.bytes
  latest : ∀ planId checkpoint, lastWith Checkpoint.planId planId saved = some checkpoint →
    ∃ seq, directory.lookup (checkpointPath planId checkpoint.createdAt seq) = some checkpoint.bytes

/-- The files of a plan that have the time of its latest checkpoint hold this checkpoint. -/
def LatestAlone (saved : List Checkpoint) (directory : Directory) : Prop :=
  ∀ planId checkpoint, lastWith Checkpoint.planId planId saved = some checkpoint → ∀ seq content,
    directory.lookup (checkpointPath planId checkpoint.createdAt seq) = some content →
      content = checkpoint.bytes

variable {manager : CheckpointManager} {checkpoint : Checkpoint} {saved : List Checkpoint}
variable {content : List UInt8}

theorem lookup_saveRaw (named : extension name = some ckpt) :
    (manager.saveRaw checkpoint).2.directory.lookup name = some content ↔
      (checkpointPath checkpoint.planId checkpoint.createdAt manager.saveCounter = name ∧
        checkpoint.bytes = content) ∨
      (checkpointPath checkpoint.planId checkpoint.createdAt manager.saveCounter ≠ name ∧
        manager.directory.lookup name = some content) := by
  have other := tmp_ne_of_extension
    (checkpointPath checkpoint.planId checkpoint.createdAt manager.saveCounter) named
  simp only [saveRaw, Checkpoint.toBytes_eq, Directory.rename, lookup_insert]
  rw [lookup_insert_eq_some, lookup_erase_ne other.symm, lookup_insert_ne other.symm]

theorem extension_of_lookup_saveRaw (stores : Stores saved manager.directory)
    (found : (manager.saveRaw checkpoint).2.directory.lookup name = some content) : extension name = some ckpt := by
  simp only [saveRaw, Checkpoint.toBytes_eq, Directory.rename, lookup_insert] at found
  rcases lookup_insert_eq_some.mp found with ⟨rfl, -⟩ | ⟨-, kept⟩
  · exact extension_checkpointPath
  · by_cases temporary : name = withExtension
      (checkpointPath checkpoint.planId checkpoint.createdAt manager.saveCounter) ['t', 'm', 'p']
    · rw [temporary, lookup_erase] at kept
      cases kept
    · rw [lookup_erase_ne temporary, lookup_insert_ne temporary] at kept
      obtain ⟨earlier, -, seq, rfl, -⟩ := stores.written name content kept
      exact extension_checkpointPath

theorem stores_empty : Stores [] ∅ := ⟨forall_lookup_empty, nofun⟩

theorem stores_saveRaw (stores : Stores saved manager.directory) :
    Stores (saved ++ [checkpoint]) (manager.saveRaw checkpoint).2.directory := by
  constructor
  · intro name content found
    rcases (lookup_saveRaw (extension_of_lookup_saveRaw stores found)).mp found with ⟨rfl, rfl⟩ | ⟨-, kept⟩
    · exact ⟨checkpoint, by simp, manager.saveCounter, rfl, rfl⟩
    · obtain ⟨earlier, mem, written⟩ := stores.written name content kept
      exact ⟨earlier, mem_append_left _ mem, written⟩
  · intro planId latest last
    rw [lastWith_concat] at last
    split at last
    next same =>
      cases last
      subst same
      exact ⟨manager.saveCounter, (lookup_saveRaw extension_checkpointPath).mpr (.inl ⟨rfl, rfl⟩)⟩
    next different =>
      obtain ⟨seq, found⟩ := stores.latest planId latest last
      refine ⟨seq, (lookup_saveRaw extension_checkpointPath).mpr (.inr ⟨?_, found⟩)⟩
      exact fun same => different (plan_eq_of_checkpointPath_eq same)

theorem latestAlone_saveRaw_iff (alone : LatestAlone saved manager.directory) :
    LatestAlone (saved ++ [checkpoint]) (manager.saveRaw checkpoint).2.directory ↔
      manager.FreshTime checkpoint := by
  constructor
  · intro after seq content different found
    refine after checkpoint.planId checkpoint ?_ seq content ?_
    · rw [lastWith_concat, if_pos rfl]
    · exact (lookup_saveRaw extension_checkpointPath).mpr (.inr ⟨different.symm, found⟩)
  · intro fresh planId latest last seq content found
    rw [lookup_saveRaw extension_checkpointPath] at found
    rw [lastWith_concat] at last
    split at last
    next same =>
      cases last
      subst same
      rcases found with ⟨-, same⟩ | ⟨different, kept⟩
      · exact same.symm
      · exact fresh seq content different.symm kept
    next different =>
      rcases found with ⟨same, -⟩ | ⟨-, kept⟩
      · exact absurd (plan_eq_of_checkpointPath_eq same) different
      · exact alone planId latest last seq content kept

variable {planId : PlanId} {listing finding : IterationOrder FileName (List UInt8)}

theorem mem_timestamps : timestamp ∈ (manager.listCheckpointsForPlan listing planId).map Prod.fst ↔
      ∃ name content, manager.directory.lookup name = some content ∧ timestampFor planId name = some timestamp := by
  simp only [listCheckpointsForPlan, mem_map, mem_sortBy, mem_filterMap, Aafp.Foundation.mem_iterate,
    Option.map_eq_some_iff, Sigma.exists]
  constructor
  · rintro ⟨-, ⟨name, content, found, time, parsed, rfl⟩, rfl⟩
    exact ⟨name, content, found, parsed⟩
  · rintro ⟨name, content, found, parsed⟩
    exact ⟨(timestamp, name), ⟨name, content, found, timestamp, parsed, rfl⟩, rfl⟩

theorem saved_of_timestamp (stores : Stores saved manager.directory)
    (listed : timestamp ∈ (manager.listCheckpointsForPlan listing planId).map Prod.fst) :
    ∃ checkpoint ∈ saved, checkpoint.planId = planId ∧ checkpoint.createdAt = timestamp := by
  obtain ⟨name, content, found, parsed⟩ := mem_timestamps.mp listed
  obtain ⟨checkpoint, mem, seq, rfl, -⟩ := stores.written name content found
  rw [timestampFor_checkpointPath, Option.ite_none_right_eq_some] at parsed
  exact ⟨checkpoint, mem, parsed.1, Option.some.inj parsed.2⟩

theorem restoreCheckpoint_of_none (stores : Stores saved manager.directory)
    (unsaved : lastWith Checkpoint.planId planId saved = none) :
    manager.restoreCheckpoint listing finding planId = .ok none := by
  have empty : (manager.listCheckpointsForPlan listing planId).map Prod.fst = [] := by
    rw [eq_nil_iff_forall_not_mem]
    intro timestamp listed
    obtain ⟨checkpoint, mem, same, -⟩ := saved_of_timestamp stores listed
    have found := find?_eq_none.mp unsaved checkpoint (mem_reverse.mpr mem)
    simp [same] at found
  rw [restoreCheckpoint, empty]
  rfl

theorem createdAt_le_of_last (ordered : TimeOrdered saved)
    (last : lastWith Checkpoint.planId planId saved = some checkpoint)
    (mem : earlier ∈ saved) (same : earlier.planId = planId) : earlier.createdAt ≤ checkpoint.createdAt := by
  obtain ⟨newest, found, position⟩ := lastWith_of_mem mem ordered
  rw [same, last] at found
  cases found
  rcases position with rfl | before
  · exact UInt64.le_refl _
  · exact before

section

variable (stores : Stores saved manager.directory) (ordered : TimeOrdered saved)
  (last : lastWith Checkpoint.planId planId saved = some checkpoint)
include stores ordered last

theorem max?_timestamps :
    ((manager.listCheckpointsForPlan listing planId).map Prod.fst).max? = some checkpoint.createdAt := by
  rw [max?_eq_some_iff]
  constructor
  · obtain ⟨seq, found⟩ := stores.latest planId checkpoint last
    refine mem_timestamps.mpr ⟨_, _, found, ?_⟩
    rw [timestampFor_checkpointPath, if_pos rfl]
  · intro timestamp listed
    obtain ⟨earlier, mem, same, rfl⟩ := saved_of_timestamp stores listed
    exact createdAt_le_of_last ordered last mem same

theorem findCheckpointPath_sound : ∃ seq content,
      manager.findCheckpointPath finding planId checkpoint.createdAt =
        some (checkpointPath planId checkpoint.createdAt seq) ∧
      manager.directory.lookup (checkpointPath planId checkpoint.createdAt seq) = some content := by
  obtain ⟨stored, there⟩ := stores.latest planId checkpoint last
  obtain ⟨file, first⟩ : ∃ file, (finding.iterate manager.directory).find?
      (fun file => startsLike planId checkpoint.createdAt file.1) = some file := by
    apply Option.isSome_iff_exists.mp
    rw [find?_isSome]
    exact ⟨⟨_, _⟩, mem_iterate.mpr there, startsLike_self⟩
  have inside := mem_iterate.mp (mem_of_find?_eq_some first)
  obtain ⟨written, mem, seq, named, -⟩ := stores.written file.1 file.2 inside
  have starts : startsLike planId checkpoint.createdAt file.1 := by simpa using find?_some first
  rw [named] at starts
  obtain ⟨same, later⟩ := startsLike_checkpointPath starts
  -- the time of the file is not later either, since it is listed
  have sameTime : written.createdAt = checkpoint.createdAt :=
    UInt64.le_antisymm (createdAt_le_of_last ordered last mem same) later
  rw [same, sameTime] at named
  refine ⟨seq, file.2, ?_, ?_⟩
  · rw [findCheckpointPath, first, Option.map_some, named]
  · rw [← named]
    exact inside

end

theorem findCheckpointPath_startingWith
    (found : manager.directory.lookup (checkpointPath planId timestamp seq) = some content) :
    manager.findCheckpointPath (.startingWith ⟨checkpointPath planId timestamp seq, content⟩) planId timestamp =
      some (checkpointPath planId timestamp seq) := by
  have there : ⟨checkpointPath planId timestamp seq, content⟩ ∈ manager.directory.entries :=
    mem_lookup_iff.mp found
  have listed : IterationOrder.iterate (.startingWith ⟨checkpointPath planId timestamp seq, content⟩)
      manager.directory = ⟨checkpointPath planId timestamp seq, content⟩ ::
        manager.directory.entries.erase ⟨checkpointPath planId timestamp seq, content⟩ := if_pos there
  rw [findCheckpointPath, listed, find?_cons_of_pos (by exact startsLike_self)]
  rfl

theorem restoreCheckpoint_of_found
    (greatest : ((manager.listCheckpointsForPlan listing planId).map Prod.fst).max? = some timestamp)
    (first : manager.findCheckpointPath finding planId timestamp = some path)
    (found : manager.directory.lookup path = some content) :
    manager.restoreCheckpoint listing finding planId = (Checkpoint.fromBytes content).map some := by
  rw [restoreCheckpoint, greatest]
  simp only [first, read, found, ok_bind]
  cases Checkpoint.fromBytes content <;> rfl

theorem restoresLatest_iff (stores : Stores saved manager.directory) (ordered : TimeOrdered saved)
    (bounded : ∀ checkpoint ∈ saved, checkpoint.bytes.length ≤ isizeMax) :
    RestoresLatest saved manager ↔ LatestAlone saved manager.directory := by
  constructor
  · intro restores planId checkpoint last seq content found
    have restored := restores planId .inOrder
      (.startingWith ⟨checkpointPath planId checkpoint.createdAt seq, content⟩)
    rw [restoreCheckpoint_of_found (max?_timestamps stores ordered last)
      (findCheckpointPath_startingWith found) found, last] at restored
    obtain ⟨written, mem, -, -, same⟩ := stores.written _ content found
    rw [same, Checkpoint.fromBytes_bytes (bounded written mem)] at restored
    cases restored
    exact same
  · intro alone planId listing finding
    cases last : lastWith Checkpoint.planId planId saved with
    | none => exact restoreCheckpoint_of_none stores last
    | some checkpoint =>
      obtain ⟨seq, content, first, found⟩ := findCheckpointPath_sound stores ordered last
      rw [restoreCheckpoint_of_found (max?_timestamps stores ordered last) first found,
        alone planId checkpoint last seq content found,
        Checkpoint.fromBytes_bytes (bounded checkpoint (mem_of_lastWith last).1)]
      rfl

/-- The saves are in the order of their times, and no file is larger than a buffer can be. -/
def Proper (past : List (Call × Answer)) : Prop :=
  TimeOrdered (saves past) ∧ ∀ checkpoint ∈ saves past, checkpoint.bytes.length ≤ isizeMax

theorem proper_of_concat (proper : Proper (past ++ [entry])) : Proper past := by
  obtain ⟨ordered, bounded⟩ := proper
  rw [saves_concat] at ordered bounded
  exact ⟨(pairwise_append.mp ordered).1, fun checkpoint mem =>
    bounded checkpoint (mem_append_left _ mem)⟩

theorem saves_log (start : CheckpointManager) (calls : List Call) :
    saves (machine.log start calls) = calls.map Call.saved := by
  have same := congrArg (map Call.saved) (@Machine.map_fst_log _ _ _ machine start calls)
  rwa [map_map] at same

theorem stores_run (retention : RetentionConfig) (calls : List Call) :
    Stores (calls.map Call.saved) (machine.after (.new retention) calls).directory := by
  rw [← saves_log (.new retention)]
  refine @Machine.invariant _ _ _ machine (.new retention) (fun past manager => Stores (saves past) manager.directory)
    stores_empty (fun past manager call stores => ?_) calls
  rw [saves_concat, step_eq]
  exact stores_saveRaw stores

/-- The latest checkpoint of each plan is restored at all times exactly if each save finds no other
checkpoint of its plan and second. -/
theorem restoresLatest_throughout_iff (retention : RetentionConfig) (calls : List Call)
    (ordered : TimeOrdered (calls.map Call.saved)) (bounded : ∀ call ∈ calls, call.saved.bytes.length ≤ isizeMax) :
    machine.Throughout (.new retention) (fun past manager => RestoresLatest (saves past) manager) calls ↔
      machine.Meets (.new retention) (fun _ manager call => manager.FreshTime call.saved) calls := by
  apply @Machine.throughout_iff_meets_carrying _ _ _ machine (.new retention)
    (fun past manager => Stores (saves past) manager.directory) _ _ Proper
  · exact fun _ _ => proper_of_concat
  · exact stores_empty
  · intro planId listing finding
    exact restoreCheckpoint_of_none stores_empty rfl
  · intro past manager call _ stores _
    rw [saves_concat, step_eq]
    exact stores_saveRaw stores
  · intro past manager call proper stores restores
    have before := proper_of_concat proper
    rw [restoresLatest_iff stores before.1 before.2] at restores
    rw [Proper, saves_concat] at proper
    rw [saves_concat, step_eq, restoresLatest_iff (stores_saveRaw stores) proper.1 proper.2]
    exact latestAlone_saveRaw_iff restores
  · rw [Proper, saves_log]
    exact ⟨ordered, forall_mem_map.mpr bounded⟩

def sampleCheckpoint (completedTasks : List (TaskId × TaskStatus)) (createdAt : UInt64) : Checkpoint :=
  ⟨.filled 0, completedTasks, createdAt, checkpointVersion⟩

def spacedCalls : List Call :=
  [.saveRaw (sampleCheckpoint [] 1), .saveRaw (sampleCheckpoint [(.filled 1, .cancelled)] 2)]

theorem spacedCalls_restore_latest :
    machine.Throughout (.new {}) (fun past manager => RestoresLatest (saves past) manager) spacedCalls := by
  refine (restoresLatest_throughout_iff {} spacedCalls ?_ ?_).mpr ?_
  · exact pairwise_pair.mpr fun _ => by decide
  · decide +kernel
  · change machine.Meets (.new {}) _ ([.saveRaw (sampleCheckpoint [] 1)] ++ [_])
    rw [Machine.meets_concat, ← nil_append [Call.saveRaw _], Machine.meets_concat]
    refine ⟨⟨Machine.meets_nil, fun _ _ _ => nofun⟩, ?_⟩
    intro seq content _ found
    rcases (lookup_saveRaw extension_checkpointPath).mp found with ⟨same, -⟩ | ⟨-, kept⟩
    · have times := congrArg (timestampFor (.filled 0)) same
      rw [timestampFor_checkpointPath, timestampFor_checkpointPath] at times
      exact absurd times (by decide)
    · cases kept

def tiedCalls : List Call :=
  [.saveRaw (sampleCheckpoint [] 1), .saveRaw (sampleCheckpoint [(.filled 1, .cancelled)] 1)]

/-- The first one is restored if it is listed first. -/
theorem tiedCalls_not_latest :
    TimeOrdered (tiedCalls.map Call.saved) ∧ (∀ call ∈ tiedCalls, call.saved.bytes.length ≤ isizeMax) ∧
      ¬ machine.Throughout (.new {}) (fun past manager => RestoresLatest (saves past) manager) tiedCalls := by
  have ordered : TimeOrdered (tiedCalls.map Call.saved) := pairwise_pair.mpr fun _ => by decide
  have bounded : ∀ call ∈ tiedCalls, call.saved.bytes.length ≤ isizeMax := by decide +kernel
  refine ⟨ordered, bounded, ?_⟩
  intro restores
  have last : RestoresLatest (saves (machine.log (.new {}) tiedCalls)) (machine.after (.new {}) tiedCalls) :=
    restores tiedCalls (prefix_refl _)
  rw [saves_log, restoresLatest_iff (stores_run {} tiedCalls) ordered (forall_mem_map.mpr bounded)] at last
  -- the file of the first one is still there
  have kept : (machine.after (.new {}) tiedCalls).directory.lookup (checkpointPath (.filled 0) 1 0) =
      some (sampleCheckpoint [] 1).bytes := by
    apply (lookup_saveRaw extension_checkpointPath).mpr
    exact .inr ⟨by decide +kernel, (lookup_saveRaw extension_checkpointPath).mpr (.inl ⟨rfl, rfl⟩)⟩
  exact absurd (last (.filled 0) _ rfl 0 _ kept) (by decide +kernel)

def DeletesOne (manager : CheckpointManager) (planId : PlanId) (timestamp : UInt64) : Prop :=
  ∀ name, (manager.deleteCheckpoint planId timestamp).directory.lookup name =
    if timestampFor planId name = some timestamp then none else manager.directory.lookup name

/-- A deletion is exact unless the plan has a file whose time begins with the digits of the deleted
one. -/
theorem deletesOne_iff (retention : RetentionConfig) (calls : List Call) (planId : PlanId) (timestamp : UInt64) :
    (machine.after (.new retention) calls).DeletesOne planId timestamp ↔
      ∀ later seq, checkpointPath planId later seq ∈ (machine.after (.new retention) calls).directory →
        decimal timestamp <+: decimal later → later = timestamp := by
  have stores := stores_run retention calls
  generalize machine.after (.new retention) calls = manager at stores ⊢
  simp only [DeletesOne, deleteCheckpoint, lookup_eraseAll, mem_filter]
  constructor
  · intro deletes later seq there starts
    have gone := deletes (checkpointPath planId later seq)
    rw [fileStem_checkpointPath, if_pos ⟨there, isPrefixOf_checkpointStem.mpr ⟨rfl, starts⟩⟩,
      timestampFor_checkpointPath, if_pos rfl] at gone
    by_contra different
    rw [if_neg fun same => different (Option.some.inj same)] at gone
    exact lookup_eq_none.mp gone.symm there
  · intro alone name
    cases found : manager.directory.lookup name with
    | none => rw [ite_self, ite_self]
    | some content =>
      obtain ⟨checkpoint, -, seq, rfl, -⟩ := stores.written name content found
      apply if_congr _ rfl rfl
      rw [fileStem_checkpointPath, isPrefixOf_checkpointStem, timestampFor_checkpointPath,
        Option.ite_none_right_eq_some, Option.some.injEq]
      constructor
      · rintro ⟨there, rfl, starts⟩
        exact ⟨rfl, alone _ seq there starts⟩
      · rintro ⟨rfl, rfl⟩
        exact ⟨mem_iff_lookup.mpr ⟨content, found⟩, rfl, prefix_rfl⟩

/-- The deletion of the checkpoint of second 1 takes that of second 10 along. -/
theorem tenth_second_deleted :
    ¬ (machine.after (.new {}) [.saveRaw (sampleCheckpoint [] 1), .saveRaw (sampleCheckpoint [] 10)]).DeletesOne
      (.filled 0) 1 :=
  fun deletes => absurd (deletes (checkpointPath (.filled 0) 10 1)) (by decide +kernel)

end CheckpointManager

end Aafp.Execution
