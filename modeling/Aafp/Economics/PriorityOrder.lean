import Aafp.Economics.Priority
import Aafp.Foundation.Ledger

/-! The order in which a priority queue serves entries of equal score. -/
namespace Aafp.Economics

open Foundation
open List hiding after

namespace PriorityQueue

inductive Call where
  | enqueue (entry : PriorityEntry) (now : UInt64)
  | dequeue (now : UInt64)
  | remove (taskId : String)

inductive Answer where
  | enqueued (result : Option Bool)
  | left (result : Option (Option PriorityEntry))

def answering (wrap : α → Answer) (result : α × PriorityQueue) : Answer × PriorityQueue := (wrap result.1, result.2)

def machine : Machine Call Answer PriorityQueue where
  step queue
    | .enqueue entry now => answering .enqueued (queue.enqueue entry now)
    | .dequeue now => answering .left (queue.dequeue now)
    | .remove taskId => answering .left (queue.remove taskId)

/-- How many entries were enqueued, the tasks that wait with the numbers of their arrivals, and the
numbers of those that were dequeued. -/
structure Arrivals where
  count : Nat
  waiting : List (Nat × String)
  served : List Nat

namespace Arrivals

def numbersOf (arrivals : Arrivals) (taskId : String) : List Nat :=
  (arrivals.waiting.filter fun waiting => waiting.2 = taskId).map Prod.fst

def leave (arrivals : Arrivals) (taskId : String) : Arrivals :=
  { arrivals with waiting := arrivals.waiting.filter fun waiting => waiting.2 ≠ taskId }

def next (arrivals : Arrivals) : Call × Answer → Arrivals
  | (.enqueue entry _, .enqueued (some true)) =>
    { arrivals with
      count := arrivals.count + 1
      waiting := arrivals.waiting ++ [(arrivals.count, entry.taskId)] }
  | (.dequeue _, .left (some (some entry))) =>
    { arrivals.leave entry.taskId with served := arrivals.served ++ arrivals.numbersOf entry.taskId }
  | (.remove _, .left (some (some entry))) => arrivals.leave entry.taskId
  | _ => arrivals

end Arrivals

def arrivals (past : List (Call × Answer)) : Arrivals := past.foldl Arrivals.next ⟨0, [], []⟩

def EqualScores (queue : PriorityQueue) (call : Call) : Prop :=
  ∀ now, call = .dequeue now →
    ∃ score, ∀ entry ∈ queue.entries, entry.effectiveScoreWithAging queue.config now = some score

def ServesEarliest (past : List (Call × Answer)) (queue : PriorityQueue) (call : Call) : Prop :=
  ∀ now, call = .dequeue now →
    (queue.dequeue now).1 = some none ∧ (arrivals past).waiting = [] ∨
      ∃ entry, (queue.dequeue now).1 = some (some entry) ∧
        (arrivals past).waiting.head?.map Prod.snd = some entry.taskId

/-- Entries leave the queue by dequeue in the order in which they were enqueued. -/
structure InOrder (start : PriorityQueue) (calls : List Call) : Prop where
  earliest : machine.Meets start ServesEarliest calls
  increasing : machine.Throughout start (fun past _ => (arrivals past).served.Pairwise (· < ·)) calls

/-- The task that has waited longest is in the first slot when an entry is dequeued. -/
def FirstIsEarliest (past : List (Call × Answer)) (queue : PriorityQueue) (call : Call) : Prop :=
  ∀ now, call = .dequeue now →
    queue.entries.head?.map PriorityEntry.taskId = (arrivals past).waiting.head?.map Prod.snd

structure Indexed (queue : PriorityQueue) : Prop where
  sound : ∀ taskId position, queue.index.lookup taskId = some position →
    queue.entries[position]?.map PriorityEntry.taskId = some taskId
  complete : ∀ entry ∈ queue.entries, entry.taskId ∈ queue.index

section index

variable (queue : PriorityQueue)

theorem mem_positions {entries : List PriorityEntry} {taskId : String} :
    (taskId, position) ∈ positions entries ↔ entries[position]?.map PriorityEntry.taskId = some taskId := by
  simp only [positions, mem_map, Option.map_eq_some_iff, Prod.mk.injEq]
  constructor
  · rintro ⟨⟨entry, place⟩, mem, named, rfl⟩
    exact ⟨entry, mem_zipIdx_iff_getElem?.mp mem, named⟩
  · rintro ⟨entry, found, named⟩
    exact ⟨(entry, position), mem_zipIdx_iff_getElem?.mpr found, named, rfl⟩

theorem rebuildIndex_indexed : queue.rebuildIndex.Indexed where
  sound taskId position found := by
    rw [rebuildIndex, lookup_foldl_insert, Option.map_eq_some_iff] at found
    obtain ⟨⟨named, place⟩, last, same⟩ := found
    obtain ⟨mem, wanted⟩ := mem_of_lastWith last
    cases same
    cases wanted
    exact mem_positions.mp mem
  complete entry mem := by
    obtain ⟨position, found⟩ := mem_iff_getElem?.mp mem
    have listed : (entry.taskId, position) ∈ positions queue.entries :=
      mem_positions.mpr (by rw [show queue.entries[position]? = some entry from found]; rfl)
    obtain ⟨last, there⟩ := exists_lastWith Prod.fst listed
    rw [mem_iff_lookup, rebuildIndex, lookup_foldl_insert, there]
    exact ⟨last.2, rfl⟩

/-- The index is right, unless it is known to be stale. -/
def Maintained : Prop := queue.indexDirty = false → queue.Indexed

variable {queue}

theorem Maintained.ensureIndex (maintained : queue.Maintained) :
    queue.ensureIndex.Indexed ∧ queue.ensureIndex.entries = queue.entries := by
  unfold PriorityQueue.ensureIndex
  split
  · exact ⟨queue.rebuildIndex_indexed, rfl⟩
  next clean => exact ⟨maintained (by simpa using clean), rfl⟩

theorem Indexed.concat (indexed : queue.Indexed) (entry : PriorityEntry) : { queue with
      entries := queue.entries ++ [entry]
      index := queue.index.insert entry.taskId queue.entries.length : PriorityQueue }.Indexed where
  sound := by
    intro taskId position found
    rcases lookup_insert_eq_some.mp found with ⟨rfl, rfl⟩ | ⟨-, before⟩
    · simp
    · have there := indexed.sound taskId position before
      obtain ⟨other, at_, wanted⟩ := Option.map_eq_some_iff.mp there
      have inside := (List.getElem?_eq_some_iff.mp at_).1
      rw [getElem?_append_left inside]
      exact there
  complete := by
    intro other mem
    rw [AList.mem_insert]
    rcases mem_append.mp mem with old | own
    · exact .inr (indexed.complete other old)
    · rw [mem_singleton.mp own]
      exact .inl rfl

end index

inductive Effect (queue after : PriorityQueue) (step : Call × Answer) : Prop where
  | enqueued (entry scored : PriorityEntry) (now : UInt64) (same : step = (.enqueue entry now, .enqueued (some true)))
      (absent : entry.taskId ∉ queue.entries.map PriorityEntry.taskId) (named : scored.taskId = entry.taskId)
      (entries : after.entries = queue.entries ++ [scored])
  | dequeued (now : UInt64) (position : Nat) (entry : PriorityEntry)
      (same : step = (.dequeue now, .left (some (some entry))))
      (taken : swapRemove queue.entries position = some (entry, after.entries))
  | removed (taskId : String) (position : Nat) (entry : PriorityEntry)
      (same : step = (.remove taskId, .left (some (some entry))))
      (taken : swapRemove queue.entries position = some (entry, after.entries))
  | kept (quiet : ∀ arrivals : Arrivals, arrivals.next step = arrivals) (entries : after.entries = queue.entries)

section effects

variable {queue : PriorityQueue}

theorem enqueue_effect (maintained : queue.Maintained) (entry : PriorityEntry) (now : UInt64) :
    (queue.enqueue entry now).2.Maintained ∧
      Effect queue (queue.enqueue entry now).2 (.enqueue entry now, .enqueued (queue.enqueue entry now).1) := by
  obtain ⟨indexed, same⟩ := maintained.ensureIndex
  unfold enqueue
  simp only
  split
  · exact ⟨fun _ => indexed, .kept (fun _ => rfl) same⟩
  next unknown =>
    have absent : entry.taskId ∉ queue.entries.map PriorityEntry.taskId := by
      rw [← same]
      intro mem
      obtain ⟨other, there, named⟩ := mem_map.mp mem
      exact unknown (named ▸ indexed.complete other there)
    split
    · exact ⟨fun _ => indexed, .kept (fun _ => rfl) same⟩
    next scored computed =>
      have named : scored.taskId = entry.taskId := by
        obtain ⟨composite, -, same⟩ := Option.bind_eq_some_iff.mp computed
        cases same
        rfl
      refine ⟨fun _ => ?_, .enqueued entry scored now rfl absent named (by rw [same])⟩
      rw [← named]
      exact indexed.concat scored

theorem takeOut_cases (queue : PriorityQueue) (position : Nat) :
    queue.takeOut position = (none, queue) ∨
      ∃ entry entries, swapRemove queue.entries position = some (entry, entries) ∧
      queue.takeOut position = (some (some entry), { queue with entries, indexDirty := true }) := by
  unfold takeOut
  split
  · exact .inl rfl
  next entry entries taken => exact .inr ⟨entry, entries, taken, rfl⟩

theorem dequeue_effect (maintained : queue.Maintained) (now : UInt64) : (queue.dequeue now).2.Maintained ∧
      Effect queue (queue.dequeue now).2 (.dequeue now, .left (queue.dequeue now).1) := by
  unfold dequeue
  split
  · exact ⟨maintained, .kept (fun _ => rfl) rfl⟩
  · split
    · exact ⟨maintained, .kept (fun _ => rfl) rfl⟩
    next position best =>
      rcases queue.takeOut_cases position with panicked | ⟨entry, entries, taken, done⟩
      · rw [panicked]
        exact ⟨maintained, .kept (fun _ => rfl) rfl⟩
      · rw [done]
        exact ⟨nofun, .dequeued now position entry rfl taken⟩

theorem remove_effect (maintained : queue.Maintained) (taskId : String) : (queue.remove taskId).2.Maintained ∧
      Effect queue (queue.remove taskId).2 (.remove taskId, .left (queue.remove taskId).1) := by
  obtain ⟨indexed, same⟩ := maintained.ensureIndex
  unfold remove
  generalize queue.ensureIndex = current at indexed same
  simp only
  split
  · exact ⟨fun _ => indexed, .kept (fun _ => rfl) same⟩
  next position found =>
    rcases current.takeOut_cases position with panicked | ⟨entry, entries, taken, done⟩
    · rw [panicked]
      exact ⟨fun _ => indexed, .kept (fun _ => rfl) same⟩
    · rw [done]
      rw [same] at taken
      exact ⟨nofun, .removed taskId position entry rfl taken⟩

theorem step_effect (maintained : queue.Maintained) (call : Call) : (machine.step queue call).2.Maintained ∧
      Effect queue (machine.step queue call).2 (call, (machine.step queue call).1) := by
  cases call with
  | enqueue entry now => exact enqueue_effect maintained entry now
  | dequeue now => exact dequeue_effect maintained now
  | remove taskId => exact remove_effect maintained taskId

end effects

structure Tracked (arrivals : Arrivals) (queue : PriorityQueue) : Prop where
  maintained : queue.Maintained
  unique : (queue.entries.map PriorityEntry.taskId).Nodup
  same : (arrivals.waiting.map Prod.snd).Perm (queue.entries.map PriorityEntry.taskId)

section tracking

variable {arrivals : Arrivals} {queue : PriorityQueue} {entry : PriorityEntry} {position : Nat}

theorem arrivals_concat (past : List (Call × Answer)) (step : Call × Answer) :
    PriorityQueue.arrivals (past ++ [step]) = (PriorityQueue.arrivals past).next step := by
  rw [PriorityQueue.arrivals, foldl_append]
  rfl

theorem Tracked.leave (tracked : Tracked arrivals queue) (maintained : after.Maintained)
    (taken : swapRemove queue.entries position = some (entry, after.entries)) :
    Tracked (arrivals.leave entry.taskId) after := by
  have split := (swapRemove_eq_some taken).2.map PriorityEntry.taskId
  rw [map_cons] at split
  obtain ⟨fresh, unique⟩ := nodup_cons.mp (split.nodup_iff.mp tracked.unique)
  refine ⟨maintained, unique, ?_⟩
  have rest := (tracked.same.trans split).filter fun other => other ≠ entry.taskId
  have others : (entry.taskId :: after.entries.map PriorityEntry.taskId).filter (fun other => other ≠ entry.taskId) =
      after.entries.map PriorityEntry.taskId := by
    rw [filter_cons_of_neg (by simp), filter_eq_self]
    intro other mem
    simpa using fun same : other = entry.taskId => fresh (same ▸ mem)
  rwa [others, filter_map] at rest

theorem Tracked.step (tracked : Tracked arrivals queue) (call : Call) :
    Tracked (arrivals.next (call, (machine.step queue call).1)) (machine.step queue call).2 := by
  obtain ⟨maintained, effect⟩ := step_effect tracked.maintained call
  cases effect with
  | enqueued entry scored now same absent named entries =>
    rw [same]
    refine ⟨maintained, ?_, ?_⟩
    all_goals rw [entries, map_append, map_singleton, named]
    · rw [← concat_eq_append]
      exact tracked.unique.concat absent
    · simpa [Arrivals.next] using tracked.same.append_right [entry.taskId]
  | dequeued now position entry same taken =>
    rw [same]
    exact ⟨maintained, (tracked.leave maintained taken).unique, (tracked.leave maintained taken).same⟩
  | removed taskId position entry same taken =>
    rw [same]
    exact tracked.leave maintained taken
  | kept quiet entries =>
    rw [quiet]
    exact ⟨maintained, entries ▸ tracked.unique, entries ▸ tracked.same⟩

end tracking

section equal

variable {past : List (Call × Answer)} {queue : PriorityQueue} {now : UInt64}

theorem findBetter_of_equal {value : Int64} {entries : List PriorityEntry}
    (equal : ∀ entry ∈ entries, score entry = some value) (best position : Nat) :
    findBetter score (best, value) position entries = some best := by
  induction entries generalizing position with
  | nil => rfl
  | cons entry entries ih =>
    obtain ⟨same, others⟩ := forall_mem_cons.mp equal
    have unchanged : (if value < value then (position, value) else (best, value)) = (best, value) :=
      if_neg Int64.lt_irrefl
    simp only [findBetter, same, Option.bind_eq_bind, Option.bind_some, unchanged]
    exact ih others (position + 1)

theorem dequeue_of_equal {others : List PriorityEntry} {score : Int64} (entries : queue.entries = first :: others)
    (equal : ∀ entry ∈ queue.entries, entry.effectiveScoreWithAging queue.config now = some score) :
    (queue.dequeue now).1 = some (some first) := by
  rw [entries] at equal
  obtain ⟨same, rest⟩ := forall_mem_cons.mp equal
  have best : queue.findBestIndex now = some 0 := by
    rw [findBestIndex, entries]
    simp only [same, Option.bind_eq_bind, Option.bind_some]
    exact findBetter_of_equal rest 0 1
  have found : queue.entries[0]? = some first := by rw [entries]; rfl
  obtain ⟨left, taken⟩ := exists_swapRemove found
  have filled : queue.entries ≠ [] := by rw [entries]; exact cons_ne_nil _ _
  rw [dequeue, if_neg filled, best]
  simp only [takeOut, taken]

theorem Tracked.servesEarliest_iff (tracked : Tracked (arrivals past) queue) (equal : queue.EqualScores call) :
    ServesEarliest past queue call ↔ FirstIsEarliest past queue call := by
  refine forall₂_congr fun now same => ?_
  obtain ⟨score, each⟩ := equal now same
  cases entries : queue.entries with
  | nil =>
    have none : (arrivals past).waiting = [] := by
      have tasks := tracked.same
      rw [entries] at tasks
      exact map_eq_nil_iff.mp tasks.eq_nil
    have nothing : (queue.dequeue now).1 = some .none := by rw [dequeue, if_pos entries]
    exact iff_of_true (.inl ⟨nothing, none⟩) (by simp [none])
  | cons first others =>
    rw [dequeue_of_equal entries each]
    constructor
    · rintro (⟨nothing, -⟩ | ⟨entry, taken, waited⟩)
      · cases nothing
      · cases taken
        exact waited.symm
    · intro waited
      exact .inr ⟨first, rfl, waited.symm⟩

/-- The numbers of the tasks that were dequeued and of those that wait, and the next number. -/
def Arrivals.line (arrivals : Arrivals) : List Nat :=
  arrivals.served ++ arrivals.waiting.map Prod.fst ++ [arrivals.count]

theorem Tracked.leave_earliest {arrivals : Arrivals} (tracked : Tracked arrivals queue)
    (waiting : arrivals.waiting = (number, taskId) :: others) :
    arrivals.numbersOf taskId = [number] ∧ (arrivals.leave taskId).waiting = others := by
  have unique := tracked.same.nodup_iff.mpr tracked.unique
  rw [waiting, map_cons, nodup_cons] at unique
  have apart : ∀ other ∈ others, other.2 ≠ taskId := fun other mem same =>
    unique.1 (mem_map.mpr ⟨other, mem, same⟩)
  constructor
  · rw [Arrivals.numbersOf, waiting, filter_cons_of_pos (by simp), filter_eq_nil_iff.mpr (by simpa using apart)]
    rfl
  · rw [Arrivals.leave, waiting]
    rw [filter_cons_of_neg (by simp), filter_eq_self.mpr (by simpa using apart)]

theorem line_enqueue {arrivals : Arrivals} (lined : arrivals.line.Pairwise (· < ·)) (entry : PriorityEntry)
    (now : UInt64) :
    (arrivals.next (.enqueue entry now, .enqueued (some true))).line.Pairwise (· < ·) := by
  have longer : (arrivals.next (.enqueue entry now, .enqueued (some true))).line =
      arrivals.line ++ [arrivals.count + 1] := by
    simp [Arrivals.line, Arrivals.next]
  rw [longer]
  refine pairwise_append.mpr ⟨lined, pairwise_singleton _ _, ?_⟩
  intro number mem next own
  rw [mem_singleton.mp own]
  rcases mem_append.mp mem with earlier | last
  · exact Nat.lt_succ_of_lt ((pairwise_append.mp lined).2.2 number earlier _ mem_cons_self)
  · exact Nat.lt_succ_of_le (mem_singleton.mp last).le

/-- The task that is first in line moves from those that wait to those that were dequeued. -/
theorem line_dequeue {arrivals : Arrivals} (tracked : Tracked arrivals queue)
    (earliest : arrivals.waiting.head?.map Prod.snd = some entry.taskId) :
    (arrivals.next (.dequeue now, .left (some (some entry)))).line = arrivals.line := by
  obtain ⟨⟨number, taskId⟩, first, named⟩ := Option.map_eq_some_iff.mp earliest
  obtain ⟨others, waiting⟩ := head?_eq_some_iff.mp first
  cases named
  obtain ⟨own, rest⟩ := tracked.leave_earliest waiting
  simp only [Arrivals.line, Arrivals.next, own, rest, waiting]
  simp [Arrivals.leave]

theorem line_step (lined : (arrivals past).line.Pairwise (· < ·)) (tracked : Tracked (arrivals past) queue)
    (earliest : ServesEarliest past queue call) :
    ((arrivals past).next (call, (machine.step queue call).1)).line.Pairwise (· < ·) := by
  have effect := (step_effect tracked.maintained call).2
  generalize answered : (machine.step queue call).1 = answer at effect
  cases effect with
  | enqueued entry scored now same =>
    rw [same]
    exact line_enqueue lined entry now
  | dequeued now position entry same =>
    obtain ⟨rfl, left⟩ := Prod.mk.inj same
    have result : (queue.dequeue now).1 = some (some entry) := Answer.left.inj (answered.trans left)
    rcases earliest now rfl with ⟨nothing, -⟩ | ⟨first, taken, waited⟩
    · rw [result] at nothing
      cases nothing
    · rw [result] at taken
      cases taken
      rwa [left, line_dequeue tracked waited]
  | removed taskId position entry same =>
    rw [same]
    exact lined.sublist (((filter_sublist.map _).append_left _).append_right _)
  | kept quiet => rwa [quiet]

end equal

theorem tracked_run (config : PriorityConfig) (deadlineHorizonMs : UInt64) (calls : List Call) :
    Tracked (arrivals (machine.log (empty config deadlineHorizonMs) calls))
      (machine.after (empty config deadlineHorizonMs) calls) := by
  apply @Machine.invariant _ _ _ machine (empty config deadlineHorizonMs) fun past => Tracked (arrivals past)
  · exact ⟨fun _ => ⟨nofun, nofun⟩, nodup_nil, .nil⟩
  · intro past queue call tracked
    rw [arrivals_concat]
    exact tracked.step call

/-- Entries of equal scores are served in the order of their arrival exactly if the earliest one is
in the first slot each time. -/
theorem inOrder_iff_firstIsEarliest (config : PriorityConfig) (deadlineHorizonMs : UInt64) (calls : List Call)
    (equal : machine.Meets (empty config deadlineHorizonMs) (fun _ => EqualScores) calls) :
    InOrder (empty config deadlineHorizonMs) calls ↔
      machine.Meets (empty config deadlineHorizonMs) FirstIsEarliest calls := by
  have served : machine.Meets (empty config deadlineHorizonMs) ServesEarliest calls ↔
      machine.Meets (empty config deadlineHorizonMs) FirstIsEarliest calls := by
    refine forall₃_congr fun past call initial => ?_
    exact (tracked_run config deadlineHorizonMs past).servesEarliest_iff (equal past call initial)
  constructor
  · intro inOrder
    exact served.mp inOrder.earliest
  · intro first
    have earliest := served.mpr first
    have each : ∀ past, past <+: calls →
        (arrivals (machine.log (empty config deadlineHorizonMs) past)).line.Pairwise (· < ·) := by
      intro past
      induction past using reverseRecOn with
      | nil => exact fun _ => pairwise_singleton _ _
      | append_singleton past call ih =>
        intro initial
        rw [Machine.log_concat, arrivals_concat]
        have before := ih ((prefix_append _ _).trans initial)
        exact line_step before (tracked_run config deadlineHorizonMs past) (earliest past call initial)
    refine ⟨earliest, fun past initial => (each past initial).sublist ?_⟩
    rw [Arrivals.line, append_assoc]
    exact sublist_append_left _ _

section samples

def plainEntry (taskId : String) : PriorityEntry := .new taskId "agent" .zero 0 0 .normal 0 0

def enqueueAll (tasks : List String) : List Call := tasks.map fun taskId => .enqueue (plainEntry taskId) 0

def serving (tasks : List String) : List Call := enqueueAll tasks ++ [.dequeue 0] ++ [.dequeue 0] ++ [.dequeue 0]

theorem meets_serving (enqueues : ∀ past queue entry now, Condition past queue (.enqueue entry now))
    (dequeues : ∀ past ∈ [enqueueAll tasks, enqueueAll tasks ++ [.dequeue 0],
        enqueueAll tasks ++ [.dequeue 0] ++ [.dequeue 0]],
      Condition (machine.log start past) (machine.after start past) (.dequeue 0)) :
    machine.Meets start Condition (serving tasks) := by
  have filled : machine.Meets start Condition (enqueueAll tasks) := by
    intro past call initial
    obtain ⟨taskId, -, rfl⟩ := mem_map.mp (initial.subset (mem_append_right past mem_cons_self))
    exact enqueues _ _ _ _
  simp only [forall_mem_cons] at dequeues
  rw [serving, Machine.meets_concat, Machine.meets_concat, Machine.meets_concat]
  exact ⟨⟨⟨filled, dequeues.1⟩, dequeues.2.1⟩, dequeues.2.2.1⟩

theorem equalScores_serving (equal : ∀ past ∈ [enqueueAll tasks, enqueueAll tasks ++ [.dequeue 0],
        enqueueAll tasks ++ [.dequeue 0] ++ [.dequeue 0]],
      ∀ entry ∈ (machine.after (empty .default 3600000) past).entries,
        entry.effectiveScoreWithAging (machine.after (empty .default 3600000) past).config 0 = some 1000250) :
    machine.Meets (empty .default 3600000) (fun _ => EqualScores) (serving tasks) := by
  apply meets_serving
  · exact fun _ _ _ _ => nofun
  · intro past mem now same
    cases same
    exact ⟨1000250, equal past mem⟩

theorem equalScores_serving_two :
    machine.Meets (empty .default 3600000) (fun _ => EqualScores) (serving ["a", "b"]) :=
  equalScores_serving (by decide +kernel)

/-- Two tasks of equal score are served in the order of their arrival. -/
theorem inOrder_iff_firstIsEarliest_of_two :
    machine.Meets (empty .default 3600000) (fun _ => EqualScores) (serving ["a", "b"]) ∧
      InOrder (empty .default 3600000) (serving ["a", "b"]) := by
  refine ⟨equalScores_serving_two,
    (inOrder_iff_firstIsEarliest .default 3600000 (serving ["a", "b"]) equalScores_serving_two).mpr ?_⟩
  apply meets_serving
  · exact fun _ _ _ _ => nofun
  · have first : ∀ past ∈ [enqueueAll ["a", "b"], enqueueAll ["a", "b"] ++ [.dequeue 0],
        enqueueAll ["a", "b"] ++ [.dequeue 0] ++ [.dequeue 0]],
        (machine.after (empty .default 3600000) past).entries.head?.map PriorityEntry.taskId =
          (arrivals (machine.log (empty .default 3600000) past)).waiting.head?.map Prod.snd := by decide +kernel
    exact fun past mem _ _ => first past mem

/-- Of three tasks of equal score, the one that came last is served second. -/
theorem serving_three_not_inOrder :
    machine.Meets (empty .default 3600000) (fun _ => EqualScores) (serving ["a", "b", "c"]) ∧
      ¬ InOrder (empty .default 3600000) (serving ["a", "b", "c"]) ∧
      (arrivals (machine.log (empty .default 3600000) (serving ["a", "b", "c"]))).served = [0, 2, 1] := by
  have served : (arrivals (machine.log (empty .default 3600000) (serving ["a", "b", "c"]))).served = [0, 2, 1] := by
    decide +kernel
  refine ⟨equalScores_serving (by decide +kernel), ?_, served⟩
  intro inOrder
  have increasing : List.Pairwise _ _ := inOrder.increasing _ (prefix_refl _)
  rw [served] at increasing
  exact absurd increasing (by decide)

end samples

end PriorityQueue

end Aafp.Economics
