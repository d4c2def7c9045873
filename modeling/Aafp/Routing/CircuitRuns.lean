import Aafp.Routing.Circuit
import Aafp.Foundation.Cells

/-! What a circuit breaker guarantees over whole runs. -/
namespace Aafp.Routing

open Foundation Identity List CircuitEntry

inductive CircuitCall where
  | acquire (now : Instant)
  | recordSuccess (now : Instant)
  | recordFailure (now : Instant)

def CircuitCall.now : CircuitCall → Instant
  | .acquire now | .recordSuccess now | .recordFailure now => now

def act (config : CircuitBreakerConfig) (cell : Option CircuitEntry) (call : CircuitCall) :
    Option (CircuitState × Bool) × CircuitEntry :=
  let entry := cell.getD (.default call.now)
  match call with
  | .acquire now => (entry.acquire config now).map some id
  | .recordSuccess _ => (none, entry.recordSuccess)
  | .recordFailure now => (none, entry.recordFailure config now)

def peer (config : CircuitBreakerConfig) :
    Machine CircuitCall (Option (CircuitState × Bool)) (Option CircuitEntry) :=
  cellMachine (act config)

namespace CircuitBreakerRegistry

def machine : Machine (AgentId × CircuitCall) (Option (CircuitState × Bool)) CircuitBreakerRegistry where
  step registry call := match call.2 with
    | .acquire now => (registry.acquire now call.1).map some id
    | .recordSuccess now => (none, registry.recordSuccess now call.1)
    | .recordFailure now => (none, registry.recordFailure now call.1)

theorem run_eq_peer (config : CircuitBreakerConfig) (calls : List (AgentId × CircuitCall)) (agentId : AgentId) :
    (machine.after (new config) calls).circuits.lookup agentId = (peer config).after none (ownOf agentId calls) ∧
    ownOf agentId ((machine.log (new config) calls).map fun entry => (entry.1.1, (entry.1.2, entry.2))) =
      (peer config).log none (ownOf agentId calls) := by
  have same : ∀ (table : AList fun _ => CircuitEntry) (call : AgentId × CircuitCall),
      machine.step ⟨table, config⟩ call =
        (((tableMachine (act config)).step table call).1,
          ⟨((tableMachine (act config)).step table call).2, config⟩) := by
    intro table call
    rcases call with ⟨peer, _ | _ | _⟩ <;> rfl
  obtain ⟨after, log⟩ := Machine.run_of_simulates same calls
  have start : new config = ⟨∅, config⟩ := rfl
  constructor
  · rw [start, after]
    exact lookup_after_tableMachine (act config) ∅ calls agentId
  · rw [start, log]
    exact log_tableMachine (act config) ∅ calls agentId

end CircuitBreakerRegistry

def stateOf (cell : Option CircuitEntry) : CircuitState := (cell.map state).getD .closed

def failuresOf (cell : Option CircuitEntry) : UInt32 := (cell.map consecutiveFailures).getD 0

def failuresSinceSuccess (calls : List CircuitCall) : Nat :=
  calls.foldl (fun count call => match call with
    | .acquire _ => count
    | .recordSuccess _ => 0
    | .recordFailure _ => count + 1) 0

theorem failuresSinceSuccess_concat (calls : List CircuitCall) (call : CircuitCall) :
    failuresSinceSuccess (calls ++ [call]) = match call with
      | .acquire _ => failuresSinceSuccess calls
      | .recordSuccess _ => 0
      | .recordFailure _ => failuresSinceSuccess calls + 1 := by
  rw [failuresSinceSuccess, foldl_append]
  rfl

def allowed (answer : Option (CircuitState × Bool)) : Bool := (answer.map Prod.snd).getD false

namespace CircuitEntry

variable {entry : CircuitEntry} {config : CircuitBreakerConfig} {now : Instant}

theorem maybeHalfOpen_of_ne (different : entry.state ≠ .opened) : entry.maybeHalfOpen config now = entry :=
  if_neg fun condition => different condition.1

theorem maybeHalfOpen_of_early (since : entry.openedAt ≤ now) (early : now < entry.openedAt + config.cooldown) :
    entry.maybeHalfOpen config now = entry := by
  apply if_neg
  intro condition
  have elapsed := Nat.add_le_of_le_sub' since condition.2
  exact absurd early (Nat.not_lt.mpr elapsed)

section

variable (entry : CircuitEntry) (config : CircuitBreakerConfig) (now : Instant)

theorem acquire_state : (entry.acquire config now).2.state = (entry.maybeHalfOpen config now).state ∧
      (entry.acquire config now).2.consecutiveFailures = entry.consecutiveFailures := by
  have failures : (entry.maybeHalfOpen config now).consecutiveFailures = entry.consecutiveFailures := by
    rw [maybeHalfOpen]
    split <;> rfl
  rw [acquire]
  split
  · exact ⟨rfl, failures⟩
  · exact ⟨rfl, failures⟩
  · split
    · exact ⟨rfl, failures⟩
    · exact ⟨rfl, failures⟩

theorem recordSuccess_state : entry.recordSuccess.consecutiveFailures = 0 ∧
      entry.recordSuccess.state = if entry.state = .halfOpen then .closed else entry.state := by
  rw [recordSuccess]
  split
  · exact ⟨rfl, rfl⟩
  · exact ⟨rfl, rfl⟩

theorem recordFailure_state :
    (entry.recordFailure config now).consecutiveFailures = saturatingSucc entry.consecutiveFailures ∧
      (entry.recordFailure config now).state = match entry.state with
        | .halfOpen => .opened
        | .closed =>
          if saturatingSucc entry.consecutiveFailures ≥ config.failureThreshold then .opened else .closed
        | .opened => .opened := by
  rw [recordFailure]
  cases state : entry.state with
  | closed =>
    dsimp only
    split
    · exact ⟨rfl, rfl⟩
    · exact ⟨rfl, rfl⟩
  | opened => exact ⟨rfl, rfl⟩
  | halfOpen => exact ⟨rfl, rfl⟩

end

theorem openedAt_recordFailure (before : entry.state ≠ .opened)
    (after : (entry.recordFailure config now).state = .opened) :
    (entry.recordFailure config now).openedAt = now := by
  rw [recordFailure] at after ⊢
  cases state : entry.state with
  | closed =>
    simp only [state] at after ⊢
    split at after
    next reached => rw [if_pos reached]
    · cases after
  | opened => exact absurd state before
  | halfOpen => rfl

end CircuitEntry

section Peer

variable {config : CircuitBreakerConfig} {cell : Option CircuitEntry} {calls : List CircuitCall} {call : CircuitCall}

theorem stateOf_eq (cell : Option CircuitEntry) (now : Instant) :
    stateOf cell = (cell.getD (.default now)).state := by
  cases cell <;> rfl

theorem failuresOf_eq (cell : Option CircuitEntry) (now : Instant) :
    failuresOf cell = (cell.getD (.default now)).consecutiveFailures := by
  cases cell <;> rfl

theorem peer_acquire (config : CircuitBreakerConfig) (cell : Option CircuitEntry) (now : Instant) :
    let after := ((peer config).step cell (.acquire now)).2
    failuresOf after = failuresOf cell ∧
      (stateOf after = stateOf cell ∨ stateOf cell = .opened ∧ stateOf after = .halfOpen) := by
  intro after
  obtain ⟨state, failures⟩ := (cell.getD (.default now)).acquire_state config now
  rw [failuresOf_eq cell now, stateOf_eq cell now]
  refine ⟨failures, ?_⟩
  rw [CircuitEntry.maybeHalfOpen] at state
  split at state
  next condition => exact .inr ⟨condition.1, state⟩
  · exact .inl state

theorem peer_recordSuccess (config : CircuitBreakerConfig) (cell : Option CircuitEntry) (now : Instant) :
    let after := ((peer config).step cell (.recordSuccess now)).2
    failuresOf after = 0 ∧ stateOf after = if stateOf cell = .halfOpen then .closed else stateOf cell := by
  intro after
  rw [stateOf_eq cell now]
  exact (cell.getD (.default now)).recordSuccess_state

theorem peer_recordFailure (config : CircuitBreakerConfig) (cell : Option CircuitEntry) (now : Instant) :
    let after := ((peer config).step cell (.recordFailure now)).2
    failuresOf after = saturatingSucc (failuresOf cell) ∧ stateOf after = match stateOf cell with
      | .halfOpen => .opened
      | .closed => if saturatingSucc (failuresOf cell) ≥ config.failureThreshold then .opened else .closed
      | .opened => .opened := by
  intro after
  rw [stateOf_eq cell now, failuresOf_eq cell now]
  exact (cell.getD (.default now)).recordFailure_state config now

/-- In Closed the entry counts the failures since the last success, and stays below the
threshold. -/
def Tracks (config : CircuitBreakerConfig) (calls : List CircuitCall) (cell : Option CircuitEntry) : Prop :=
  stateOf cell = .closed →
    (failuresOf cell).toNat = failuresSinceSuccess calls ∧ failuresOf cell < config.failureThreshold

theorem Tracks.succ (tracks : Tracks config calls cell) (closed : stateOf cell = .closed) :
    (saturatingSucc (failuresOf cell)).toNat = failuresSinceSuccess calls + 1 ∧
      failuresSinceSuccess calls + 1 ≤ config.failureThreshold.toNat := by
  obtain ⟨count, below⟩ := tracks closed
  have bound := config.failureThreshold.toNat_lt_size
  rw [UInt32.lt_iff_toNat_lt] at below
  rw [toNat_saturatingSucc (by omega)]
  omega

theorem Tracks.step (tracks : Tracks config calls cell) (positive : 1 ≤ config.failureThreshold)
    (call : CircuitCall) : Tracks config (calls ++ [call]) ((peer config).step cell call).2 := by
  intro closed
  rw [failuresSinceSuccess_concat]
  cases call with
  | acquire now =>
    obtain ⟨failures, kept | ⟨_, halfOpen⟩⟩ := peer_acquire config cell now
    · rw [failures]
      exact tracks (kept.symm.trans closed)
    · cases halfOpen.symm.trans closed
  | recordSuccess now =>
    rw [(peer_recordSuccess config cell now).1]
    exact ⟨rfl, UInt32.lt_of_lt_of_le (by decide) positive⟩
  | recordFailure now =>
    obtain ⟨failures, state⟩ := peer_recordFailure config cell now
    have after := state.symm.trans closed
    rw [failures]
    cases before : stateOf cell with
    | closed =>
      simp only [before] at after
      split at after
      · cases after
      next below => exact ⟨(tracks.succ before).1, UInt32.not_le.mp below⟩
    | opened => simp [before] at after
    | halfOpen => simp [before] at after

theorem tracks_run (positive : 1 ≤ config.failureThreshold) (calls : List CircuitCall) :
    Tracks config calls ((peer config).after none calls) := by
  induction calls using reverseRecOn with
  | nil =>
    intro _
    exact ⟨rfl, UInt32.lt_of_lt_of_le (show (0 : UInt32) < 1 by decide) positive⟩
  | append_singleton calls call ih =>
    rw [Machine.after_concat]
    exact ih.step positive call

/-- A call that opens the circuit is a failure: the one that reaches the threshold, or one in
HalfOpen. -/
theorem Tracks.opens (tracks : Tracks config calls cell) (before : stateOf cell ≠ .opened)
    (after : stateOf ((peer config).step cell call).2 = .opened) : ∃ now, call = .recordFailure now ∧
      (stateOf cell = .halfOpen ∨ failuresSinceSuccess (calls ++ [call]) = config.failureThreshold.toNat) := by
  cases call with
  | acquire now =>
    obtain ⟨_, kept | ⟨opened, _⟩⟩ := peer_acquire config cell now
    · exact absurd (kept.symm.trans after) before
    · exact absurd opened before
  | recordSuccess now =>
    have result := (peer_recordSuccess config cell now).2.symm.trans after
    split at result
    · cases result
    · exact absurd result before
  | recordFailure now =>
    refine ⟨now, rfl, ?_⟩
    have result := (peer_recordFailure config cell now).2.symm.trans after
    cases was : stateOf cell with
    | closed =>
      simp only [was] at result
      split at result
      next reached =>
        obtain ⟨count, below⟩ := tracks.succ was
        rw [ge_iff_le, UInt32.le_iff_toNat_le] at reached
        refine .inr ?_
        rw [failuresSinceSuccess_concat]
        dsimp only
        omega
      · cases result
    | opened => exact absurd was before
    | halfOpen => exact .inl rfl

def OpenSince (time : Instant) (cell : Option CircuitEntry) : Prop :=
  ∃ entry, cell = some entry ∧ entry.state = .opened ∧ entry.openedAt = time

theorem OpenSince.step (opened : OpenSince time cell) (call : CircuitCall)
    (since : time ≤ call.now) (early : call.now < time + config.cooldown) :
    OpenSince time ((peer config).step cell call).2 ∧ allowed ((peer config).step cell call).1 = false := by
  obtain ⟨entry, rfl, state, rfl⟩ := opened
  cases call with
  | acquire now =>
    have same : entry.maybeHalfOpen config now = entry := maybeHalfOpen_of_early since early
    have refused : entry.acquire config now = ((.opened, false), entry) := by
      rw [acquire, same, state]
    refine ⟨⟨entry, ?_, state, rfl⟩, ?_⟩
    · exact congrArg (fun outcome => some outcome.2) refused
    · exact congrArg (fun outcome => allowed (some outcome.1)) refused
  | recordSuccess now =>
    refine ⟨⟨_, rfl, ?_, ?_⟩, rfl⟩
    · simp [act, recordSuccess, state]
    · simp [act, recordSuccess, state]
  | recordFailure now =>
    refine ⟨⟨_, rfl, ?_, ?_⟩, rfl⟩
    · simp [act, recordFailure, state]
    · simp [act, recordFailure, state]

theorem OpenSince.after (opened : OpenSince time cell)
    (since : ∀ call ∈ calls, time ≤ call.now) (early : ∀ call ∈ calls, call.now < time + config.cooldown) :
    OpenSince time ((peer config).after cell calls) := by
  induction calls generalizing cell with
  | nil => exact opened
  | cons call calls ih =>
    obtain ⟨next, _⟩ := opened.step call (since call mem_cons_self) (early call mem_cons_self)
    exact ih next (fun later mem => since later (mem_cons_of_mem _ mem))
      (fun later mem => early later (mem_cons_of_mem _ mem))

theorem between_ordered (ordered : ((calls ++ [first] ++ between ++ [last]).map CircuitCall.now).Pairwise (· ≤ ·)) :
    first.now ≤ last.now ∧ ∀ later ∈ between, first.now ≤ later.now ∧ later.now ≤ last.now := by
  rw [pairwise_map, pairwise_append] at ordered
  obtain ⟨front, _, beforeLast⟩ := ordered
  have afterFirst := (pairwise_append.mp front).2.2
  have inFront (later : CircuitCall) (mem : later = first ∨ later ∈ between) : later.now ≤ last.now := by
    apply beforeLast later _ last (mem_singleton_self last)
    obtain same | inside := mem
    · simp [same]
    · simp [inside]
  refine ⟨inFront first (.inl rfl), ?_⟩
  intro later mem
  exact ⟨afterFirst first (by simp) later mem, inFront later (.inr mem)⟩

def allowedIn (config : CircuitBreakerConfig) (cell : Option CircuitEntry) (calls : List CircuitCall) : Nat :=
  (((peer config).log cell calls).filter fun entry => allowed entry.2).length

theorem allowedIn_cons (config : CircuitBreakerConfig) (cell : Option CircuitEntry) (call : CircuitCall)
    (calls : List CircuitCall) : allowedIn config cell (call :: calls) =
      (if allowed ((peer config).step cell call).1 then 1 else 0) +
        allowedIn config ((peer config).step cell call).2 calls :=
  Machine.length_filter_log_cons _ calls

theorem allowedIn_le {entry : CircuitEntry} (state : entry.state = .halfOpen)
    (within : entry.halfOpenProbes ≤ config.halfOpenMaxProbes) (times : List Instant) :
    entry.halfOpenProbes.toNat + allowedIn config (some entry) (times.map .acquire) ≤
      config.halfOpenMaxProbes.toNat := by
  induction times generalizing entry with
  | nil =>
    exact within
  | cons now times ih =>
    have same : entry.maybeHalfOpen config now = entry :=
      maybeHalfOpen_of_ne (by rw [state]; decide)
    rw [map_cons, allowedIn_cons]
    by_cases room : entry.halfOpenProbes < config.halfOpenMaxProbes
    · have granted : entry.acquire config now =
          ((.halfOpen, true), { entry with halfOpenProbes := entry.halfOpenProbes + 1 }) := by
        simp only [acquire, same, state, room, if_true]
      have step : (peer config).step (some entry) (.acquire now) =
          (some (.halfOpen, true), some { entry with halfOpenProbes := entry.halfOpenProbes + 1 }) :=
        congrArg (fun outcome => (some outcome.1, some outcome.2)) granted
      have more := toNat_succ_of_lt room
      have rest := @ih { entry with halfOpenProbes := entry.halfOpenProbes + 1 } state (by
        rw [UInt32.le_iff_toNat_le, more]
        exact room)
      rw [step]
      simp only [more, allowed, Option.map_some, Option.getD_some, if_true] at rest ⊢
      omega
    · have refused : entry.acquire config now = ((.halfOpen, false), entry) := by
        simp only [acquire, same, state, room, if_false]
      have step : (peer config).step (some entry) (.acquire now) = (some (.halfOpen, false), some entry) :=
        congrArg (fun outcome => (some outcome.1, some outcome.2)) refused
      rw [step]
      have rest := ih state within
      simpa [allowed] using rest

theorem allowedIn_le_of_enters (before : stateOf cell ≠ .halfOpen)
    (after : stateOf ((peer config).step cell (.acquire now)).2 = .halfOpen) (times : List Instant) :
    allowedIn config cell ((now :: times).map .acquire) ≤ config.halfOpenMaxProbes.toNat := by
  have state := ((cell.getD (.default now)).acquire_state config now).1.symm.trans after
  rw [stateOf_eq cell now] at before
  generalize shape : cell.getD (.default now) = entry at state before
  have enters : entry.state = .opened ∧ now - entry.openedAt ≥ config.cooldown := by
    by_contra stays
    rw [maybeHalfOpen, if_neg stays] at state
    exact before state
  have entered : entry.maybeHalfOpen config now = { entry with state := .halfOpen, halfOpenProbes := 0 } :=
    if_pos enters
  have same : (peer config).step cell (.acquire now) =
      (peer config).step (some (entry.maybeHalfOpen config now)) (.acquire now) := by
    have again : (entry.maybeHalfOpen config now).maybeHalfOpen config now = entry.maybeHalfOpen config now :=
      maybeHalfOpen_of_ne (by rw [state]; decide)
    have acquired : (entry.maybeHalfOpen config now).acquire config now = entry.acquire config now := by
      rw [acquire, acquire, again]
    simp only [peer, cellMachine, act, CircuitCall.now, shape, Option.getD_some, acquired]
  have counted := @allowedIn_le config _ state (by rw [entered]; exact UInt32.zero_le) (now :: times)
  rw [map_cons, allowedIn_cons] at counted ⊢
  rw [same]
  omega

end Peer

/-- A circuit opens on the failure that reaches the threshold, or on one in HalfOpen. Before the
cooldown has passed no request is allowed, and in HalfOpen at most the maximum of probes until an
outcome is recorded. -/
theorem circuit_breaker_guarantee (config : CircuitBreakerConfig) (positive : 1 ≤ config.failureThreshold) :
    (∀ calls agentId, (CircuitBreakerRegistry.machine.after (.new config) calls).circuits.lookup agentId =
        (peer config).after none (ownOf agentId calls) ∧
      ownOf agentId ((CircuitBreakerRegistry.machine.log (.new config) calls).map fun entry =>
          (entry.1.1, (entry.1.2, entry.2))) = (peer config).log none (ownOf agentId calls)) ∧
    (∀ calls call, stateOf ((peer config).after none calls) ≠ .opened →
      stateOf ((peer config).after none (calls ++ [call])) = .opened →
      ∃ now, call = .recordFailure now ∧ (stateOf ((peer config).after none calls) = .halfOpen ∨
        failuresSinceSuccess (calls ++ [call]) = config.failureThreshold.toNat)) ∧
    (∀ (calls : List CircuitCall) (call : CircuitCall) (between : List CircuitCall) (now : Instant),
      ((calls ++ [call] ++ between ++ [CircuitCall.acquire now]).map CircuitCall.now).Pairwise (· ≤ ·) →
      stateOf ((peer config).after none calls) ≠ .opened →
      stateOf ((peer config).after none (calls ++ [call])) = .opened → now < call.now + config.cooldown →
      allowed ((peer config).step ((peer config).after none (calls ++ [call] ++ between)) (.acquire now)).1 =
        false) ∧
    (∀ (calls : List CircuitCall) (now : Instant) (times : List Instant),
      stateOf ((peer config).after none calls) ≠ .halfOpen →
      stateOf ((peer config).after none (calls ++ [.acquire now])) = .halfOpen →
      allowedIn config ((peer config).after none calls) ((now :: times).map .acquire) ≤
        config.halfOpenMaxProbes.toNat) ∧
    ∀ calls, stateOf ((peer config).after none calls) = .closed →
      failuresOf ((peer config).after none calls) < config.failureThreshold := by
  refine ⟨CircuitBreakerRegistry.run_eq_peer config, ?_, ?_, ?_, ?_⟩
  · intro calls call before after
    rw [Machine.after_concat] at after
    exact (tracks_run positive calls).opens before after
  · intro calls call between now ordered before after early
    rw [Machine.after_concat] at after
    obtain ⟨failed, rfl, _⟩ := (tracks_run positive calls).opens before after
    rw [stateOf_eq _ failed] at before
    have opened : OpenSince failed _ := ⟨_, rfl, after, openedAt_recordFailure before after⟩
    obtain ⟨since, within⟩ := between_ordered ordered
    have still := opened.after (fun later mem => (within later mem).1)
      (fun later mem => Nat.lt_of_le_of_lt (within later mem).2 early)
    rw [Machine.after_append, Machine.after_concat]
    exact (still.step (.acquire now) since early).2
  · intro calls now times before after
    rw [Machine.after_concat] at after
    exact allowedIn_le_of_enters before after times
  · intro calls closed
    exact (tracks_run positive calls closed).2

/-- Four failures leave a circuit of the default configuration closed. -/
theorem four_failures_below_threshold :
    failuresOf ((peer .default).after none (replicate 4 (.recordFailure 0))) < 5 :=
  (circuit_breaker_guarantee .default (by decide)).2.2.2.2 _ (by decide)

inductive Visit where
  | call (made : AgentId × CircuitCall)
  | look (now : Instant) (agentId : AgentId)

def Visit.call? : Visit → Option (AgentId × CircuitCall)
  | .call made => some made
  | .look .. => none

/-- A look does not fall on an open circuit whose cooldown has passed. -/
def Visit.quiet (registry : CircuitBreakerRegistry) : Visit → Bool
  | .call _ => true
  | .look now agentId => ¬ ((registry.entry now agentId).state = .opened ∧
      now - (registry.entry now agentId).openedAt ≥ registry.config.cooldown)

/-- The entries differ at most in the time at which a circuit that is not open was opened. -/
def CircuitEntry.Alike (entry other : CircuitEntry) : Prop :=
  other = entry ∨ entry.state ≠ .opened ∧ ∃ time, other = { entry with openedAt := time }

theorem act_alike {entry other : CircuitEntry} (alike : entry.Alike other) (config : CircuitBreakerConfig)
    (call : CircuitCall) : (act config (some entry) call).1 = (act config (some other) call).1 ∧
      (act config (some entry) call).2.Alike (act config (some other) call).2 := by
  obtain rfl | ⟨notOpen, time, rfl⟩ := alike
  · exact ⟨rfl, .inl rfl⟩
  · cases call with
    | acquire now =>
      simp only [act, Option.getD_some, acquire, maybeHalfOpen, notOpen, false_and, if_false]
      split
      · exact ⟨rfl, .inr ⟨notOpen, time, rfl⟩⟩
      · contradiction
      · split
        · exact ⟨rfl, .inr ⟨notOpen, time, rfl⟩⟩
        · exact ⟨rfl, .inr ⟨notOpen, time, rfl⟩⟩
    | recordSuccess now =>
      refine ⟨rfl, ?_⟩
      simp only [act, Option.getD_some, recordSuccess]
      split
      · exact .inr ⟨nofun, time, rfl⟩
      · exact .inr ⟨notOpen, time, rfl⟩
    | recordFailure now =>
      refine ⟨rfl, ?_⟩
      simp only [act, Option.getD_some, recordFailure]
      split
      · exact .inl rfl
      · split
        · exact .inl rfl
        · exact .inr ⟨notOpen, time, rfl⟩
      · contradiction

namespace CircuitBreakerRegistry

def watched : Machine Visit (Option (CircuitState × Bool)) CircuitBreakerRegistry where
  step registry
    | .call call => machine.step registry call
    | .look now agentId => (none, (registry.state now agentId).2)

/-- The calls have the same answers as without the looks. -/
def Unnoticed (registry : CircuitBreakerRegistry) (visits : List Visit) : Prop :=
  ((watched.log registry visits).filterMap fun entry => entry.1.call?.map fun call => (call, entry.2)) =
    machine.log registry (visits.filterMap Visit.call?)

def Alike (registry other : CircuitBreakerRegistry) : Prop :=
  registry.config = other.config ∧
    ∀ agentId now later, (registry.entry now agentId).Alike (other.entry later agentId)

theorem entry_setEntry (registry : CircuitBreakerRegistry) (agentId other : AgentId) (entry : CircuitEntry)
    (now : Instant) : (registry.setEntry agentId entry).entry now other =
      if agentId = other then entry else registry.entry now other := by
  rw [CircuitBreakerRegistry.entry, setEntry, lookup_insert_ite]
  split <;> rfl

theorem step_eq (registry : CircuitBreakerRegistry) (call : AgentId × CircuitCall) :
    let outcome := act registry.config (some (registry.entry call.2.now call.1)) call.2
    machine.step registry call = (outcome.1, registry.setEntry call.1 outcome.2) := by
  obtain ⟨agentId, _ | _ | _⟩ := call <;> rfl

variable {registry other : CircuitBreakerRegistry}

theorem alike_call (alike : registry.Alike other) (call : AgentId × CircuitCall) :
    (machine.step registry call).1 = (machine.step other call).1 ∧
      (machine.step registry call).2.Alike (machine.step other call).2 := by
  obtain ⟨answers, entries⟩ := act_alike (alike.2 call.1 call.2.now call.2.now) registry.config call.2
  rw [step_eq, step_eq, ← alike.1]
  refine ⟨answers, alike.1, fun agentId now later => ?_⟩
  rw [entry_setEntry, entry_setEntry]
  split
  · exact entries
  · exact alike.2 agentId now later

theorem alike_look (alike : registry.Alike other) (quiet : (Visit.look now agentId).quiet other) :
    registry.Alike (other.state now agentId).2 := by
  refine ⟨alike.1, fun agent before after => ?_⟩
  rw [state, maybeHalfOpen, if_neg (of_decide_eq_true quiet), entry_setEntry]
  split
  next same => exact same ▸ alike.2 agentId before now
  · exact alike.2 agent before after

/-- Looks go unnoticed if none makes the transition from Open to HalfOpen. -/
theorem looks_unnoticed (config : CircuitBreakerConfig) (visits : List Visit)
    (quiet : ∀ entry ∈ watched.met (new config) visits, entry.2.quiet entry.1) : (new config).Unnoticed visits := by
  suffices both : (machine.after (new config) (visits.filterMap Visit.call?)).Alike
      (watched.after (new config) visits) ∧ (new config).Unnoticed visits from both.2
  induction visits using reverseRecOn with
  | nil => exact ⟨⟨rfl, fun _ _ later => .inr ⟨nofun, later, rfl⟩⟩, rfl⟩
  | append_singleton visits visit ih =>
    rw [Machine.met_concat, forall_mem_append, forall_mem_singleton] at quiet
    obtain ⟨alike, same⟩ := ih quiet.1
    rw [Unnoticed, Machine.log_concat, Machine.after_concat, filterMap_append, filterMap_append, same]
    cases visit with
    | call call =>
      obtain ⟨answers, after⟩ := alike_call alike call
      rw [show [Visit.call call].filterMap Visit.call? = [call] from rfl, Machine.after_concat,
        Machine.log_concat, answers]
      exact ⟨after, rfl⟩
    | look now agentId =>
      rw [show [Visit.look now agentId].filterMap Visit.call? = [] from rfl, append_nil]
      exact ⟨alike_look alike quiet.2, append_nil _⟩

def somebody : AgentId := ⟨List.replicate 32 0, by decide⟩

/-- A look at a circuit that has no entry yet makes one, and the failure after it still opens the circuit. -/
theorem first_look_unnoticed : (new ⟨1, 10, 1⟩).Unnoticed
    [.look 0 somebody, .call (somebody, .recordFailure 1), .call (somebody, .acquire 2)] :=
  looks_unnoticed _ _ (by decide)

/-- A late failure opens the circuit again after a look, and is ignored without it. -/
theorem late_failure_noticed : ¬ (new ⟨1, 10, 1⟩).Unnoticed
    [.call (somebody, .recordFailure 0), .look 10 somebody, .call (somebody, .recordFailure 11),
      .call (somebody, .acquire 12)] :=
  fun same => absurd (congrArg (map Prod.snd) same) (by decide)

theorem log_of_alike (alike : registry.Alike other) (calls : List (AgentId × CircuitCall)) :
    machine.log registry calls = machine.log other calls := by
  induction calls generalizing registry other with
  | nil => rfl
  | cons call calls ih =>
    obtain ⟨answers, after⟩ := alike_call alike call
    rw [Machine.log, Machine.log, answers, ih after]

/-- After a reset every peer is answered as if the one that was reset had never been seen. -/
theorem reset_forgets (registry : CircuitBreakerRegistry) (now : Instant) (agentId : AgentId)
    (calls : List (AgentId × CircuitCall)) : machine.log (registry.reset now agentId) calls =
      machine.log { registry with circuits := registry.circuits.erase agentId } calls := by
  apply log_of_alike
  refine ⟨rfl, fun peer before later => ?_⟩
  rw [reset, entry_setEntry, CircuitBreakerRegistry.entry, CircuitBreakerRegistry.entry]
  split
  next same =>
    rw [← same, AList.lookup_erase]
    exact .inr ⟨nofun, later, rfl⟩
  next different =>
    rw [AList.lookup_erase_ne (Ne.symm different)]
    cases registry.circuits.lookup peer with
    | none => exact .inr ⟨nofun, later, rfl⟩
    | some entry => exact .inl rfl

end CircuitBreakerRegistry

end Aafp.Routing
