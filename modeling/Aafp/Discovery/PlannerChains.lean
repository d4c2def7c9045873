import Aafp.Discovery.Planner

/-! Greedy chaining as a relation on the capabilities alone. -/
namespace Aafp.Discovery

open Foundation List Option
open Draft hiding push

variable {F : Type}

def SemanticCapability.effects (cap : SemanticCapability F) : List Effect := cap.provides.map outputToEffect

def SemanticCapability.needs (cap : SemanticCapability F) : List Effect :=
  cap.requirements.map fun requirement => (requirementToPrecondition requirement).toEffect

def outputs (caps : List (SemanticCapability F)) : List Effect := caps.flatMap SemanticCapability.effects

/-- A capability that was taken, with those taken before its chain began and those taken for
its requirements. -/
structure Visit (F : Type) where
  before : List (SemanticCapability F)
  cap : SemanticCapability F
  chain : List (SemanticCapability F)

/-- With the capabilities of `before` at hand, the visits are those that greedy chaining makes for
the needs. -/
inductive Chained (available : List (SemanticCapability F)) :
    List String → List (SemanticCapability F) → List Effect → List (Visit F) → Prop where
  | done : Chained available visiting before [] []
  | met (present : needed ∈ outputs before) (rest : Chained available visiting before needs visits) :
      Chained available visiting before (needed :: needs) visits
  | taken (absent : needed ∉ outputs before) (choice : chosen available needed = some cap)
      (fresh : cap.name ∉ visiting)
      (chain : Chained available (cap.name :: visiting) before cap.needs below)
      (rest : Chained available visiting (before ++ below.map Visit.cap ++ [cap]) needs visits) :
      Chained available visiting before (needed :: needs) (below ++ ⟨before, cap, below.map Visit.cap⟩ :: visits)

variable {available : List (SemanticCapability F)} {visiting : List String}

variable {before caps : List (SemanticCapability F)} {visits : List (Visit F)} {needed : Effect} {draft : Draft F}
  {cap : SemanticCapability F}

theorem chained_nil : Chained available visiting before [] visits ↔ visits = [] := by
  constructor
  · intro chained
    cases chained
    rfl
  · intro empty
    rw [empty]
    exact .done

theorem chained_cons : Chained available visiting before (needed :: needs) visits ↔ ∃ first rest,
      Chained available visiting before [needed] first ∧
      Chained available visiting (before ++ first.map Visit.cap) needs rest ∧ visits = first ++ rest := by
  constructor
  · intro chained
    cases chained with
    | met present rest => exact ⟨[], visits, .met present .done, by simpa using rest, rfl⟩
    | taken absent choice fresh chain rest =>
      refine ⟨_, _, .taken absent choice fresh chain .done, ?_, (append_assoc _ [_] _).symm⟩
      simpa using rest
  · intro ⟨first, rest, head, tail, same⟩
    subst same
    cases head with
    | met present none =>
      cases none
      exact .met present (by simpa using tail)
    | taken absent choice fresh chain none =>
      cases none
      rw [append_assoc]
      exact .taken absent choice fresh chain (by simpa using tail)

theorem chained_single : Chained available visiting before [needed] visits ↔
      (needed ∈ outputs before ∧ visits = []) ∨
      (needed ∉ outputs before ∧ ∃ cap below, chosen available needed = some cap ∧ cap.name ∉ visiting ∧
        Chained available (cap.name :: visiting) before cap.needs below ∧
        visits = below ++ [⟨before, cap, below.map Visit.cap⟩]) := by
  constructor
  · intro chained
    cases chained with
    | met present none => exact .inl ⟨present, chained_nil.mp none⟩
    | taken absent choice fresh chain none =>
      rw [chained_nil.mp none]
      exact .inr ⟨absent, _, _, choice, fresh, chain, rfl⟩
  · intro single
    obtain ⟨present, empty⟩ | ⟨absent, cap, below, choice, fresh, chain, same⟩ := single
    · subst empty
      exact .met present .done
    · subst same
      exact .taken absent choice fresh chain .done

def Visit.step (visit : Visit F) : PlannedStep F :=
  plannedStep (visit.before.length + visit.chain.length) visit.cap
    (range' visit.before.length visit.chain.length)

def Draft.follow (draft : Draft F) (visits : List (Visit F)) : Draft F :=
  visits.foldl (fun draft visit => draft.push visit.step) draft

theorem Draft.follow_append (draft : Draft F) (first second : List (Visit F)) :
    draft.follow (first ++ second) = (draft.follow first).follow second := foldl_append

@[simp] theorem Draft.steps_follow (draft : Draft F) (visits : List (Visit F)) :
    (draft.follow visits).steps = draft.steps ++ visits.map Visit.step := by
  induction visits generalizing draft with
  | nil => simp [follow]
  | cons visit visits ih =>
    have next := ih (draft.push visit.step)
    simpa [follow, push] using next

structure Draft.Holds (draft : Draft F) (caps : List (SemanticCapability F)) : Prop where
  length : draft.steps.length = caps.length
  satisfied : ∀ effect, effect ∈ draft.satisfied ↔ effect ∈ outputs caps

theorem Draft.Holds.push (held : draft.Holds caps) (visit : Visit F) :
    (draft.push visit.step).Holds (caps ++ [visit.cap]) where
  length := by simp [Draft.push, held.length]
  satisfied effect := by
    rw [Draft.push, HashSet.mem_insertAll, held.satisfied]
    simp [outputs, Visit.step, plannedStep, SemanticCapability.effects]

theorem Draft.Holds.follow (held : draft.Holds caps) (visits : List (Visit F)) :
    (draft.follow visits).Holds (caps ++ visits.map Visit.cap) := by
  induction visits generalizing draft caps with
  | nil => simpa [follow] using held
  | cons visit visits ih =>
    have next := ih (held.push visit)
    simpa [follow] using next

/-- A run that succeeds exactly when the needs can be chained, and follows the visits then. -/
def Chains (available : List (SemanticCapability F)) (visiting : List String) (needs : List Effect)
    (run : Draft F → Except PlanningError (Draft F)) : Prop :=
  ∀ draft caps, draft.Holds caps → ∀ after, run draft = .ok after ↔
    ∃ visits, Chained available visiting caps needs visits ∧ after = draft.follow visits

theorem satisfyAll_eq_ok {satisfy : Precondition → Draft F → Except PlanningError (Draft F)}
    (each : ∀ needed, Chains available visiting [needed.toEffect] (satisfy needed)) {requirements : List Requirement}
    (held : draft.Holds caps) {depends : List Nat} :
    satisfyAll satisfy requirements (depends, draft) = .ok result ↔ ∃ visits, Chained available visiting caps
        (requirements.map fun requirement => (requirementToPrecondition requirement).toEffect) visits ∧
      result = (depends ++ range' caps.length visits.length, draft.follow visits) := by
  induction requirements generalizing draft caps depends with
  | nil =>
    rw [satisfyAll]
    constructor
    · intro same
      exact ⟨[], .done, by simpa [follow] using same.symm⟩
    · intro ⟨visits, chained, same⟩
      rw [chained_nil.mp chained] at same
      simpa [follow] using same.symm
  | cons requirement requirements ih =>
    rw [satisfyAll, bind_eq_ok]
    constructor
    · intro ⟨extended, head, tail⟩
      obtain ⟨first, chained, same⟩ := (each _ draft caps held extended).mp head
      subst same
      obtain ⟨rest, follows, same⟩ := (ih (held.follow first)).mp tail
      refine ⟨first ++ rest, chained_cons.mpr ⟨first, rest, chained, follows, rfl⟩, ?_⟩
      rw [same, follow_append]
      simp [held.length, range'_append_1]
    · intro ⟨visits, chained, same⟩
      obtain ⟨first, rest, head, tail, split⟩ := chained_cons.mp chained
      subst split
      refine ⟨draft.follow first, (each _ draft caps held _).mpr ⟨first, head, rfl⟩, ?_⟩
      apply (ih (held.follow first)).mpr
      refine ⟨rest, tail, ?_⟩
      rw [same, follow_append]
      simp [held.length, range'_append_1]

theorem chains_satisfyBy {needed : Precondition}
    (each : ∀ cap, chosen available needed.toEffect = some cap → cap.name ∉ visiting → ∀ further,
      Chains available (cap.name :: visiting) [further.toEffect] (deeper (cap.name :: visiting) further)) :
    Chains available visiting [needed.toEffect] (satisfyBy available deeper visiting needed) := by
  intro draft caps held after
  rw [satisfyBy]
  simp only [held.satisfied, chained_single]
  by_cases present : needed.toEffect ∈ outputs caps
  · simp [present, follow, eq_comm]
  cases choice : chosen available needed.toEffect with
  | none => simp [present]
  | some cap =>
    by_cases fresh : cap.name ∈ visiting
    · simp [present, fresh]
    simp only [present, fresh, if_false, false_and, not_false_eq_true, true_and, false_or, bind_eq_ok,
      some.injEq, Prod.exists]
    constructor
    · intro ⟨depends, extended, below, pushed⟩
      obtain ⟨chain, chained, same⟩ := (satisfyAll_eq_ok (each cap choice fresh) held).mp below
      rw [Prod.mk.injEq] at same
      refine ⟨_, ⟨cap, chain, rfl, fresh, chained, rfl⟩, ?_⟩
      have later := (held.follow chain).length
      rw [← Except.ok.inj pushed, same.1, same.2, later]
      simp [follow, Visit.step]
    · intro ⟨visits, ⟨taken, chain, same, _, chained, split⟩, follows⟩
      subst same
      have later := (held.follow chain).length
      refine ⟨_, _, (satisfyAll_eq_ok (each cap choice fresh) held).mpr ⟨chain, chained, rfl⟩, ?_⟩
      rw [follows, split, later]
      simp [follow, Visit.step]

private theorem mem_of_foldl {step : Option α → α → Option α} (steps : ∀ best item, step best item = best ∨
    step best item = some item) {items : List α} {start : Option α}
    (result : items.foldl step start = some last) : start = some last ∨ last ∈ items := by
  induction items generalizing start with
  | nil => exact .inl result
  | cons item items ih =>
    obtain reached | member := ih result
    · obtain kept | taken := steps start item
      · exact .inl (kept.symm.trans reached)
      · rw [some.inj (taken.symm.trans reached)]
        exact .inr mem_cons_self
    · exact .inr (mem_cons_of_mem _ member)

theorem mem_of_cheapest {candidates : List (SemanticCapability F)} (least : cheapest candidates = some cap) :
    cap ∈ candidates := by
  refine (mem_of_foldl ?_ least).resolve_left nofun
  intro best item
  cases best with
  | none => exact .inr rfl
  | some known =>
    dsimp only
    split
    · exact .inr rfl
    · exact .inl rfl

theorem of_chosen (choice : chosen available needed = some cap) : cap ∈ available ∧ cap.provided needed :=
  mem_filter.mp (mem_of_cheapest choice)

structure Path (available : List (SemanticCapability F)) (visiting : List String) : Prop where
  nodup : visiting.Nodup
  known : visiting ⊆ available.map SemanticCapability.name

theorem Path.length_le (path : Path available visiting) : visiting.length ≤ available.length := by
  have fewer := (subperm_of_subset path.nodup path.known).length_le
  simpa using fewer

theorem Path.cons (path : Path available visiting) (known : cap ∈ available) (fresh : cap.name ∉ visiting) :
    Path available (cap.name :: visiting) where
  nodup := nodup_cons.mpr ⟨fresh, path.nodup⟩
  known := cons_subset.mpr ⟨mem_map_of_mem known, path.known⟩

theorem chains_satisfy {depth : Nat} (path : Path available visiting)
    (deep : available.length ≤ depth + visiting.length) (needed : Precondition) :
    Chains available visiting [needed.toEffect] (satisfy available depth visiting needed) := by
  induction depth generalizing visiting needed with
  | zero =>
    apply chains_satisfyBy
    intro cap choice fresh
    have longer := (path.cons (of_chosen choice).1 fresh).length_le
    rw [length_cons] at longer
    omega
  | succ depth ih =>
    apply chains_satisfyBy
    intro cap choice fresh further
    apply ih (path.cons (of_chosen choice).1 fresh)
    rw [length_cons]
    omega

theorem satisfyGoals_eq_ok : satisfyGoals available goals = .ok draft ↔
      ∃ visits, Chained available [] [] goals visits ∧ draft = follow ⟨[], ∅⟩ visits := by
  have chains : Chains available [] goals fun draft => goals.foldlM
      (fun draft effect => satisfy available available.length [] effect.toPrecondition draft) draft := by
    have each (effect : Effect) : Chains available [] [effect]
        (satisfy available available.length [] effect.toPrecondition) :=
      chains_satisfy ⟨nodup_nil, nil_subset _⟩ (by simp) effect.toPrecondition
    induction goals with
    | nil =>
      intro draft caps held after
      simp [chained_nil, follow, pure, Except.pure, eq_comm]
    | cons goal goals ih =>
      intro draft caps held after
      simp only [foldlM_cons, bind_eq_ok]
      constructor
      · intro ⟨extended, head, tail⟩
        obtain ⟨first, chained, same⟩ := (each goal draft caps held extended).mp head
        subst same
        obtain ⟨rest, follows, same⟩ := (ih _ _ (held.follow first) after).mp tail
        exact ⟨first ++ rest, chained_cons.mpr ⟨first, rest, chained, follows, rfl⟩,
          same.trans (follow_append ..).symm⟩
      · intro ⟨visits, chained, same⟩
        obtain ⟨first, rest, head, tail, split⟩ := chained_cons.mp chained
        subst split
        refine ⟨draft.follow first, (each goal draft caps held _).mpr ⟨first, head, rfl⟩, ?_⟩
        exact (ih _ _ (held.follow first) after).mpr ⟨rest, tail, same.trans (follow_append ..)⟩
  exact chains ⟨[], ∅⟩ [] ⟨rfl, by simp [outputs]⟩ draft

/-- Each precondition of a step is met by an effect of an earlier step on which it depends. -/
def Executable (plan : ExecutionPlan F) : Prop :=
  ∀ (i : Nat) (step : PlannedStep F), plan.steps[i]? = some step → ∀ needed ∈ step.preconditions,
    ∃ j ∈ step.dependsOn, j < i ∧ ∃ provider : PlannedStep F, plan.steps[j]? = some provider ∧
      ∃ effect ∈ provider.effects, effect.kind = needed.kind

def Visit.Supplied (visit : Visit F) : Prop :=
  ∀ needed ∈ visit.cap.needs, ∃ provider ∈ visit.chain, provider.provided needed

/-- An effect that was at hand before the chain began, and that the chain does not provide. -/
def Visit.Reuses (visit : Visit F) (needed : Effect) : Prop :=
  needed ∈ outputs visit.before ∧ ¬ ∃ provider ∈ visit.chain, provider.provided needed

def Laid (visits : List (Visit F)) : Prop :=
  ∀ (i : Nat) (visit : Visit F), visits[i]? = some visit → (visits.take i).map Visit.cap = visit.before ++ visit.chain

theorem provided_iff : cap.provided needed ↔ ∃ effect ∈ cap.effects, effect.kind = needed.kind := by
  simp [SemanticCapability.provided, SemanticCapability.effects, effectMatches]

theorem provided_of_mem_effects (mem : needed ∈ cap.effects) : cap.provided needed :=
  provided_iff.mpr ⟨needed, mem, rfl⟩

theorem Laid.place (laid : Laid visits) {i : Nat} (found : visits[i]? = some visit) :
    i = visit.before.length + visit.chain.length ∧
      ∀ j, j < visit.chain.length → visits[visit.before.length + j]?.map Visit.cap = visit.chain[j]? := by
  have same := laid i visit found
  have position : i = visit.before.length + visit.chain.length := by
    have lengths := congrArg length same
    have bound := (List.getElem?_eq_some_iff.mp found).1
    simp only [length_map, length_take, length_append] at lengths
    omega
  refine ⟨position, ?_⟩
  intro j earlier
  have inside := congrArg (·[visit.before.length + j]?) same
  simpa [getElem?_take, position, earlier, getElem?_append_right] using inside

theorem depends_iff (laid : Laid visits) {i : Nat} (found : visits[i]? = some visit) :
    (∃ j ∈ visit.step.dependsOn, j < i ∧ ∃ provider : PlannedStep F,
      (visits.map Visit.step)[j]? = some provider ∧ ∃ effect ∈ provider.effects, effect.kind = needed.kind) ↔
    ∃ provider ∈ visit.chain, provider.provided needed := by
  obtain ⟨position, place⟩ := laid.place found
  constructor
  · intro ⟨j, depends, earlier, provider, there, effect, mem, same⟩
    rw [getElem?_map] at there
    obtain ⟨visited, placed, rfl⟩ := map_eq_some_iff.mp there
    have inside := mem_range'_1.mp depends
    have chained := place (j - visit.before.length) (by omega)
    rw [Nat.add_sub_cancel' inside.1, placed] at chained
    exact ⟨visited.cap, mem_of_getElem? chained.symm, provided_iff.mpr ⟨effect, mem, same⟩⟩
  · intro ⟨provider, mem, provides⟩
    obtain ⟨j, placed⟩ := getElem?_of_mem mem
    have earlier := (List.getElem?_eq_some_iff.mp placed).1
    have chained := place j earlier
    rw [placed] at chained
    obtain ⟨visited, there, rfl⟩ := map_eq_some_iff.mp chained
    refine ⟨visit.before.length + j, mem_range'_1.mpr (by omega), by omega, visited.step, ?_, ?_⟩
    · rw [getElem?_map, there, map_some]
    · exact provided_iff.mp provides

theorem executable_iff {arith : Arithmetic F} (laid : Laid visits) :
    Executable (finalize arith (visits.map Visit.step)) ↔ ∀ visit ∈ visits, visit.Supplied := by
  constructor
  · intro executable visit mem needed needs
    obtain ⟨i, found⟩ := getElem?_of_mem mem
    obtain ⟨requirement, required, rfl⟩ := mem_map.mp needs
    apply (depends_iff laid found).mp
    apply executable i visit.step (by simp [finalize, found])
    exact mem_map_of_mem required
  · intro supplied i step placed needed needs
    rw [finalize, getElem?_map] at placed
    obtain ⟨visit, found, rfl⟩ := map_eq_some_iff.mp placed
    obtain ⟨requirement, required, rfl⟩ := mem_map.mp needs
    have provided := supplied visit (mem_of_getElem? found) _ (mem_map_of_mem required)
    exact (depends_iff laid found).mpr provided

section Visits

variable {before : List (SemanticCapability F)} {needs : List Effect} {visits : List (Visit F)}

theorem Chained.take_eq (chained : Chained available visiting before needs visits)
    (found : visits[i]? = some visit) : before ++ (visits.take i).map Visit.cap = visit.before ++ visit.chain := by
  induction chained generalizing i visit with
  | done => cases found
  | met _ _ ih => exact ih found
  | @taken _ _ cap _ below _ visits _ _ _ _ _ chain rest =>
    obtain inside | outside := Nat.lt_or_ge i below.length
    · rw [getElem?_append_left inside] at found
      rw [take_append_of_le_length inside.le]
      exact chain found
    · obtain ⟨next, rfl⟩ := Nat.exists_eq_add_of_le outside
      rw [getElem?_append_right outside, Nat.add_sub_cancel_left] at found
      rw [take_append, take_of_length_le outside]
      cases next with
      | zero =>
        rw [getElem?_cons_zero, some.injEq] at found
        simp [← found]
      | succ next =>
        have further := rest found
        simpa using further

theorem Chained.laid (chained : Chained available visiting [] needs visits) : Laid visits := by
  intro i visit found
  exact chained.take_eq found

section

variable (chained : Chained available visiting before needs visits)
include chained

theorem Chained.chain (mem : visit ∈ visits) : ∃ path below,
      Chained available path visit.before visit.cap.needs below ∧ visit.chain = below.map Visit.cap := by
  induction chained with
  | done => cases mem
  | met _ _ ih => exact ih mem
  | taken _ _ _ chained _ chain rest =>
    obtain inside | here | later := by simpa using mem
    · exact chain inside
    · subst here
      exact ⟨_, _, chained, rfl⟩
    · exact rest later

theorem Chained.met_or_chained (mem : needed ∈ needs) :
    needed ∈ outputs before ∨ ∃ provider ∈ visits.map Visit.cap, provider.provided needed := by
  induction chained with
  | done => cases mem
  | met present _ ih =>
    obtain here | later := mem_cons.mp mem
    · exact .inl (here ▸ present)
    · exact ih later
  | @taken _ _ cap _ below _ visits _ choice _ _ _ _ rest =>
    obtain here | later := mem_cons.mp mem
    · subst here
      exact .inr ⟨cap, by simp, (of_chosen choice).2⟩
    obtain present | ⟨provider, visited, provides⟩ := rest later
    · obtain ⟨provider, among, effect⟩ := mem_flatMap.mp present
      simp only [mem_append, mem_singleton] at among
      obtain (early | inside) | here := among
      · exact .inl (mem_flatMap.mpr ⟨provider, early, effect⟩)
      · exact .inr ⟨provider, by simp [inside], provided_of_mem_effects effect⟩
      · exact .inr ⟨provider, by simp [here], provided_of_mem_effects effect⟩
    · exact .inr ⟨provider, by simp [visited], provides⟩

theorem Chained.supplied_iff
    (mem : visit ∈ visits) : visit.Supplied ↔ ∀ needed ∈ visit.cap.needs, ¬ visit.Reuses needed := by
  constructor
  · intro supplied needed needs reuses
    exact reuses.2 (supplied needed needs)
  · intro unreused needed needs
    obtain ⟨path, below, inner, same⟩ := chained.chain mem
    by_contra missing
    obtain present | chains := inner.met_or_chained needs
    · exact unreused needed needs ⟨present, missing⟩
    · exact missing (same ▸ chains)

end

end Visits

end Aafp.Discovery
