import Aafp.Discovery.PlannerChains

/-! The search that follows greedy chaining, and when the plan that comes out of both can be
executed in order. -/
namespace Aafp.Discovery

open Foundation SemanticCapability List Nat

variable {F : Type}

def capsOf (visits : List (Visit F)) : List (SemanticCapability F) := visits.map Visit.cap

def planOf (arith : Arithmetic F) (visits : List (Visit F)) : ExecutionPlan F :=
  finalize arith (visits.map Visit.step)

/-- How the search arranges capabilities: as long as an effect of the goal is missing, it adds a
provider of a missing effect. -/
inductive Arranged (maxSteps : Nat) (goals : List Effect) (available : List (SemanticCapability F)) :
    List (Visit F) → Prop where
  | empty : Arranged maxSteps goals available []
  | add (arranged : Arranged maxSteps goals available visits) (within : visits.length ≤ maxSteps)
      (unfinished : ¬ goals ⊆ outputs (capsOf visits))
      (wanted : needed ∈ goals ++ (capsOf visits).flatMap needs)
      (absent : needed ∉ outputs (capsOf visits)) (known : cap ∈ available) (provides : cap.provided needed) :
      Arranged maxSteps goals available (visits ++ [⟨[], cap, capsOf visits⟩])

variable {arith : Arithmetic F} {planner : HeuristicPlanner F} {order : PopOrder F} {goals : List Effect}
  {available : List (SemanticCapability F)} {visits : List (Visit F)}

theorem Arranged.laid (arranged : Arranged maxSteps goals available visits) : Laid visits := by
  induction arranged with
  | empty =>
    intro i visit found
    cases found
  | @add visits _ cap _ _ _ _ _ _ _ ih =>
    intro i visit found
    obtain earlier | last := lt_or_ge i visits.length
    · rw [getElem?_append_left earlier] at found
      rw [take_append_of_le_length earlier.le]
      exact ih i visit found
    · have position := (List.getElem?_eq_some_iff.mp found).1
      rw [length_append, length_singleton] at position
      obtain rfl : i = visits.length := by omega
      simp at found
      simp [← found, capsOf]

/-- An arrangement that is taken in place of a plan: it reaches the goal, provides all that it needs
somewhere, and is better. -/
structure Improves (arith : Arithmetic F) (planner : HeuristicPlanner F) (goals : List Effect)
    (available : List (SemanticCapability F)) (reference : ExecutionPlan F) (visits : List (Visit F)) : Prop where
  arranged : Arranged planner.maxSteps goals available visits
  within : visits.length ≤ planner.maxSteps
  reached : goals ⊆ outputs (capsOf visits)
  met : (capsOf visits).flatMap needs ⊆ outputs (capsOf visits)
  better : arith.less (planner.objective arith (planOf arith visits)) (planner.objective arith reference)

structure SearchNode.Holds (node : SearchNode F) (visits : List (Visit F)) : Prop where
  steps : node.steps = visits.map Visit.step
  satisfied : ∀ effect, effect ∈ node.satisfied ↔ effect ∈ outputs (capsOf visits)

variable {node : SearchNode F}

section

variable (held : node.Holds visits)
include held

theorem SearchNode.Holds.extend (cap : SemanticCapability F) :
    (planner.extend arith goals available node cap).Holds (visits ++ [⟨[], cap, capsOf visits⟩]) where
  steps := by
    simp [HeuristicPlanner.extend, held.steps, Visit.step, capsOf, range_eq_range']
  satisfied effect := by
    rw [HeuristicPlanner.extend, HashSet.mem_insertAll, held.satisfied]
    simp [capsOf, outputs, effects]

theorem SearchNode.Holds.preconditions :
    (node.steps.flatMap fun step => step.preconditions.map Precondition.toEffect) =
      (capsOf visits).flatMap needs := by
  rw [held.steps, capsOf, flatMap_map, flatMap_map]
  congr 1
  funext visit
  simp [Visit.step, plannedStep, needs]

theorem SearchNode.Holds.expand {next : SearchNode F}
    (arranged : Arranged planner.maxSteps goals available visits) (within : visits.length ≤ planner.maxSteps)
    (unfinished : ¬ goals ⊆ outputs (capsOf visits)) (mem : next ∈ planner.expand arith goals available node) :
    ∃ further, Arranged planner.maxSteps goals available further ∧ next.Holds further := by
  obtain ⟨needed, opened, mem⟩ := mem_flatMap.mp mem
  obtain ⟨cap, candidate, rfl⟩ := mem_map.mp mem
  obtain ⟨known, provides⟩ := mem_filter.mp candidate
  obtain ⟨wanted, absent⟩ := mem_filter.mp opened
  rw [held.preconditions] at wanted
  have missing : needed ∉ outputs (capsOf visits) := by
    simpa [held.satisfied] using absent
  exact ⟨_, .add arranged within unfinished wanted missing known provides, held.extend cap⟩

theorem SearchNode.Holds.preconditionsMet_iff : HeuristicPlanner.preconditionsMet node ↔
      (capsOf visits).flatMap needs ⊆ outputs (capsOf visits) := by
  have all : HeuristicPlanner.preconditionsMet node ↔
      ∀ effect ∈ node.steps.flatMap fun step => step.preconditions.map Precondition.toEffect,
        effect ∈ node.satisfied := by
    simp only [HeuristicPlanner.preconditionsMet, all_eq_true, mem_flatMap, mem_map]
    grind
  rw [all, held.preconditions]
  simp only [held.satisfied]
  rfl

end

def Refined (arith : Arithmetic F) (planner : HeuristicPlanner F) (goals : List Effect)
    (available : List (SemanticCapability F)) (greedy best : ExecutionPlan F) : Prop :=
  best = greedy ∨ ∃ visits, Improves arith planner goals available greedy visits ∧ best = planOf arith visits

theorem refined_improve (refined : Refined arith planner goals available greedy best)
    (held : node.Holds visits) (arranged : Arranged planner.maxSteps goals available visits)
    (within : visits.length ≤ planner.maxSteps) (reached : goals ⊆ outputs (capsOf visits)) :
    Refined arith planner goals available greedy (planner.improve arith best node) := by
  rw [HeuristicPlanner.improve]
  split
  case isFalse => exact refined
  case isTrue taken =>
    rw [held.preconditionsMet_iff, held.steps] at taken
    have better : arith.less (planner.objective arith (planOf arith visits)) (planner.objective arith greedy) := by
      obtain same | ⟨former, improves, same⟩ := refined
      · rw [← same]
        exact taken.2
      · exact arith.less_trans _ _ _ (same ▸ taken.2) improves.better
    exact .inr ⟨visits, ⟨arranged, within, reached, taken.1, better⟩, by rw [held.steps, planOf]⟩

theorem refined_refineLoop (iterations : Nat)
    (nodes : ∀ node ∈ opened, ∃ visits, Arranged planner.maxSteps goals available visits ∧ node.Holds visits)
    (refined : Refined arith planner goals available greedy best) : Refined arith planner goals available greedy
      (planner.refineLoop arith order goals available iterations opened best) := by
  induction iterations generalizing opened best with
  | zero => exact refined
  | succ iterations ih =>
    rw [HeuristicPlanner.refineLoop]
    split
    · exact refined
    next node rest popped =>
    have perm := order.perm opened node rest popped
    obtain ⟨visits, arranged, held⟩ := nodes node (perm.mem_iff.mp mem_cons_self)
    have others : ∀ node ∈ rest, ∃ visits, Arranged planner.maxSteps goals available visits ∧ node.Holds visits := by
      intro other mem
      exact nodes other (perm.mem_iff.mp (mem_cons_of_mem _ mem))
    have length : node.steps.length = visits.length := by rw [held.steps, length_map]
    have reached : (goals.all fun effect => effect ∈ node.satisfied) ↔ goals ⊆ outputs (capsOf visits) := by
      simp only [all_eq_true, decide_eq_true_eq, held.satisfied]
      rfl
    split
    · exact ih others refined
    next within =>
    rw [length, not_lt] at within
    split
    next goal => exact ih others (refined_improve refined held arranged within (reached.mp goal))
    next unfinished =>
      apply ih _ refined
      intro next mem
      obtain old | new := mem_append.mp mem
      · exact others next old
      · exact held.expand arranged within (fun goal => unfinished (reached.mpr goal)) new

theorem refined_astarRefine (arith : Arithmetic F) (planner : HeuristicPlanner F) (order : PopOrder F)
    (goal : CapabilityQuery F) (available : List (SemanticCapability F)) (greedy : ExecutionPlan F) :
    Refined arith planner (goalToOutputEffects goal available) available greedy
      (planner.astarRefine arith order goal available greedy) := by
  apply refined_refineLoop _ _ (.inl rfl)
  intro node mem
  obtain rfl := mem_singleton.mp mem
  exact ⟨[], .empty, rfl, by simp [capsOf, outputs]⟩

structure Accepted (arith : Arithmetic F) (planner : HeuristicPlanner F) (goal : CapabilityQuery F)
    (available : List (SemanticCapability F)) (visits : List (Visit F)) : Prop where
  chained : Chained available [] [] (goalToOutputEffects goal available) visits
  withinSteps : visits.length ≤ planner.maxSteps
  withinCost : (planOf arith visits).estimatedTotalCostMicroUsd ≤ planner.maxCostMicroUsd

theorem plan_eq_ok :
    planner.plan arith order goal available = .ok plan ↔ ∃ visits, Accepted arith planner goal available visits ∧
      plan = planner.astarRefine arith order goal available (planOf arith visits) := by
  rw [HeuristicPlanner.plan, HeuristicPlanner.greedyPlan]
  simp only [bind_eq_ok, satisfyGoals_eq_ok, Except.ok.injEq]
  constructor
  · rintro ⟨greedy, ⟨draft, ⟨visits, chained, follows⟩, finalized⟩, accepted⟩
    have same : greedy = planOf arith visits := by
      rw [← finalized, follows, Draft.steps_follow, nil_append, planOf]
    subst same
    have length : (planOf arith visits).steps.length = visits.length := by simp [planOf, finalize]
    rw [length] at accepted
    split at accepted
    · cases accepted
    next fewer =>
    split at accepted
    · cases accepted
    next cheaper =>
    exact ⟨visits, ⟨chained, not_lt.mp fewer, UInt64.not_lt.mp cheaper⟩, (Except.ok.inj accepted).symm⟩
  · rintro ⟨visits, accepted, same⟩
    refine ⟨planOf arith visits, ⟨_, ⟨visits, accepted.chained, rfl⟩, ?_⟩, ?_⟩
    · rw [Draft.steps_follow, nil_append, planOf]
    · have length : (planOf arith visits).steps.length = visits.length := by simp [planOf, finalize]
      rw [length, if_neg (not_lt.mpr accepted.withinSteps), if_neg (UInt64.not_lt.mpr accepted.withinCost), same]

/-- The plan can be executed in order if greedy chaining reuses nothing from before a chain, and no
better arrangement has a capability before what it needs. -/
theorem plan_executable_when (arith : Arithmetic F) (planner : HeuristicPlanner F) (order : PopOrder F)
    (goal : CapabilityQuery F) (available : List (SemanticCapability F)) :
    ((∀ greedy, Accepted arith planner goal available greedy →
        (∀ visit ∈ greedy, ∀ needed ∈ visit.cap.needs, ¬ visit.Reuses needed) ∧
        ∀ arranged, Improves arith planner (goalToOutputEffects goal available) available
          (planOf arith greedy) arranged → ∀ visit ∈ arranged, visit.Supplied) →
      ∀ plan, planner.plan arith order goal available = .ok plan → Executable plan) ∧
    ((∀ greedy arranged, Accepted arith planner goal available greedy →
        ¬ Improves arith planner (goalToOutputEffects goal available) available (planOf arith greedy) arranged) →
      (∀ plan, planner.plan arith order goal available = .ok plan → Executable plan) →
      ∀ greedy, Accepted arith planner goal available greedy →
        ∀ visit ∈ greedy, ∀ needed ∈ visit.cap.needs, ¬ visit.Reuses needed) := by
  constructor
  · intro sound plan planned
    obtain ⟨greedy, accepted, same⟩ := plan_eq_ok.mp planned
    obtain ⟨unreused, ordered⟩ := sound greedy accepted
    obtain kept | ⟨arranged, improves, taken⟩ :=
      refined_astarRefine arith planner order goal available (planOf arith greedy)
    · rw [same, kept]
      apply (executable_iff accepted.chained.laid).mpr
      intro visit mem
      exact (accepted.chained.supplied_iff mem).mpr (unreused visit mem)
    · rw [same, taken]
      exact (executable_iff improves.arranged.laid).mpr (ordered arranged improves)
  · intro none executable greedy accepted visit mem
    have planned := executable _ (plan_eq_ok.mpr ⟨greedy, accepted, rfl⟩)
    obtain kept | ⟨arranged, improves, _⟩ :=
      refined_astarRefine arith planner order goal available (planOf arith greedy)
    · rw [kept] at planned
      exact (accepted.chained.supplied_iff mem).mp ((executable_iff accepted.chained.laid).mp planned visit mem)
    · exact absurd improves (none greedy arranged accepted)

/-- The cost of a plan is the sum of the costs of its steps, if the sum fits. -/
def ExecutionPlan.CostsAddUp (plan : ExecutionPlan F) : Prop :=
  (plan.steps.map (·.estimatedCostMicroUsd.toNat)).sum < 2 ^ 64 →
    plan.estimatedTotalCostMicroUsd.toNat = (plan.steps.map (·.estimatedCostMicroUsd.toNat)).sum

/-- A plan that is returned is within both budgets, and its costs add up. -/
def KeepsBudgets (arith : Arithmetic F) (planner : HeuristicPlanner F) (order : PopOrder F)
    (goal : CapabilityQuery F) (available : List (SemanticCapability F)) : Prop :=
  ∀ plan, planner.plan arith order goal available = .ok plan → plan.steps.length ≤ planner.maxSteps ∧
    plan.CostsAddUp ∧ plan.estimatedTotalCostMicroUsd ≤ planner.maxCostMicroUsd

theorem toNat_foldl_add (costs : List UInt64) (start : UInt64) :
    (costs.foldl (· + ·) start).toNat = (start.toNat + (costs.map UInt64.toNat).sum) % 2 ^ 64 := by
  induction costs generalizing start with
  | nil => exact (mod_eq_of_lt start.toNat_lt).symm
  | cons cost costs ih =>
    rw [foldl_cons, ih, UInt64.toNat_add, map_cons, sum_cons]
    omega

theorem costsAddUp_planOf (arith : Arithmetic F) (visits : List (Visit F)) : (planOf arith visits).CostsAddUp := by
  intro fits
  rw [planOf, finalize, toNat_foldl_add, map_map, UInt64.toNat_zero, zero_add]
  exact mod_eq_of_lt fits

/-- Only the cost of the plan of greedy chaining is checked, so the better arrangements must be
within the budget on their own. -/
theorem keepsBudgets_when (arith : Arithmetic F) (planner : HeuristicPlanner F) (order : PopOrder F)
    (goal : CapabilityQuery F) (available : List (SemanticCapability F)) :
    (∀ plan, planner.plan arith order goal available = .ok plan →
      plan.steps.length ≤ planner.maxSteps ∧ plan.CostsAddUp) ∧
    ((∀ greedy arranged, Accepted arith planner goal available greedy →
        Improves arith planner (goalToOutputEffects goal available) available (planOf arith greedy) arranged →
        (planOf arith arranged).estimatedTotalCostMicroUsd ≤ planner.maxCostMicroUsd) →
      KeepsBudgets arith planner order goal available) := by
  have length (visits : List (Visit F)) : (planOf arith visits).steps.length = visits.length := by
    simp [planOf, finalize]
  have always : ∀ plan, planner.plan arith order goal available = .ok plan →
      plan.steps.length ≤ planner.maxSteps ∧ plan.CostsAddUp := by
    intro plan planned
    obtain ⟨greedy, accepted, rfl⟩ := plan_eq_ok.mp planned
    obtain kept | ⟨arranged, improves, taken⟩ :=
      refined_astarRefine arith planner order goal available (planOf arith greedy)
    · rw [kept, length]
      exact ⟨accepted.withinSteps, costsAddUp_planOf arith greedy⟩
    · rw [taken, length]
      exact ⟨improves.within, costsAddUp_planOf arith arranged⟩
  refine ⟨always, fun cheap plan planned => ?_⟩
  obtain ⟨within, adds⟩ := always plan planned
  refine ⟨within, adds, ?_⟩
  obtain ⟨greedy, accepted, rfl⟩ := plan_eq_ok.mp planned
  obtain kept | ⟨arranged, improves, taken⟩ :=
    refined_astarRefine arith planner order goal available (planOf arith greedy)
  · rw [kept]
    exact accepted.withinCost
  · rw [taken]
    exact cheap greedy arranged accepted improves

def countingArithmetic : Arithmetic Nat where
  zero := 0
  one := 1
  infinity := 1000000
  add := (· + ·)
  sub := (· - ·)
  mul := (· * ·)
  min := min
  ofNat := id
  less first second := first < second
  less_trans first second third := by
    simp only [decide_eq_true_eq]
    exact Nat.lt_trans

/-- Take out the first of the nodes with the least `f = g + h`. -/
def popLeast : List (SearchNode Nat) → Option (SearchNode Nat × List (SearchNode Nat))
  | [] => none
  | node :: nodes =>
    match popLeast nodes with
    | none => some (node, [])
    | some (least, rest) =>
      if least.g + least.h < node.g + node.h then some (least, node :: rest) else some (node, nodes)

theorem perm_popLeast {node : SearchNode Nat}
    (popped : popLeast nodes = some (node, rest)) : (node :: rest).Perm nodes := by
  induction nodes generalizing node rest with
  | nil => cases popped
  | cons head nodes ih =>
    rw [popLeast] at popped
    cases tail : popLeast nodes with
    | none =>
      cases nodes with
      | nil => simp_all
      | cons next nodes =>
        rw [popLeast] at tail
        grind
    | some found =>
      simp only [tail] at popped
      split at popped
      · obtain ⟨rfl, rfl⟩ := Prod.mk.inj (Option.some.inj popped)
        exact (List.Perm.swap ..).trans ((ih tail).cons head)
      · obtain ⟨rfl, rfl⟩ := Prod.mk.inj (Option.some.inj popped)
        exact List.Perm.refl _

def leastFirst : PopOrder Nat := ⟨popLeast, fun _ _ _ => perm_popLeast⟩

def tool (name : String) (cost : UInt64) (latency : Nat) (requires provides : List String) :
    SemanticCapability Nat where
  name
  avgLatencyMs := latency
  perInvocationMicroUsd := cost
  requirements := requires.map fun kind => ⟨kind⟩
  provides := provides.map fun kind => ⟨kind, []⟩

def fetchTool : SemanticCapability Nat := tool "fetch" 1 1 [] ["page"]

def parseTool : SemanticCapability Nat := tool "parse" 1 1 ["page"] ["text"]

def extractTool : SemanticCapability Nat := tool "extract" 1 1 ["page"] ["links"]

def reportTool : SemanticCapability Nat := tool "report" 1 1 ["text", "links"] ["report"]

def crawlTool : SemanticCapability Nat := tool "crawl" 10 100 [] ["text", "links"]

def linksTool : SemanticCapability Nat := tool "links" 100 1 [] ["links"]

/-- The page that `parse` and `extract` share is fetched once. With latency as the aim, `parse`
comes before `fetch`. -/
theorem out_of_order_plans :
    (∃ plan, HeuristicPlanner.plan countingArithmetic ⟨16, 1000000, 1⟩ leastFirst ⟨"report", fun _ => true⟩
        [fetchTool, parseTool, extractTool, reportTool] = .ok plan ∧ ¬ Executable plan) ∧
    ∃ plan, HeuristicPlanner.plan countingArithmetic ⟨3, 1000000, 1⟩ leastFirst ⟨"crawl", fun _ => true⟩
        [crawlTool, parseTool, fetchTool, linksTool] = .ok plan ∧ ¬ Executable plan := by
  refine ⟨⟨finalize countingArithmetic [plannedStep 0 fetchTool [], plannedStep 1 parseTool [0],
    plannedStep 2 extractTool [], plannedStep 3 reportTool [0, 1, 2]], by decide +kernel, ?_⟩,
    ⟨finalize countingArithmetic [plannedStep 0 parseTool [], plannedStep 1 fetchTool [0],
      plannedStep 2 linksTool [0, 1]], by decide +kernel, ?_⟩⟩
  · intro executable
    obtain ⟨j, depends, _⟩ := executable 2 (plannedStep 2 extractTool []) rfl ⟨"page", []⟩ mem_cons_self
    cases depends
  · intro executable
    obtain ⟨j, depends, _⟩ := executable 0 (plannedStep 0 parseTool []) rfl ⟨"page", []⟩ mem_cons_self
    cases depends

/-- With latency as the aim and a budget of 10, `scan` for 1 is replaced by `links` for 100. -/
theorem expensive_plan : HeuristicPlanner.plan countingArithmetic ⟨16, 10, 1⟩ leastFirst ⟨"links", fun _ => true⟩
      [linksTool, tool "scan" 1 9 [] ["links"]] = .ok (finalize countingArithmetic [plannedStep 0 linksTool []]) ∧
    ¬ KeepsBudgets countingArithmetic ⟨16, 10, 1⟩ leastFirst ⟨"links", fun _ => true⟩
      [linksTool, tool "scan" 1 9 [] ["links"]] := by
  have planned : HeuristicPlanner.plan countingArithmetic ⟨16, 10, 1⟩ leastFirst ⟨"links", fun _ => true⟩
      [linksTool, tool "scan" 1 9 [] ["links"]] = .ok (finalize countingArithmetic [plannedStep 0 linksTool []]) := by
    decide +kernel
  exact ⟨planned, fun keeps => absurd (keeps _ planned).2.2 (by decide)⟩

end Aafp.Discovery
