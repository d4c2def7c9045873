import Aafp.Economics.Priority
import Aafp.Foundation.Bytes

/-! The factors of a priority score, and how far apart they keep the bands. -/
namespace Aafp.Economics

open Foundation

/-- A factor that is computed for every input, as a number up to 1000 that does not fall. -/
def Graded (before : ι → ι → Prop) (factor : ι → Option Int64) : Prop :=
  ∃ number : ι → Nat, (∀ input, (factor input).map Int64.toInt = some (number input : Int) ∧ number input ≤ 1000) ∧
    ∀ first second, before first second → number first ≤ number second

theorem Graded.computed {factor : ι → Option Int64} (graded : Graded before factor) (input : ι) :
    ∃ value, factor input = some value ∧ 0 ≤ value.toInt ∧ value.toInt ≤ 1000 := by
  obtain ⟨number, computed, -⟩ := graded
  obtain ⟨value, found, same⟩ := Option.map_eq_some_iff.mp (computed input).1
  have bounded := (computed input).2
  exact ⟨value, found, by omega⟩

/-- A part of a whole in thousandths, where the product stops at the largest signed word. -/
def milliOf (part whole : Nat) : Nat := min (1000 * part) (2 ^ 63 - 1) / whole

theorem milliOf_le_milliOf (below : part ≤ other) (whole : Nat) : milliOf part whole ≤ milliOf other whole :=
  Nat.div_le_div_right (by omega)

theorem milliOf_le (covered : part ≤ whole) : milliOf part whole ≤ 1000 := Nat.div_le_of_le_mul (by omega)

@[simp] theorem milliOf_zero : milliOf 0 whole = 0 := by simp [milliOf]

theorem checkedDivInt_tdiv {part whole : Int64} (some : whole.toInt ≠ 0) (other : whole.toInt ≠ -1) :
    (checkedDivInt part whole).map Int64.toInt = .some (part.toInt.tdiv whole.toInt) := by
  have notZero : whole ≠ 0 := fun same => some (congrArg Int64.toInt same)
  have notMinus : whole ≠ -1 := fun same => other (congrArg Int64.toInt same)
  rw [checkedDivInt, if_neg (by simp [notZero, notMinus]), Option.map_some,
    Int64.toInt_div_of_ne_right _ _ notMinus]

theorem toInt_thousandfold (part : Int64) :
    (saturatingMulInt 1000 part).toInt = max (-2 ^ 63) (min (1000 * part.toInt) (2 ^ 63 - 1)) := by
  rw [saturatingMulInt, toInt_ofIntClamp]
  rfl

theorem checkedDivInt_milliOf {part whole : Int64} (parts : part.toInt = (count : Nat))
    (wholes : whole.toInt = (size : Nat)) (positive : 0 < size) :
    (checkedDivInt (saturatingMulInt 1000 part) whole).map Int64.toInt = some (milliOf count size : Int) := by
  have product : (saturatingMulInt 1000 part).toInt = (min (1000 * count) (2 ^ 63 - 1) : Nat) := by
    rw [toInt_thousandfold]
    omega
  rw [checkedDivInt_tdiv (by omega) (by omega), product, wholes]
  rfl

/-- The rest of a whole in thousandths, as the signed words give it. From half of the unsigned words
on, a rest or a whole counts as negative. -/
def shareOf (rest whole : Nat) : Int :=
  if whole < 2 ^ 63 then milliOf rest whole
  else if rest < 2 ^ 63 then -milliOf rest (2 ^ 64 - whole)
  else (min (1000 * (2 ^ 64 - rest)) (2 ^ 63) / (2 ^ 64 - whole) : Nat)

@[simp] theorem shareOf_zero : shareOf 0 whole = 0 := by simp [shareOf]

theorem checkedDivInt_rest {used whole : UInt64} (left : used < whole) (limited : whole ≠ u64Max) :
    (checkedDivInt (saturatingMulInt 1000 (whole - used).toInt64) whole.toInt64).map Int64.toInt =
      some (shareOf (whole.toNat - used.toNat) whole.toNat) := by
  have parts := UInt64.toNat_sub_of_le _ _ (UInt64.le_of_lt left)
  have size := whole.toNat_lt
  have most : whole.toNat ≠ 2 ^ 64 - 1 := fun same => limited (UInt64.toNat.inj same)
  rw [UInt64.lt_iff_toNat_lt] at left
  rw [← parts, shareOf]
  split_ifs with small near
  · exact checkedDivInt_milliOf (by rw [toInt_toInt64, if_pos (by omega)]) (by rw [toInt_toInt64, if_pos small])
      (by omega)
  all_goals
    have negative : whole.toInt64.toInt = -((2 ^ 64 - whole.toNat : Nat) : Int) := by
      rw [toInt_toInt64, if_neg small]
      omega
    rw [checkedDivInt_tdiv (by omega) (by omega), negative, Int.tdiv_neg, toInt_thousandfold, toInt_toInt64]
  · have product : max (-2 ^ 63) (min (1000 * ((whole - used).toNat : Int)) (2 ^ 63 - 1)) =
        (min (1000 * (whole - used).toNat) (2 ^ 63 - 1) : Nat) := by omega
    rw [if_pos near, product]
    rfl
  · have below := (whole - used).toNat_lt
    have product : max (-2 ^ 63) (min (1000 * ((whole - used).toNat - 2 ^ 64 : Int)) (2 ^ 63 - 1)) =
        -((min (1000 * (2 ^ 64 - (whole - used).toNat)) (2 ^ 63) : Nat) : Int) := by omega
    rw [if_neg near, product, Int.neg_tdiv, neg_neg]
    rfl

theorem shareOf_half (part : rest ≤ 2 ^ 63) : shareOf rest (2 ^ 63) = (rest / 2 ^ 63 : Nat) := by
  rw [shareOf, if_neg (by omega)]
  split_ifs
  · rw [milliOf, Nat.div_eq_of_lt (by omega), Nat.div_eq_of_lt (by omega)]
    rfl
  · omega

theorem shareOf_mem (small : whole ≤ 2 ^ 63) (part : rest ≤ whole) :
    0 ≤ shareOf rest whole ∧ shareOf rest whole ≤ 1000 := by
  rcases Nat.lt_or_eq_of_le small with less | rfl
  · have share := milliOf_le part
    rw [shareOf, if_pos less]
    omega
  · rw [shareOf_half part]
    omega

theorem shareOf_le_shareOf (small : whole ≤ 2 ^ 63) (nearer : rest ≤ other) (part : other ≤ whole) :
    shareOf rest whole ≤ shareOf other whole := by
  rcases Nat.lt_or_eq_of_le small with less | rfl
  · rw [shareOf, shareOf, if_pos less, if_pos less]
    exact Int.ofNat_le.mpr (milliOf_le_milliOf nearer whole)
  · rw [shareOf_half part, shareOf_half (Nat.le_trans nearer part)]
    omega

/-- With a negative rest and a negative whole, the share is at its bound already. -/
theorem shareOf_late (negative : 2 ^ 63 ≤ rest) (part : rest ≤ whole) (size : whole < 2 ^ 64) :
    min (shareOf rest whole) 1000 = min ((2 ^ 63 / (2 ^ 64 - whole) : Nat) : Int) 1000 := by
  rw [shareOf, if_neg (by omega), if_neg (by omega)]
  by_cases wide : 2 ^ 63 ≤ 1000 * (2 ^ 64 - whole)
  · rw [Nat.min_eq_right (by omega)]
  · have atLeast : ∀ product, 1000 * (2 ^ 64 - whole) ≤ product → 1000 ≤ product / (2 ^ 64 - whole) := by
      intro product enough
      exact (Nat.le_div_iff_mul_le (by omega)).mpr enough
    have first := atLeast (min (1000 * (2 ^ 64 - rest)) (2 ^ 63)) (by omega)
    have second := atLeast (2 ^ 63) (by omega)
    omega

theorem clamped_shareOf_le (nearer : rest ≤ other) (part : other ≤ whole) (size : whole < 2 ^ 64) :
    max 0 (min (shareOf rest whole) 1000) ≤ max 0 (min (shareOf other whole) 1000) := by
  by_cases small : whole < 2 ^ 63
  · have := shareOf_le_shareOf (Nat.le_of_lt small) nearer part
    omega
  by_cases early : rest < 2 ^ 63
  · have falls : shareOf rest whole ≤ 0 := by
      rw [shareOf, if_neg small, if_pos early]
      omega
    omega
  · rw [shareOf_late (by omega) (by omega) size, shareOf_late (by omega) part size]

/-- How far below zero a share can fall. -/
def shortfall (whole : Nat) : Nat := if whole < 2 ^ 63 then 0 else (2 ^ 63 - 1) / (2 ^ 64 - whole)

/-- The greatest share. -/
def surplus (whole : Nat) : Nat := if whole < 2 ^ 63 then milliOf whole whole else 2 ^ 63 / (2 ^ 64 - whole)

theorem shareOf_between (part : rest ≤ whole) :
    -(shortfall whole : Int) ≤ shareOf rest whole ∧ shareOf rest whole ≤ surplus whole := by
  by_cases small : whole < 2 ^ 63
  · have rise := milliOf_le_milliOf part whole
    rw [shareOf, shortfall, surplus, if_pos small, if_pos small, if_pos small]
    omega
  by_cases near : rest < 2 ^ 63
  · have positive : milliOf rest (2 ^ 64 - whole) ≤ shortfall whole := by
      rw [shortfall, if_neg small]
      exact Nat.div_le_div_right (Nat.min_le_right _ _)
    rw [shareOf, if_neg small, if_pos near]
    omega
  · have negative : min (1000 * (2 ^ 64 - rest)) (2 ^ 63) / (2 ^ 64 - whole) ≤ surplus whole := by
      rw [surplus, if_neg small]
      exact Nat.div_le_div_right (Nat.min_le_right _ _)
    rw [shareOf, if_neg small, if_neg near]
    exact ⟨Int.le_trans (by omega) (Int.natCast_nonneg _), Int.ofNat_le.mpr negative⟩

theorem shareOf_least (whole : Nat) :
    shareOf (if whole < 2 ^ 63 then 0 else 2 ^ 63 - 1) whole = -(shortfall whole : Int) := by
  unfold shortfall
  split_ifs with small
  · simp
  · rw [shareOf, if_neg small, if_pos (by omega)]
    rfl

theorem shareOf_most (whole : Nat) :
    shareOf (if whole < 2 ^ 63 then whole else 2 ^ 63) whole = surplus whole := by
  unfold surplus shareOf
  split_ifs
  · rfl
  · omega
  · rfl

theorem toInt_clampMilli (value : Int64) : (clampMilli value).toInt = max 0 (min value.toInt 1000) := by
  have least : Int64.toInt 0 = 0 := rfl
  have greatest : Int64.toInt 1000 = 1000 := rfl
  simp only [clampMilli, Int64.lt_iff_toInt_lt]
  split_ifs <;> omega

/-- A task that only needs the processor. -/
def ofCpu (cpuMs : UInt64) : ResourceUsage := { ResourceUsage.zero with cpuMs }

namespace PriorityConfig

variable {config : PriorityConfig} {horizon : UInt64}

theorem costFactor_graded (positive : 0 < config.maxCostMilli) : Graded (· ≤ ·) config.costFactor := by
  simp only [Int64.lt_iff_toInt_lt, Int64.toInt_zero] at positive
  have bounded : ∀ cost : Int64, cost.toInt < config.maxCostMilli.toInt →
      milliOf cost.toInt.toNat config.maxCostMilli.toInt.toNat ≤ 1000 := fun cost below => milliOf_le (by omega)
  refine ⟨fun cost => if config.maxCostMilli ≤ cost then 1000
    else milliOf cost.toInt.toNat config.maxCostMilli.toInt.toNat, ?_, ?_⟩
  all_goals simp only [costFactor, Int64.le_iff_toInt_le, Int64.toInt_zero]
  · intro cost
    split_ifs with none most most
    · omega
    · simp [Int.toNat_of_nonpos none]
    · exact ⟨rfl, le_rfl⟩
    · exact ⟨checkedDivInt_milliOf (by omega) (by omega) (by omega), bounded cost (by omega)⟩
  · intro first second ordered
    have rise := milliOf_le_milliOf (Int.toNat_le_toNat ordered) config.maxCostMilli.toInt.toNat
    grind

/-- The capacity as a number. -/
abbrev capacity (config : PriorityConfig) : Nat := config.resourceCapacity.toNat

theorem resourceFactor_share (limited : config.resourceCapacity ≠ u64Max) (usage : ResourceUsage) :
    (config.resourceFactor usage).map Int64.toInt =
      some (shareOf (config.capacity - usage.weightedTotal.toNat) config.capacity) := by
  unfold resourceFactor
  split_ifs with empty full
  · simp [capacity, empty]
  · simp [Nat.sub_eq_zero_of_le (UInt64.le_iff_toNat_le.mp full)]
  · exact checkedDivInt_rest (UInt64.not_le.mp full) limited

theorem weightedTotal_cpuMs (cpuMs : UInt64) : (ofCpu cpuMs).weightedTotal = cpuMs := by
  have unchanged : ∀ word, saturatingAdd word 0 = word := by
    intro word
    rw [saturatingAdd, if_pos (by exact word.toNat_lt)]
    exact UInt64.add_zero word
  change saturatingAdd (saturatingAdd (saturatingAdd (saturatingAdd (saturatingAdd cpuMs 0) 0) 0) 0) 0 = cpuMs
  simp only [unchanged]

theorem exists_resourceFactor (limited : config.resourceCapacity ≠ u64Max) (rest : Nat)
    (part : rest ≤ config.capacity) : ∃ cpuMs factor,
      config.resourceFactor (ofCpu cpuMs) = some factor ∧
        factor.toInt = shareOf rest config.capacity := by
  have share := resourceFactor_share limited
    (ofCpu (.ofNat (config.capacity - rest)))
  obtain ⟨factor, computed, same⟩ := Option.map_eq_some_iff.mp share
  refine ⟨_, factor, computed, ?_⟩
  have fits := Nat.lt_of_le_of_lt (Nat.sub_le config.capacity rest) (UInt64.toNat_lt_size _)
  rw [same, weightedTotal_cpuMs, UInt64.toNat_ofNat_of_lt' fits, Nat.sub_sub_self part]

theorem resourceFactor_unlimited (unlimited : config.resourceCapacity = u64Max) :
    config.resourceFactor (ofCpu 18014398509481984) = none := by
  rw [resourceFactor, unlimited]
  decide +kernel

theorem resourceFactor_graded_iff :
    Graded (fun usage other => other.weightedTotal ≤ usage.weightedTotal) config.resourceFactor ↔
      config.capacity ≤ 2 ^ 63 := by
  constructor
  · intro graded
    by_contra wide
    have limited : config.resourceCapacity ≠ u64Max := by
      intro unlimited
      obtain ⟨value, computed, -⟩ := graded.computed (ofCpu 18014398509481984)
      rw [resourceFactor_unlimited unlimited] at computed
      cases computed
    obtain ⟨cpuMs, factor, computed, same⟩ := exists_resourceFactor limited (2 ^ 63 - 1) (by omega)
    obtain ⟨value, again, nonneg, -⟩ := graded.computed (ofCpu cpuMs)
    obtain rfl := Option.some.inj (computed.symm.trans again)
    have least := shareOf_least config.capacity
    have below : 0 < shortfall config.capacity := by
      rw [shortfall, if_neg (by omega)]
      have size : config.capacity < 2 ^ 64 := config.resourceCapacity.toNat_lt
      exact Nat.div_pos (by omega) (by omega)
    rw [if_neg (by omega)] at least
    omega
  · intro small
    have limited : config.resourceCapacity ≠ u64Max := by
      intro unlimited
      rw [capacity, unlimited] at small
      exact absurd small (by decide)
    refine ⟨fun usage => (shareOf (config.capacity - usage.weightedTotal.toNat)
      config.capacity).toNat, fun usage => ?_, fun first second fewer => ?_⟩
    · have range := shareOf_mem small (Nat.sub_le config.capacity usage.weightedTotal.toNat)
      dsimp only
      rw [resourceFactor_share limited, Int.toNat_of_nonneg range.1]
      exact ⟨rfl, by omega⟩
    · exact Int.toNat_le_toNat (shareOf_le_shareOf small
        (Nat.sub_le_sub_left (UInt64.le_iff_toNat_le.mp fewer) _) (Nat.sub_le _ _))

theorem urgencyFactor_share (limited : horizon ≠ u64Max) (deadline now : UInt64) :
    (urgencyFactor deadline now horizon).map Int64.toInt = some (if deadline = 0 then 0
      else if deadline ≤ now then 1000
      else max 0 (min (shareOf (horizon.toNat - (deadline.toNat - now.toNat)) horizon.toNat)
        1000)) := by
  simp only [urgencyFactor]
  split_ifs with none past far
  · rfl
  · rfl
  all_goals rw [← UInt64.toNat_sub_of_le _ _ (UInt64.le_of_lt (UInt64.not_le.mp past))]
  · rcases far with empty | far
    · simp [empty]
    · simp [Nat.sub_eq_zero_of_le (UInt64.le_iff_toNat_le.mp far)]
  · have share := checkedDivInt_rest (UInt64.not_le.mp fun below => far (.inr below)) limited
    obtain ⟨value, computed, same⟩ := Option.map_eq_some_iff.mp share
    rw [computed, Option.map_map, Option.map_some, Function.comp, toInt_clampMilli, same]

theorem urgencyFactor_unlimited : urgencyFactor 18014398509481984 0 u64Max = none := by decide +kernel

theorem urgencyFactor_graded (limited : horizon ≠ u64Max) (deadline : UInt64) :
    Graded (· ≤ ·) fun now => urgencyFactor deadline now horizon := by
  refine ⟨fun now => (if deadline = 0 then 0 else if deadline ≤ now then 1000
    else max 0 (min (shareOf (horizon.toNat - (deadline.toNat - now.toNat)) horizon.toNat)
      1000) : Int).toNat, fun now => ?_, fun first second later => ?_⟩
  · dsimp only
    rw [urgencyFactor_share limited, Int.toNat_of_nonneg (by split_ifs <;> omega)]
    exact ⟨rfl, by split_ifs <;> omega⟩
  · replace later := UInt64.le_iff_toNat_le.mp later
    have rise := @clamped_shareOf_le (horizon.toNat - (deadline.toNat - first.toNat))
      (horizon.toNat - (deadline.toNat - second.toNat)) horizon.toNat (by omega)
      (Nat.sub_le _ _) horizon.toNat_lt
    apply Int.toNat_le_toNat
    simp only [UInt64.le_iff_toNat_le]
    split_ifs <;> omega

theorem validate_eq_ok : config.validate = .ok () ↔
    (0 ≤ config.urgencyWeightMilli ∧ 0 ≤ config.costWeightMilli ∧ 0 ≤ config.resourceAvailabilityWeightMilli ∧
      0 ≤ config.reputationWeightMilli) ∧ 0 < config.maxCostMilli ∧ config.agingIntervalMs ≠ 0 ∧
      0 ≤ config.agingBoostMilli ∧ 0 ≤ config.agingMaxBoostMilli := by
  simp only [validate, unit_bind_eq_ok, ensure_eq_ok]

structure Scales (config : PriorityConfig) (horizon : UInt64) : Prop where
  urgency : ∀ deadline, Graded (· ≤ ·) fun now => urgencyFactor deadline now horizon
  cost : Graded (· ≤ ·) config.costFactor
  availability : Graded (fun usage other => other.weightedTotal ≤ usage.weightedTotal) config.resourceFactor

/-- The weights are in the range that is documented for them. -/
def Weighted (config : PriorityConfig) : Prop :=
  ∀ weight ∈ [config.urgencyWeightMilli, config.costWeightMilli, config.resourceAvailabilityWeightMilli,
    config.reputationWeightMilli], 0 ≤ weight.toInt ∧ weight.toInt ≤ 1000

theorem Scales.computed (scales : config.Scales horizon) (deadline now : UInt64) (estimate : Int64)
    (usage : ResourceUsage) (reputation : Int64) :
    (config.compositeScore deadline now horizon estimate usage reputation).isSome := by
  obtain ⟨first, urgent, -⟩ := (scales.urgency deadline).computed now
  obtain ⟨second, costly, -⟩ := scales.cost.computed estimate
  obtain ⟨third, available, -⟩ := scales.availability.computed usage
  rw [compositeScore, urgent, costly, available]
  rfl

/-- Capacity and horizon are cast to signed words. Urgency is clamped, so its horizon may be any
word but the greatest. -/
theorem factors_graded_iff (config : PriorityConfig) (valid : config.validate = .ok ())
    (horizon : UInt64) :
    (config.Scales horizon ∧ ∀ deadline now estimate usage reputation,
      (config.compositeScore deadline now horizon estimate usage reputation).isSome) ↔
      config.capacity ≤ 2 ^ 63 ∧ horizon ≠ u64Max := by
  constructor
  · rintro ⟨scales, -⟩
    refine ⟨resourceFactor_graded_iff.mp scales.availability, ?_⟩
    rintro rfl
    obtain ⟨value, computed, -⟩ := (scales.urgency 18014398509481984).computed 0
    rw [urgencyFactor_unlimited] at computed
    cases computed
  · rintro ⟨small, limited⟩
    have scales : config.Scales horizon := ⟨urgencyFactor_graded limited,
      costFactor_graded (validate_eq_ok.mp valid).2.1, resourceFactor_graded_iff.mpr small⟩
    exact ⟨scales, scales.computed⟩

theorem factors_graded_default : PriorityConfig.default.Scales 9223372036854775808 :=
  ((factors_graded_iff .default rfl 9223372036854775808).mpr (by decide)).1

def unlimited : PriorityConfig := { default with resourceCapacity := u64Max }

/-- With an unlimited capacity the factor leaves its range and the score panics. With an unlimited
horizon the score panics, too. -/
theorem unlimited_not_graded : unlimited.validate = .ok () ∧ ¬ unlimited.Scales 3600000 ∧
    ¬ (unlimited.compositeScore 0 0 3600000 0 (ofCpu 18014398509481984) 0).isSome ∧
    ¬ (default.compositeScore 18014398509481984 0 u64Max 0 .zero 0).isSome := by
  refine ⟨rfl, fun scales => ?_, by decide +kernel, by decide +kernel⟩
  exact absurd (resourceFactor_graded_iff.mp scales.availability) (by decide)

/-- The least composite score of an entry, where weights are in their range. -/
def leastComposite (config : PriorityConfig) : Int :=
  -(shortfall config.capacity * config.resourceAvailabilityWeightMilli.toInt / 1000)

/-- The greatest composite score. -/
def mostComposite (config : PriorityConfig) : Int :=
  config.urgencyWeightMilli.toInt + config.costWeightMilli.toInt + config.reputationWeightMilli.toInt +
    surplus config.capacity * config.resourceAvailabilityWeightMilli.toInt / 1000

theorem toInt_contribution (factor weight : Int64) :
    (contribution factor weight).toInt = if 0 ≤ factor.toInt * weight.toInt
      then min (factor.toInt * weight.toInt) (2 ^ 63 - 1) / 1000
      else -(min (-(factor.toInt * weight.toInt)) (2 ^ 63) / 1000) := by
  rw [contribution, Int64.toInt_div_of_ne_right _ _ (by decide), saturatingMulInt, toInt_ofIntClamp]
  change Int.tdiv _ 1000 = _
  rw [Int.tdiv_eq_ediv, show Int.sign 1000 = 1 from rfl]
  split_ifs <;> omega

theorem contribution_mem {factor weight : Int64} (factors : 0 ≤ factor.toInt ∧ factor.toInt ≤ 1000)
    (weights : 0 ≤ weight.toInt ∧ weight.toInt ≤ 1000) :
    0 ≤ (contribution factor weight).toInt ∧ (contribution factor weight).toInt ≤ weight.toInt := by
  have nonneg := Int.mul_nonneg factors.1 weights.1
  have bounded := Int.mul_le_mul_of_nonneg_right factors.2 weights.1
  rw [toInt_contribution, if_pos nonneg]
  omega

theorem contribution_full {factor weight : Int64} (full : factor.toInt = 1000)
    (weights : 0 ≤ weight.toInt ∧ weight.toInt ≤ 1000) : (contribution factor weight).toInt = weight.toInt := by
  rw [toInt_contribution, full]
  split_ifs <;> omega

theorem contribution_none {factor : Int64} (none : factor.toInt = 0) (weight : Int64) :
    (contribution factor weight).toInt = 0 := by
  rw [toInt_contribution, none]
  simp

theorem zero_le_mostComposite (config : PriorityConfig) (weighted : config.Weighted) :
    0 ≤ config.mostComposite ∧ config.leastComposite ≤ 0 := by
  simp only [Weighted, List.forall_mem_cons] at weighted
  have most := Int.mul_nonneg (Int.natCast_nonneg (surplus config.capacity)) weighted.2.2.1.1
  have least := Int.mul_nonneg (Int.natCast_nonneg (shortfall config.capacity)) weighted.2.2.1.1
  unfold mostComposite leastComposite
  omega

theorem compositeScore_between (valid : config.validate = .ok ()) (weighted : config.Weighted)
    (limited : config.resourceCapacity ≠ u64Max) (near : horizon ≠ u64Max) (deadline now : UInt64)
    (estimate : Int64) (usage : ResourceUsage) (reputation : Int64) :
    ∃ score, config.compositeScore deadline now horizon estimate usage reputation = some score ∧
      config.leastComposite ≤ score.toInt ∧ score.toInt ≤ config.mostComposite := by
  obtain ⟨first, urgent, firstRange⟩ := (urgencyFactor_graded near deadline).computed now
  obtain ⟨second, costly, secondRange⟩ := (costFactor_graded (validate_eq_ok.mp valid).2.1).computed estimate
  obtain ⟨third, available, same⟩ := Option.map_eq_some_iff.mp (resourceFactor_share limited usage)
  refine ⟨_, by rw [compositeScore, urgent, costly, available]; rfl, ?_⟩
  simp only [Weighted, List.forall_mem_cons] at weighted
  have fourthRange := toInt_clampMilli reputation
  have one := contribution_mem firstRange weighted.1
  have two := contribution_mem secondRange weighted.2.1
  have four := @contribution_mem (clampMilli reputation) _ (by omega) weighted.2.2.2.1
  have three := toInt_contribution third config.resourceAvailabilityWeightMilli
  have range := shareOf_between (Nat.sub_le config.capacity usage.weightedTotal.toNat)
  have above := Int.mul_le_mul_of_nonneg_right (same ▸ range.2) weighted.2.2.1.1
  have below := Int.mul_le_mul_of_nonneg_right (same ▸ range.1) weighted.2.2.1.1
  have most := Int.mul_nonneg (Int.natCast_nonneg (surplus config.capacity)) weighted.2.2.1.1
  have least := Int.mul_nonneg (Int.natCast_nonneg (shortfall config.capacity)) weighted.2.2.1.1
  rw [Int.neg_mul] at below
  simp only [saturatingAddInt, toInt_ofIntClamp, leastComposite, mostComposite]
  split_ifs at three <;> omega

/-- A score that is not stopped by a word attains the greatest value. -/
theorem exists_mostComposite (horizon : UInt64) (valid : config.validate = .ok ()) (weighted : config.Weighted)
    (limited : config.resourceCapacity ≠ u64Max) : ∃ cpuMs score,
      config.compositeScore 1 1 horizon config.maxCostMilli (ofCpu cpuMs) 1000 =
        some score ∧ min config.mostComposite 1000000 ≤ score.toInt := by
  obtain ⟨cpuMs, third, available, same⟩ := exists_resourceFactor limited
    (if config.capacity < 2 ^ 63 then config.capacity else 2 ^ 63)
    (by split_ifs <;> omega)
  have positive := (validate_eq_ok.mp valid).2.1
  have costly : config.costFactor config.maxCostMilli = some 1000 := by
    rw [costFactor, if_neg (Int64.not_le.mpr positive), if_pos (Int64.le_refl _)]
  refine ⟨cpuMs, _, by rw [compositeScore, costly, available]; rfl, ?_⟩
  simp only [Weighted, List.forall_mem_cons] at weighted
  have one := @contribution_full 1000 _ rfl weighted.1
  have two := @contribution_full 1000 _ rfl weighted.2.1
  have four := @contribution_full 1000 _ rfl weighted.2.2.2.1
  have three := toInt_contribution third config.resourceAvailabilityWeightMilli
  rw [same, shareOf_most, if_pos (Int.mul_nonneg (Int.natCast_nonneg _) weighted.2.2.1.1)] at three
  have nonneg := Int.mul_nonneg (Int.natCast_nonneg (surplus config.capacity)) weighted.2.2.1.1
  have fullReputation : clampMilli 1000 = 1000 := rfl
  simp only [saturatingAddInt, toInt_ofIntClamp, mostComposite, fullReputation]
  omega

theorem exists_leastComposite (now horizon : UInt64) (weighted : config.Weighted)
    (limited : config.resourceCapacity ≠ u64Max) : ∃ cpuMs score,
      config.compositeScore 0 now horizon 0 (ofCpu cpuMs) 0 = some score ∧
        score.toInt ≤ max config.leastComposite (-1000000) := by
  obtain ⟨cpuMs, third, available, same⟩ := exists_resourceFactor limited
    (if config.capacity < 2 ^ 63 then 0 else 2 ^ 63 - 1) (by split_ifs <;> omega)
  refine ⟨cpuMs, _, by rw [compositeScore, available]; rfl, ?_⟩
  simp only [Weighted, List.forall_mem_cons] at weighted
  have one := @contribution_none 0 rfl config.urgencyWeightMilli
  have two := @contribution_none 0 rfl config.costWeightMilli
  have four := @contribution_none (clampMilli 0) rfl config.reputationWeightMilli
  have three := toInt_contribution third config.resourceAvailabilityWeightMilli
  have nonneg := Int.mul_nonneg (Int.natCast_nonneg (shortfall config.capacity)) weighted.2.2.1.1
  rw [same, shareOf_least, Int.neg_mul] at three
  simp only [saturatingAddInt, toInt_ofIntClamp, leastComposite]
  split_ifs at three <;> omega

end PriorityConfig

theorem bonusMilli_gap : ∀ higher lower : PriorityBand, higher.ctorIdx < lower.ctorIdx →
    0 ≤ lower.bonusMilli.toInt ∧ lower.bonusMilli.toInt ≤ 3000000 ∧
      lower.bonusMilli.toInt + 500000 ≤ higher.bonusMilli.toInt ∧ higher.bonusMilli.toInt ≤ 5000000 := by
  intro higher lower
  cases higher <;> cases lower <;> decide

/-- A sum that stops at the bounds of the signed words. -/
def wordOf (sum : Int) : Int := max (-2 ^ 63) (min sum (2 ^ 63 - 1))

/-- A sum of composite score and bonus, after boost and aging are added to it. -/
def settled (boost aging sum : Int) : Int := wordOf (wordOf (wordOf sum + boost) + aging)

theorem wordOf_le_wordOf (ordered : left ≤ right) : wordOf left ≤ wordOf right := by
  unfold wordOf
  omega

theorem lt_of_wordOf_lt (less : wordOf left < wordOf right) :
    left < right ∧ left < 2 ^ 63 - 1 ∧ left ≤ wordOf left ∧ -2 ^ 63 < right ∧ wordOf right ≤ right := by
  unfold wordOf at *
  omega

theorem lt_of_settled_lt (less : settled boost aging left < settled boost aging right) : left < right ∧
    left + boost < 2 ^ 63 - 1 ∧ left + boost + aging < 2 ^ 63 - 1 ∧ -2 ^ 63 < right + boost + aging := by
  have aged := lt_of_wordOf_lt less
  have boosted := lt_of_wordOf_lt (Int.lt_of_add_lt_add_right aged.1)
  have plain := lt_of_wordOf_lt (Int.lt_of_add_lt_add_right boosted.1)
  omega

theorem settled_lt_settled (less : left < right) (boosted : left + boost < 2 ^ 63 - 1)
    (aged : left + boost + aging < 2 ^ 63 - 1) (lowered : -2 ^ 63 < right + boost + aging)
    (least : -2 ^ 63 ≤ left) (most : right < 2 ^ 63) (raised : -2 ^ 63 < right + boost)
    (word : -2 ^ 63 ≤ aging ∧ aging < 2 ^ 63) : settled boost aging left < settled boost aging right := by
  have wordOf_lt : ∀ {first second}, first < second → first < 2 ^ 63 - 1 → -2 ^ 63 < second →
      wordOf first < wordOf second := by
    unfold wordOf
    omega
  have first : wordOf left = left := by
    unfold wordOf
    omega
  have second : wordOf right = right := by
    unfold wordOf
    omega
  unfold settled
  rw [first, second]
  refine wordOf_lt (Int.add_lt_add_right (wordOf_lt (by omega) boosted raised) _) ?_ ?_
  all_goals
    unfold wordOf
    omega

/-- Of two entries with these boosts and agings, both scores are computed and the one in the higher
band is greater. -/
def PriorityConfig.BandsDominate (config : PriorityConfig) (horizon : UInt64) (boost aging : Int64) : Prop :=
  ∀ lower higher : PriorityEntry, ∀ now, higher.band.ctorIdx < lower.band.ctorIdx →
    (∀ entry ∈ [lower, higher], entry.boostMilli = boost ∧ entry.agingAccumulatedMilli = aging) →
    ∃ low high, lower.recomputeScore config now horizon = some low ∧
      higher.recomputeScore config now horizon = some high ∧ low.priorityScore < high.priorityScore

theorem PriorityEntry.recomputeScore_eq (entry : PriorityEntry) (composite : Int64)
    (computed : config.compositeScore entry.deadline now horizon entry.costEstimateMilli
      entry.resourceEstimate entry.reputationMilli = some composite) :
    ∃ scored, entry.recomputeScore config now horizon = some scored ∧ scored.priorityScore.toInt =
      settled entry.boostMilli.toInt entry.agingAccumulatedMilli.toInt
        (composite.toInt + entry.band.bonusMilli.toInt) := by
  refine ⟨_, by rw [recomputeScore, computed]; rfl, ?_⟩
  simp only [saturatingAddInt, toInt_ofIntClamp]
  rfl

/-- An entry with a band, a boost and an aging. -/
def banded (band : PriorityBand) (boostMilli agingAccumulatedMilli : Int64) (deadline : UInt64)
    (costEstimateMilli : Int64) (cpuMs : UInt64) (reputationMilli : Int64) : PriorityEntry :=
  { PriorityEntry.new "task" "agent" (ofCpu cpuMs) deadline costEstimateMilli band
      reputationMilli 0 with
    boostMilli, agingAccumulatedMilli }

namespace PriorityConfig.BandsDominate

variable {config : PriorityConfig} {horizon : UInt64} {boost aging : Int64}

theorem computed (dominate : config.BandsDominate horizon boost aging) (deadline now cpuMs : UInt64) :
    ∃ score, config.compositeScore deadline now horizon 0 (ofCpu cpuMs) 0 =
      some score := by
  obtain ⟨low, -, found, -⟩ := dominate (banded .low boost aging deadline 0 cpuMs 0)
    (banded .high boost aging deadline 0 cpuMs 0) now
    (show PriorityBand.ctorIdx .high < PriorityBand.ctorIdx .low by decide) (by simp [banded])
  obtain ⟨score, composite, -⟩ := Option.bind_eq_some_iff.mp found
  exact ⟨score, composite⟩

theorem limited (dominate : config.BandsDominate horizon boost aging) :
    config.resourceCapacity ≠ u64Max ∧ horizon ≠ u64Max := by
  constructor
  · intro unlimited
    obtain ⟨score, computed⟩ := dominate.computed 0 0 18014398509481984
    rw [compositeScore, resourceFactor_unlimited unlimited] at computed
    cases computed
  · rintro rfl
    obtain ⟨score, computed⟩ := dominate.computed 18014398509481984 0 0
    rw [compositeScore, urgencyFactor_unlimited] at computed
    cases computed

theorem lt_of_composites (dominate : config.BandsDominate horizon boost aging)
    (lower higher : PriorityBand) (bands : higher.ctorIdx < lower.ctorIdx)
    (low : config.compositeScore deadline now horizon estimate (ofCpu cpuMs) reputation =
      some below)
    (high : config.compositeScore deadline' now horizon estimate' (ofCpu cpuMs')
      reputation' = some above)
    (clamped : clampMilli reputation = reputation ∧ clampMilli reputation' = reputation') :
    settled boost.toInt aging.toInt (below.toInt + lower.bonusMilli.toInt) <
      settled boost.toInt aging.toInt (above.toInt + higher.bonusMilli.toInt) := by
  obtain ⟨first, lowFound, lowScore⟩ := (banded lower boost aging deadline estimate cpuMs
    reputation).recomputeScore_eq below
    (by simpa [banded, PriorityEntry.new, clamped.1] using low)
  obtain ⟨second, highFound, highScore⟩ := (banded higher boost aging deadline' estimate' cpuMs'
    reputation').recomputeScore_eq above
    (by simpa [banded, PriorityEntry.new, clamped.2] using high)
  obtain ⟨first', second', lowAgain, highAgain, less⟩ := dominate
    (banded lower boost aging deadline estimate cpuMs reputation)
    (banded higher boost aging deadline' estimate' cpuMs' reputation') now bands (by simp [banded])
  cases lowFound.symm.trans lowAgain
  cases highFound.symm.trans highAgain
  rw [Int64.lt_iff_toInt_lt, lowScore, highScore] at less
  exact less

end PriorityConfig.BandsDominate

/-- The composite scores stay within the gap of two bands, and no sum of a band next to the last
stops at a bound of the words. -/
structure PriorityConfig.KeepsApart (config : PriorityConfig) (horizon : UInt64) (boost aging : Int64) :
    Prop where
  limited : config.resourceCapacity ≠ u64Max
  near : horizon ≠ u64Max
  spread : config.mostComposite - config.leastComposite < 500000
  boosted : 3000000 + config.mostComposite + boost.toInt < 2 ^ 63 - 1
  aged : 3000000 + config.mostComposite + boost.toInt + aging.toInt < 2 ^ 63 - 1
  lowered : -2 ^ 63 < 500000 + config.leastComposite + boost.toInt + aging.toInt

/-- Of two entries with equal boosts and aging, the one in the higher band has the greater score
exactly when the composite scores keep apart. -/
theorem higher_band_dominates_iff (config : PriorityConfig) (valid : config.validate = .ok ())
    (weighted : config.Weighted) (horizon : UInt64) (boost aging : Int64) :
    config.BandsDominate horizon boost aging ↔ config.KeepsApart horizon boost aging := by
  constructor
  · intro dominate
    have limited := dominate.limited
    obtain ⟨plenty, most, mostComputed, mostAbove⟩ :=
      PriorityConfig.exists_mostComposite horizon valid weighted limited.1
    obtain ⟨scarce, least, leastComputed, leastBelow⟩ :=
      PriorityConfig.exists_leastComposite 1 horizon weighted limited.1
    -- The best entry of the lowest band and the worst of the next one are the closest. The best ones
    -- of the two highest bands stop first from above, and the worst of the lowest two from below.
    have gap := dominate.lt_of_composites .bestEffort .low (by decide) mostComputed leastComputed ⟨rfl, rfl⟩
    have top := dominate.lt_of_composites .high .critical (by decide) mostComputed mostComputed ⟨rfl, rfl⟩
    have bottom := dominate.lt_of_composites .bestEffort .low (by decide) leastComputed leastComputed ⟨rfl, rfl⟩
    have nonneg := config.zero_le_mostComposite weighted
    have close := (lt_of_settled_lt gap).1
    have above := (lt_of_settled_lt top).2
    have below := (lt_of_settled_lt bottom).2.2.2
    change _ + 0 < _ + 500000 at close
    change _ + 3000000 + _ < _ ∧ _ + 3000000 + _ + _ < _ ∧ _ at above
    change _ < _ + 500000 + _ + _ at below
    have spread : config.mostComposite - config.leastComposite < 500000 := by omega
    exact ⟨limited.1, limited.2, spread, by omega, by omega, by omega⟩
  · intro apart lower higher now bands alike
    obtain ⟨below, lowComputed, lowRange⟩ := PriorityConfig.compositeScore_between valid weighted apart.limited
      apart.near lower.deadline now lower.costEstimateMilli lower.resourceEstimate lower.reputationMilli
    obtain ⟨above, highComputed, highRange⟩ := PriorityConfig.compositeScore_between valid weighted apart.limited
      apart.near higher.deadline now higher.costEstimateMilli higher.resourceEstimate higher.reputationMilli
    obtain ⟨low, lowFound, lowScore⟩ := lower.recomputeScore_eq below lowComputed
    obtain ⟨high, highFound, highScore⟩ := higher.recomputeScore_eq above highComputed
    refine ⟨low, high, lowFound, highFound, ?_⟩
    have gap := bonusMilli_gap _ _ bands
    have nonneg := config.zero_le_mostComposite weighted
    have boosts := boost.le_toInt
    have agings := And.intro aging.le_toInt aging.toInt_lt
    obtain ⟨-, -, spread, boosted, aged, lowered⟩ := apart
    simp only [List.forall_mem_cons] at alike
    rw [Int64.lt_iff_toInt_lt, lowScore, highScore, alike.1.1, alike.1.2, alike.2.1.1, alike.2.1.2]
    apply settled_lt_settled <;> omega

theorem weighted_default : PriorityConfig.default.Weighted := by
  simp only [PriorityConfig.Weighted, List.mem_cons, List.not_mem_nil, or_false, forall_eq_or_imp, forall_eq]
  decide

theorem critical_dominates : PriorityConfig.default.BandsDominate 3600000 4611686018427387904 0 :=
  (higher_band_dominates_iff .default rfl weighted_default 3600000 4611686018427387904 0).mpr
    ⟨by decide, by decide, by decide, by decide, by decide, by decide⟩

/-- With the largest boost a critical entry is not above one of high priority, and with an unlimited
capacity not above one of the lowest. -/
theorem critical_not_dominating : PriorityConfig.unlimited.validate = .ok () ∧ PriorityConfig.unlimited.Weighted ∧
    (∃ low high, (banded .high Int64.maxValue 0 0 0 0 0).recomputeScore .default 0 3600000 = some low ∧
      (banded .critical Int64.maxValue 0 0 0 0 0).recomputeScore .default 0 3600000 = some high ∧
      ¬ low.priorityScore < high.priorityScore) ∧
    ∃ low high, (banded .bestEffort 0 0 0 0 9007199254740992 0).recomputeScore .unlimited 0 3600000 = some low ∧
      (banded .critical 0 0 0 0 0 0).recomputeScore .unlimited 0 3600000 = some high ∧
      ¬ low.priorityScore < high.priorityScore :=
  ⟨rfl, weighted_default, ⟨_, _, rfl, rfl, by decide +kernel⟩, _, _, rfl, rfl, by decide +kernel⟩

end Aafp.Economics
