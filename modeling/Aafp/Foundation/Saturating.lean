import Mathlib.Algebra.Group.Int.Defs
import Mathlib.Algebra.Group.Nat.Defs
import Mathlib.Order.MinMax
import Mathlib.Tactic.Common

/-! Arithmetic on 64 bits that stops at its bounds, and the order of words. -/
namespace Aafp.Foundation

def u64Max : UInt64 := 18446744073709551615

@[simp] theorem toNat_u64Max : u64Max.toNat = 2 ^ 64 - 1 := by decide

theorem le_u64Max (word : UInt64) : word ≤ u64Max :=
  UInt64.le_iff_toNat_le.mpr (Nat.le_of_lt_succ word.toNat_lt)

/-- `saturating_add`. -/
def saturatingAdd (left right : UInt64) : UInt64 :=
  if left.toNat + right.toNat < 2 ^ 64 then left + right else u64Max

/-- `saturating_sub`. -/
def saturatingSub (left right : UInt64) : UInt64 := if right ≤ left then left - right else 0

/-- `saturating_mul`. -/
def saturatingMul (left right : UInt64) : UInt64 :=
  if left.toNat * right.toNat < 2 ^ 64 then left * right else u64Max

theorem toNat_saturatingAdd (left right : UInt64) :
    (saturatingAdd left right).toNat = min (left.toNat + right.toNat) (2 ^ 64 - 1) := by
  unfold saturatingAdd
  split
  · rw [UInt64.toNat_add]
    omega
  · rw [toNat_u64Max]
    omega

theorem toNat_saturatingSub (left right : UInt64) : (saturatingSub left right).toNat = left.toNat - right.toNat := by
  unfold saturatingSub
  split
  · exact UInt64.toNat_sub_of_le _ _ ‹_›
  · rw [UInt64.le_iff_toNat_le] at *
    rw [UInt64.toNat_zero]
    omega

theorem toNat_saturatingAdd_eq_iff :
    (saturatingAdd left right).toNat = left.toNat + right.toNat ↔ left.toNat + right.toNat < 2 ^ 64 := by
  rw [toNat_saturatingAdd]
  omega

theorem saturatingAdd_saturatingSub (covered : right ≤ left) :
    saturatingAdd (saturatingSub left right) right = left := by
  rw [UInt64.le_iff_toNat_le] at covered
  apply UInt64.toNat_inj.mp
  have bound := left.toNat_lt
  rw [toNat_saturatingAdd, toNat_saturatingSub]
  omega

instance lawfulOrderMaxUInt64 : Std.LawfulOrderMax UInt64 where
  max_eq_or left right := by
    change (if left ≤ right then right else left) = left ∨ (if left ≤ right then right else left) = right
    split
    · exact .inr rfl
    · exact .inl rfl
  max_le_iff left right bound := by
    change (if left ≤ right then right else left) ≤ bound ↔ _
    split
    · exact ⟨fun below => ⟨UInt64.le_trans ‹_› below, below⟩, And.right⟩
    · exact ⟨fun below => ⟨below, UInt64.le_trans (UInt64.le_of_lt (UInt64.not_le.mp ‹_›)) below⟩, And.left⟩

theorem toInt_ofIntClamp (value : Int) :
    (Int64.ofIntClamp value).toInt = max (-2 ^ 63) (min value (2 ^ 63 - 1)) := by
  have least : Int64.minValue.toInt = -2 ^ 63 := rfl
  have greatest : Int64.maxValue.toInt = 2 ^ 63 - 1 := rfl
  unfold Int64.ofIntClamp
  split_ifs
  · rw [Int64.toInt_ofIntLE]
    omega
  all_goals omega

variable (left right : Int64)

def saturatingAddInt : Int64 := .ofIntClamp (left.toInt + right.toInt)

def saturatingSubInt : Int64 := .ofIntClamp (left.toInt - right.toInt)

def saturatingMulInt : Int64 := .ofIntClamp (left.toInt * right.toInt)

/-- A difference outside of 64 bits panics. -/
def checkedSubInt : Option Int64 :=
  let difference := left.toInt - right.toInt
  if Int64.minValue.toInt ≤ difference ∧ difference ≤ Int64.maxValue.toInt then some (left - right) else none

/-- A division by zero panics, and so does the one quotient that does not fit. -/
def checkedDivInt : Option Int64 :=
  if right = 0 ∨ (left = Int64.minValue ∧ right = -1) then none else some (left / right)

end Aafp.Foundation
