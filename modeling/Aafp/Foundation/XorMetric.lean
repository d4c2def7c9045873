import Aafp.Foundation.Bytes

/-! The XOR metric on byte strings of one length. -/
namespace Aafp.Foundation

def xorBytes : List UInt8 → List UInt8 → List UInt8 := List.zipWith (· ^^^ ·)

@[simp] theorem length_xorBytes (left right : List UInt8) :
    (xorBytes left right).length = min left.length right.length := List.length_zipWith

private theorem xor_two_pow_mul_add (high other : Nat) (lower : low < 2 ^ width) (lowerOther : rest < 2 ^ width) :
    (2 ^ width * high + low) ^^^ (2 ^ width * other + rest) = 2 ^ width * (high ^^^ other) + (low ^^^ rest) := by
  apply Nat.eq_of_testBit_eq
  intro place
  rw [Nat.testBit_xor, Nat.testBit_two_pow_mul_add _ lower, Nat.testBit_two_pow_mul_add _ lowerOther,
    Nat.testBit_two_pow_mul_add _ (Nat.xor_lt_two_pow lower lowerOther)]
  split <;> rw [Nat.testBit_xor]

theorem ofBigEndian_cons (byte : UInt8) (bytes : List UInt8) :
    ofBigEndian (byte :: bytes) = 2 ^ (8 * bytes.length) * byte.toNat + ofBigEndian bytes := by
  rw [ofBigEndian, Nat.pow_mul, Nat.mul_comm]

theorem ofBigEndian_lt_two_pow (bytes : List UInt8) : ofBigEndian bytes < 2 ^ (8 * bytes.length) := by
  rw [Nat.pow_mul]
  exact ofBigEndian_lt bytes

theorem ofBigEndian_xorBytes (same : left.length = right.length) :
    ofBigEndian (xorBytes left right) = ofBigEndian left ^^^ ofBigEndian right := by
  induction left generalizing right with
  | nil =>
    cases right with
    | nil => rfl
    | cons => cases same
  | cons byte left ih =>
    cases right with
    | nil => cases same
    | cons other right =>
      have tails : left.length = right.length := Nat.succ.inj same
      have lengths : (xorBytes left right).length = left.length := by simp [tails]
      have lower := ofBigEndian_lt_two_pow left
      have lowerOther := ofBigEndian_lt_two_pow right
      rw [← tails] at lowerOther
      change ofBigEndian ((byte ^^^ other) :: xorBytes left right) = _
      rw [ofBigEndian_cons, ofBigEndian_cons, ofBigEndian_cons, lengths, ← tails,
        xor_two_pow_mul_add _ _ lower lowerOther, ih tails, UInt8.toNat_xor]

theorem compare_eq_compare_ofBigEndian (same : left.length = right.length) :
    compare left right = compare (ofBigEndian left) (ofBigEndian right) := by
  have ordered {left right : List UInt8} (same : left.length = right.length)
      (below : ofBigEndian left < ofBigEndian right) : compare left right = .lt := by
    have numbers : ofBigEndian left % 256 ^ left.length < ofBigEndian right % 256 ^ left.length := by
      rw [Nat.mod_eq_of_lt (ofBigEndian_lt left), Nat.mod_eq_of_lt (same ▸ ofBigEndian_lt right)]
      exact below
    have words := compare_bigEndian numbers [] []
    rw [List.append_nil, List.append_nil, bigEndian_ofBigEndian, same, bigEndian_ofBigEndian] at words
    exact words
  rcases Nat.lt_trichotomy (ofBigEndian left) (ofBigEndian right) with below | tied | above
  · rw [ordered same below, Nat.compare_eq_lt.mpr below]
  · have identical : left = right := by
      rw [← bigEndian_ofBigEndian left, ← bigEndian_ofBigEndian right, tied, same]
    rw [identical, Std.compare_self, Std.compare_self]
  · rw [Std.OrientedOrd.eq_swap, ordered same.symm above, Nat.compare_eq_gt.mpr above]
    rfl

def leadingZeros (byte : UInt8) : Nat := if byte = 0 then 8 else 7 - byte.toNat.log2

/-- The place of the first set bit, counted from the most significant bit of the first
byte. -/
def firstSetBit (bytes : List UInt8) : Option Nat :=
  bytes.zipIdx.findSome? fun (byte, index) =>
    if byte ≠ 0 then some (index * 8 + leadingZeros byte) else none

/-- Bit `place` of the `width` bits of a number, counted from the most significant one, is
its highest set bit. -/
def IsTopBit (width value place : Nat) : Prop :=
  place < width ∧ value.testBit (width - 1 - place) = true ∧
    ∀ earlier < place, value.testBit (width - 1 - earlier) = false

theorem IsTopBit.unique (first : IsTopBit width value place) (second : IsTopBit width value other) :
    place = other := by
  rcases Nat.lt_trichotomy place other with below | same | above
  · have unset := second.2.2 place below
    rw [first.2.1] at unset
    cases unset
  · exact same
  · have unset := first.2.2 other above
    rw [second.2.1] at unset
    cases unset

private theorem topBit_byte (nonzero : byte ≠ 0) (lower : rest < 2 ^ (8 * count)) :
    IsTopBit (8 * (count + 1)) (2 ^ (8 * count) * byte.toNat + rest) (leadingZeros byte) := by
  have positive : byte.toNat ≠ 0 := by
    intro zero
    exact nonzero (UInt8.toNat_inj.mp zero)
  have high : byte.toNat.log2 < 8 := (Nat.log2_lt positive).mpr byte.toNat_lt
  have zeros : leadingZeros byte = 7 - byte.toNat.log2 := if_neg nonzero
  refine ⟨by omega, ?_, ?_⟩
  · have place : 8 * (count + 1) - 1 - leadingZeros byte = 8 * count + byte.toNat.log2 := by omega
    rw [place, Nat.testBit_two_pow_mul_add _ lower, if_neg (by omega), Nat.add_sub_cancel_left]
    exact Nat.testBit_log2 positive
  · intro earlier before
    rw [Nat.testBit_two_pow_mul_add _ lower, if_neg (by omega)]
    apply Nat.testBit_lt_two_pow
    exact (Nat.log2_lt positive).mp (by omega)

private theorem topBit_zero (lower : value < 2 ^ (8 * count)) (top : IsTopBit (8 * count) value place) :
    IsTopBit (8 * (count + 1)) value (8 + place) := by
  refine ⟨by have := top.1; omega, ?_, ?_⟩
  · have same : 8 * (count + 1) - 1 - (8 + place) = 8 * count - 1 - place := by omega
    rw [same]
    exact top.2.1
  · intro earlier before
    by_cases inside : 8 ≤ earlier
    · have same : 8 * (count + 1) - 1 - earlier = 8 * count - 1 - (earlier - 8) := by omega
      rw [same]
      exact top.2.2 (earlier - 8) (by omega)
    · -- the bits of a leading zero byte
      apply Nat.testBit_lt_two_pow
      exact Nat.lt_of_lt_of_le lower (Nat.pow_le_pow_right (by decide) (by omega))

private theorem firstSetBit_from (bytes : List UInt8) (index : Nat) :
    match (bytes.zipIdx index).findSome? fun (byte, index) =>
        if byte ≠ 0 then some (index * 8 + leadingZeros byte) else none with
    | some place => ∃ inside, place = index * 8 + inside ∧
        IsTopBit (8 * bytes.length) (ofBigEndian bytes) inside
    | none => ofBigEndian bytes = 0 := by
  induction bytes generalizing index with
  | nil => rfl
  | cons byte bytes ih =>
    rw [List.zipIdx_cons, List.findSome?_cons, ofBigEndian_cons]
    by_cases zero : byte = 0
    · subst zero
      have later := ih (index + 1)
      simp only [ne_eq, not_true_eq_false, if_false, UInt8.toNat_zero, Nat.mul_zero, Nat.zero_add]
      split at later
      next place found =>
        obtain ⟨inside, rfl, top⟩ := later
        rw [found]
        exact ⟨8 + inside, by omega, topBit_zero (ofBigEndian_lt_two_pow bytes) top⟩
      next missing =>
        rw [missing]
        exact later
    · simp only [ne_eq, zero, not_false_eq_true, if_true]
      exact ⟨leadingZeros byte, rfl, topBit_byte zero (ofBigEndian_lt_two_pow bytes)⟩

private theorem firstSetBit_cases (bytes : List UInt8) :
    (∃ place, firstSetBit bytes = some place ∧ IsTopBit (8 * bytes.length) (ofBigEndian bytes) place) ∨
      firstSetBit bytes = none ∧ ofBigEndian bytes = 0 := by
  have fromZero := firstSetBit_from bytes 0
  split at fromZero
  next found =>
    obtain ⟨inside, rfl, top⟩ := fromZero
    rw [Nat.zero_add] at found
    exact .inl ⟨inside, found, top⟩
  next missing => exact .inr ⟨missing, fromZero⟩

theorem IsTopBit.ne_zero (top : IsTopBit count number place) : number ≠ 0 := by
  intro zero
  have set := top.2.1
  rw [zero, Nat.zero_testBit] at set
  cases set

theorem firstSetBit_eq_some : firstSetBit bytes = some place ↔
    IsTopBit (8 * bytes.length) (ofBigEndian bytes) place := by
  obtain ⟨inside, found, top⟩ | ⟨missing, zero⟩ := firstSetBit_cases bytes
  · rw [found, Option.some.injEq]
    constructor
    · intro same
      exact same ▸ top
    · intro other
      exact top.unique other
  · rw [missing]
    exact iff_of_false nofun fun top => top.ne_zero zero

end Aafp.Foundation
