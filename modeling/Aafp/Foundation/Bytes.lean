import Mathlib.Tactic.Ring
import Mathlib.Data.Nat.ModEq

/-! Byte buffers read at a cursor, and fixed-width big-endian integers as written
by `to_be_bytes` and read by `from_be_bytes`. -/
namespace Aafp.Foundation

/-- No allocation of a 64-bit target, and so no slice, has more bytes. -/
def isizeMax : Nat := 2 ^ 63 - 1

variable {data taken rest : List α}

theorem drop_add_length (here : data.drop pos = taken ++ rest) : data.drop (pos + taken.length) = rest := by
  rw [← List.drop_drop, here, List.drop_left]

theorem length_at_cursor (here : data.drop pos = taken ++ rest) (nonempty : taken ≠ []) :
    pos + taken.length + rest.length = data.length := by
  have lengths := congrArg List.length here
  have positive := List.length_pos_iff.mpr nonempty
  simp only [List.length_drop, List.length_append] at lengths
  omega

theorem getElem?_at_cursor (here : data.drop pos = first :: rest) : data[pos]? = some first := by
  have head : (data.drop pos)[0]? = some first := by simp [here]
  simpa using head

theorem drop_succ_at_cursor (here : data.drop pos = first :: rest) : data.drop (pos + 1) = rest := by
  rw [← List.drop_drop, here, List.drop_succ_cons, List.drop_zero]

theorem drop_at_cursor (found : data[pos]? = some first) : data.drop pos = first :: data.drop (pos + 1) := by
  obtain ⟨inside, same⟩ := List.getElem?_eq_some_iff.mp found
  rw [List.drop_eq_getElem_cons inside, same]

theorem drop_eq_take_append (data : List α) (pos width : Nat) :
    data.drop pos = (data.drop pos).take width ++ data.drop (pos + width) := by
  rw [← List.drop_drop, List.take_append_drop]

theorem length_slice (data : List α) (inside : pos + width ≤ data.length) :
    ((data.drop pos).take width).length = width := by
  simp only [List.length_take, List.length_drop]
  omega

theorem take_at_cursor (here : data.drop pos = taken ++ rest) : (data.drop pos).take taken.length = taken := by
  rw [here, List.take_left]

/-- The `width` low-order bytes of `value`, most significant byte first. -/
def bigEndian : (width value : Nat) → List UInt8
  | 0, _ => []
  | width + 1, value => UInt8.ofNat (value / 256 ^ width) :: bigEndian width value

/-- The number whose big-endian digits are `bytes`. -/
def ofBigEndian : (bytes : List UInt8) → Nat
  | [] => 0
  | byte :: bytes => byte.toNat * 256 ^ bytes.length + ofBigEndian bytes

@[simp] theorem length_bigEndian (width value : Nat) : (bigEndian width value).length = width := by
  induction width with
  | zero => rfl
  | succ width ih => simp [bigEndian, ih]

theorem ofBigEndian_lt (bytes : List UInt8) : ofBigEndian bytes < 256 ^ bytes.length := by
  induction bytes with
  | nil => simp [ofBigEndian]
  | cons byte bytes ih =>
    have digit : byte.toNat + 1 ≤ 256 := byte.toNat_lt
    have scaled := Nat.mul_le_mul_right (256 ^ bytes.length) digit
    simp only [ofBigEndian, List.length_cons, Nat.pow_succ]
    rw [Nat.add_mul] at scaled
    omega

theorem ofBigEndian_bigEndian (width value : Nat) : ofBigEndian (bigEndian width value) = value % 256 ^ width := by
  induction width with
  | zero => simp [bigEndian, ofBigEndian, Nat.mod_one]
  | succ width ih =>
    have split : value % (256 ^ width * 256) =
        value % 256 ^ width + 256 ^ width * (value / 256 ^ width % 256) := Nat.mod_mul
    simp only [bigEndian, ofBigEndian, length_bigEndian, ih, UInt8.toNat_ofNat', Nat.pow_succ, split]
    rw [Nat.mul_comm, Nat.add_comm]

theorem ofBigEndian_bigEndian_of_lt (fits : value < 256 ^ width) : ofBigEndian (bigEndian width value) = value := by
  rw [ofBigEndian_bigEndian, Nat.mod_eq_of_lt fits]

private theorem bigEndian_add_mul (width value high : Nat) :
    bigEndian width (high * 256 ^ width + value) = bigEndian width value := by
  induction width generalizing high with
  | zero => rfl
  | succ width ih =>
    have regroup : high * 256 ^ (width + 1) + value = (high * 256) * 256 ^ width + value := by ring
    have quotient : (high * 256 * 256 ^ width + value) / 256 ^ width =
        high * 256 + value / 256 ^ width := by
      rw [Nat.add_comm, Nat.add_mul_div_right _ _ (Nat.pow_pos (by decide)), Nat.add_comm]
    have digit : UInt8.ofNat (high * 256 + value / 256 ^ width) =
        UInt8.ofNat (value / 256 ^ width) := by
      apply UInt8.toNat_inj.mp
      simp only [UInt8.toNat_ofNat']
      omega
    rw [regroup]
    simp only [bigEndian, ih, quotient, digit]

theorem bigEndian_ofBigEndian (bytes : List UInt8) : bigEndian bytes.length (ofBigEndian bytes) = bytes := by
  induction bytes with
  | nil => rfl
  | cons byte bytes ih =>
    have quotient : (byte.toNat * 256 ^ bytes.length + ofBigEndian bytes) / 256 ^ bytes.length =
        byte.toNat := by
      rw [Nat.add_comm, Nat.add_mul_div_right _ _ (Nat.pow_pos (by decide)),
        Nat.div_eq_of_lt (ofBigEndian_lt bytes), Nat.zero_add]
    simp only [List.length_cons, bigEndian, ofBigEndian, bigEndian_add_mul, ih, quotient, UInt8.ofNat_toNat]

theorem compare_cons_lt [Ord α] (below : compare first second = .lt)
    (left right : List α) : compare (first :: left) (second :: right) = .lt := by
  rw [List.compare_eq_compareLex, List.compareLex_cons_cons, below]
  rfl

theorem compare_bigEndian (below : value % 256 ^ width < other % 256 ^ width) (left right : List UInt8) :
    compare (bigEndian width value ++ left) (bigEndian width other ++ right) = .lt := by
  induction width with
  | zero => simp [Nat.mod_one] at below
  | succ width ih =>
    have split (n : Nat) : n % (256 ^ width * 256) =
        n % 256 ^ width + 256 ^ width * (n / 256 ^ width % 256) := Nat.mod_mul
    rw [Nat.pow_succ, split, split] at below
    have digits : value / 256 ^ width % 256 ≤ other / 256 ^ width % 256 := by
      by_contra above
      have gap := Nat.mul_le_mul_left (256 ^ width) (Nat.lt_of_not_le above)
      rw [Nat.mul_succ] at gap
      omega
    simp only [bigEndian, List.cons_append]
    rcases Nat.lt_or_eq_of_le digits with lower | same
    · refine compare_cons_lt (Std.compare_eq_lt.mpr ?_) _ _
      exact lower
    · have digit : UInt8.ofNat (value / 256 ^ width) = UInt8.ofNat (other / 256 ^ width) := by
        apply UInt8.toNat_inj.mp
        simpa only [UInt8.toNat_ofNat'] using same
      rw [same] at below
      rw [digit, List.compare_eq_compareLex, List.compareLex_cons_cons, ← List.compare_eq_compareLex, ih (by omega)]
      simp

theorem toInt_toInt64 (word : UInt64) :
    word.toInt64.toInt = if word.toNat < 2 ^ 63 then (word.toNat : Int) else word.toNat - 2 ^ 64 := by
  change (if 2 * word.toNat < 2 ^ 64 then (word.toNat : Int) else word.toNat - (2 ^ 64 : Nat)) = _
  omega

theorem toInt64_nonneg_iff {word : UInt64} : 0 ≤ word.toInt64 ↔ word ≤ 0x7FFFFFFFFFFFFFFF := by
  have bound := word.toNat_lt
  rw [Int64.le_iff_toInt_le, toInt_toInt64]
  change 0 ≤ _ ↔ word.toNat ≤ 0x7FFFFFFFFFFFFFFF
  omega

theorem toInt64_lt_toInt64_iff {left right : UInt64} (leftSmall : left < 0x8000000000000000)
    (rightSmall : right < 0x8000000000000000) : left.toInt64 < right.toInt64 ↔ left < right := by
  rw [UInt64.lt_iff_toNat_lt] at leftSmall rightSmall ⊢
  rw [Int64.lt_iff_toInt_lt, toInt_toInt64, toInt_toInt64, if_pos (by exact leftSmall), if_pos (by exact rightSmall),
    Int.ofNat_lt]

theorem mirror_toInt (n : Int64) : (-1 - n).toInt = -1 - n.toInt := by
  have lower := n.le_toInt
  have upper := n.toInt_lt
  rw [Int64.toInt_sub]
  exact Int.bmod_eq_of_le (by simp; omega) (by simp; omega)

theorem mirror_nonneg_iff {n : Int64} : 0 ≤ -1 - n ↔ n < 0 := by
  rw [Int64.le_iff_toInt_le, Int64.lt_iff_toInt_lt, mirror_toInt]
  simp only [Int64.toInt_zero]
  omega

theorem toUInt64_toNat_of_nonneg {n : Int64} (nonneg : 0 ≤ n) : (n.toUInt64.toNat : Int) = n.toInt := by
  have signed : (0 : Int) ≤ n.toInt := by simpa [Int64.le_iff_toInt_le] using nonneg
  have bits : n.toInt = if 2 * n.toUInt64.toNat < 2 ^ 64 then (n.toUInt64.toNat : Int)
      else (n.toUInt64.toNat : Int) - 2 ^ 64 := n.toBitVec.toInt_eq_toNat_cond
  have upper := n.toUInt64.toNat_lt
  split at bits <;> omega

end Aafp.Foundation
