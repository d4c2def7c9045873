import Mathlib.Data.Nat.Digits.Defs
import Mathlib.Data.UInt

/-! Decimal and hexadecimal text of numbers and bytes. -/
namespace Aafp.Foundation

def decimal (n : UInt64) : List Char := Nat.toDigits 10 n.toNat

def parseDigits (digits : List Char) : Option UInt64 :=
  if digits ≠ [] ∧ digits.all Char.isDigit ∧ Nat.ofDigitChars 10 digits 0 < UInt64.size then
    some (.ofNat (Nat.ofDigitChars 10 digits 0))
  else none

/-- `parse::<u64>`, which accepts a leading plus sign. -/
def parseU64 : List Char → Option UInt64
  | '+' :: digits => parseDigits digits
  | digits => parseDigits digits

theorem isDigit_of_mem_decimal (mem : char ∈ decimal n) : char.isDigit :=
  Nat.isDigit_of_mem_toDigits (by decide) (by decide) mem

theorem parseDigits_decimal (n : UInt64) : parseDigits (decimal n) = some n := by
  have value : Nat.ofDigitChars 10 (decimal n) 0 = n.toNat := Nat.ofDigitChars_ten_toDigits
  have all : (decimal n).all Char.isDigit := List.all_eq_true.mpr fun _ => isDigit_of_mem_decimal
  rw [parseDigits, value, if_pos ⟨Nat.toDigits_ne_nil, all, n.toNat_lt_size⟩, UInt64.ofNat_toNat]

theorem parseU64_decimal (n : UInt64) : parseU64 (decimal n) = some n := by
  rw [← parseDigits_decimal n, parseU64.eq_def]
  split
  next digits same =>
    have plus : '+' ∈ decimal n := by simp [same]
    exact absurd (isDigit_of_mem_decimal plus) (by decide)
  · rfl

theorem le_ofDigitChars (digits : List Char) (start : Nat) : start ≤ Nat.ofDigitChars 10 digits start := by
  induction digits generalizing start with
  | nil => simp
  | cons digit digits ih =>
    rw [Nat.ofDigitChars_cons]
    refine Nat.le_trans ?_ (ih _)
    omega

theorem le_of_decimal_starts (starts : decimal n <+: decimal more) : n ≤ more := by
  obtain ⟨rest, whole⟩ := starts
  have value : Nat.ofDigitChars 10 (decimal n ++ rest) 0 = more.toNat := by
    rw [whole]
    exact Nat.ofDigitChars_ten_toDigits
  rw [Nat.ofDigitChars_append, decimal, Nat.ofDigitChars_ten_toDigits] at value
  rw [UInt64.le_iff_toNat_le, ← value]
  exact le_ofDigitChars rest n.toNat

/-- Lower-case digits, padded with zeros to `width`, as `{:0width$x}`. -/
def hexLower (width n : Nat) : String :=
  let digits := Nat.toDigits 16 n
  String.ofList (List.replicate (width - digits.length) '0' ++ digits)

/-- Upper-case digits, padded with zeros to `width`, as `{:0width$X}`. -/
def hexUpper (width n : Nat) : String := (hexLower width n).map Char.toUpper

/-- Two lower-case digits for every byte, as `hex::encode`. -/
def hexEncode (bytes : List UInt8) : String := String.join (bytes.map fun byte => hexLower 2 byte.toNat)

def hexDigit (char : Char) : Option UInt8 :=
  if '0' ≤ char ∧ char ≤ '9' then some (char.toNat - '0'.toNat).toUInt8
  else if 'a' ≤ char ∧ char ≤ 'f' then some (char.toNat - 'a'.toNat + 10).toUInt8
  else if 'A' ≤ char ∧ char ≤ 'F' then some (char.toNat - 'A'.toNat + 10).toUInt8
  else none

/-- Two digits for every byte, as `hex::decode`. -/
def hexDecode : List Char → Option (List UInt8)
  | [] => some []
  | [_] => none
  | high :: low :: rest => do
    let high ← hexDigit high
    let low ← hexDigit low
    let bytes ← hexDecode rest
    some ((high * 16 + low) :: bytes)

example : hexDecode "0aF1".toList = some [0x0A, 0xF1] := by decide +kernel

example : hexUpper 2 0xA = "0A" := by decide +kernel

theorem toList_hexLower_two (small : n < 256) :
    (hexLower 2 n).toList = [Nat.digitChar (n / 16), Nat.digitChar (n % 16)] := by
  rw [hexLower, String.toList_ofList]
  by_cases single : n < 16
  · rw [Nat.toDigits_of_lt_base single, Nat.div_eq_of_lt single, Nat.mod_eq_of_lt single]
    rfl
  · have high : n / 16 < 16 := by omega
    rw [Nat.toDigits_of_base_le (by decide) (Nat.not_lt.mp single), Nat.toDigits_of_lt_base high]
    rfl

theorem hexDigit_digitChar : ∀ digit < 16,
    hexDigit (Nat.digitChar digit) = some (.ofNat digit) ∧ Nat.digitChar digit ≠ '_' := by
  decide

theorem hexLower_byte (byte : UInt8) : ∃ high low, (hexLower 2 byte.toNat).toList = [high, low] ∧
    hexDecode [high, low] = some [byte] ∧ high ≠ '_' ∧ low ≠ '_' := by
  have upper : byte.toNat / 16 < 16 := Nat.div_lt_of_lt_mul byte.toNat_lt
  have lower : byte.toNat % 16 < 16 := Nat.mod_lt _ (by decide)
  obtain ⟨readUpper, freeUpper⟩ := hexDigit_digitChar _ upper
  obtain ⟨readLower, freeLower⟩ := hexDigit_digitChar _ lower
  refine ⟨_, _, toList_hexLower_two byte.toNat_lt, ?_, freeUpper, freeLower⟩
  have sum : UInt8.ofNat (byte.toNat / 16) * 16 + UInt8.ofNat (byte.toNat % 16) = byte := by
    rw [show (16 : UInt8) = .ofNat 16 from rfl, ← UInt8.ofNat_mul, ← UInt8.ofNat_add, Nat.div_add_mod',
      UInt8.ofNat_toNat]
  simp only [hexDecode, readUpper, readLower, Option.bind_eq_bind, Option.bind_some, sum]

theorem toList_hexEncode_cons (byte : UInt8) (bytes : List UInt8) :
    (hexEncode (byte :: bytes)).toList = (hexLower 2 byte.toNat).toList ++ (hexEncode bytes).toList := by
  simp [hexEncode, String.toList_join]

theorem hexDecode_pair (read : hexDecode [high, low] = some [byte]) (rest : List Char) :
    hexDecode (high :: low :: rest) = (hexDecode rest).map (byte :: ·) := by
  cases first : hexDigit high with
  | none => simp [hexDecode, first] at read
  | some upper =>
    cases second : hexDigit low with
    | none => simp [hexDecode, first, second] at read
    | some lower =>
      simp only [hexDecode, first, second, Option.bind_eq_bind, Option.bind_some, Option.some.injEq,
        List.cons.injEq, and_true] at read
      subst read
      simp only [hexDecode, first, second, Option.bind_eq_bind, Option.bind_some]
      cases hexDecode rest <;> rfl

theorem hexDecode_hexEncode (bytes : List UInt8) : hexDecode (hexEncode bytes).toList = some bytes := by
  induction bytes with
  | nil => rfl
  | cons byte bytes ih =>
    obtain ⟨high, low, same, read, -⟩ := hexLower_byte byte
    rw [toList_hexEncode_cons, same, List.cons_append, List.cons_append, List.nil_append,
      hexDecode_pair read, ih, Option.map_some]

theorem hexEncode_inj (same : (hexEncode bytes).toList = (hexEncode others).toList) : bytes = others := by
  have read := hexDecode_hexEncode bytes
  rw [same, hexDecode_hexEncode] at read
  exact (Option.some.inj read).symm

theorem underscore_notMem_hexEncode (bytes : List UInt8) : '_' ∉ (hexEncode bytes).toList := by
  induction bytes with
  | nil => simp [hexEncode]
  | cons byte bytes ih =>
    obtain ⟨high, low, same, -, notHigh, notLow⟩ := hexLower_byte byte
    rw [toList_hexEncode_cons, same]
    simp [ih, Ne.symm notHigh, Ne.symm notLow]

end Aafp.Foundation
