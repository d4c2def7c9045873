import Aafp.Foundation.Bytes
import Aafp.Cbor.Value

/-! Item heads: the major type and the shortest form of the argument. -/
namespace Aafp.Cbor

open Foundation List Nat

def mtUnsigned : UInt8 := 0
def mtNegative : UInt8 := 1
def mtByteString : UInt8 := 2
def mtTextString : UInt8 := 3
def mtArray : UInt8 := 4
def mtMap : UInt8 := 5
def mtTag : UInt8 := 6
def mtSimple : UInt8 := 7

def aiOneByte : UInt8 := 24
def aiTwoBytes : UInt8 := 25
def aiFourBytes : UInt8 := 26
def aiEightBytes : UInt8 := 27
def aiBreak : UInt8 := 31

def encodeHeader (major : UInt8) (value : UInt64) : List UInt8 :=
  if value ≤ 23 then [(major <<< 5) ||| value.toUInt8]
  else if value ≤ 255 then [(major <<< 5) ||| aiOneByte, value.toUInt8]
  else if value ≤ 65535 then ((major <<< 5) ||| aiTwoBytes) :: bigEndian 2 value.toNat
  else if value ≤ 0xFFFFFFFF then ((major <<< 5) ||| aiFourBytes) :: bigEndian 4 value.toNat
  else ((major <<< 5) ||| aiEightBytes) :: bigEndian 8 value.toNat

/-- The two-, four- and eight-byte arguments: `limit` is the largest value that
has a shorter form. -/
def readWide (data : List UInt8) (pos width limit : Nat) : Except CborError (UInt64 × Nat) :=
  if pos + width > data.length then .error (.unexpectedEof pos)
  else
    let val := ofBigEndian ((data.drop pos).take width)
    if val ≤ limit then
      .error (.invalid pos s!"non-canonical encoding: value {val} should use shorter encoding")
    else .ok (UInt64.ofNat val, pos + width)

/-- Read the argument announced by the additional info `ai`, and the position
after it. -/
def readArgument (data : List UInt8) (pos : Nat) (ai : UInt8) : Except CborError (UInt64 × Nat) :=
  if ai ≤ 23 then .ok (ai.toUInt64, pos)
  else if ai = aiOneByte then
    match data[pos]? with
    | none => .error (.unexpectedEof pos)
    | some byte =>
      let val := byte.toUInt64
      if val ≤ 23 then
        .error (.invalid pos s!"non-canonical encoding: value {val} should use immediate encoding, not AI_ONE_BYTE")
      else .ok (val, pos + 1)
  else if ai = aiTwoBytes then readWide data pos 2 255
  else if ai = aiFourBytes then readWide data pos 4 65535
  else if ai = aiEightBytes then readWide data pos 8 4294967295
  else if ai = aiBreak then
    .error (.unsupported pos "break code (indefinite-length not allowed)")
  else .error (.unsupported pos s!"additional info {ai}")

def shortest (value : UInt64) : UInt8 × Nat :=
  if value ≤ 23 then (value.toUInt8, 0)
  else if value ≤ 255 then (aiOneByte, 1)
  else if value ≤ 65535 then (aiTwoBytes, 2)
  else if value ≤ 0xFFFFFFFF then (aiFourBytes, 4)
  else (aiEightBytes, 8)

theorem encodeHeader_eq (major : UInt8) (value : UInt64) : encodeHeader major value =
      ((major <<< 5) ||| (shortest value).1) :: bigEndian (shortest value).2 value.toNat := by
  unfold encodeHeader shortest
  split
  · rfl
  · split
    · simp [bigEndian]
    · split
      · rfl
      · split <;> rfl

theorem shortest_eq (value : UInt64) : shortest value =
    if value.toNat ≤ 23 then (value.toUInt8, 0)
    else if value.toNat ≤ 255 then (aiOneByte, 1)
    else if value.toNat ≤ 65535 then (aiTwoBytes, 2)
    else if value.toNat ≤ 4294967295 then (aiFourBytes, 4)
    else (aiEightBytes, 8) := by
  simp only [shortest, UInt64.le_iff_toNat_le, UInt64.reduceToNat]

variable {value first second : UInt64} {data : List UInt8}

private theorem toUInt8_toUInt64 (small : value.toNat ≤ 255) : value.toUInt8.toUInt64 = value := by
  apply UInt64.toNat_inj.mp
  exact mod_eq_of_lt (by omega)

theorem shortest_info_lt (value : UInt64) : (shortest value).1 < 32 := by
  rw [shortest_eq]
  split_ifs with small
  · change value.toNat % 2 ^ 8 < 32
    omega
  all_goals decide

private theorem headByte_table : ∀ major < 8, ∀ ai < 32,
    ((UInt8.ofNat major <<< 5) ||| UInt8.ofNat ai) >>> 5 = UInt8.ofNat major ∧
      ((UInt8.ofNat major <<< 5) ||| UInt8.ofNat ai) &&& 0x1F = UInt8.ofNat ai := by
  decide +kernel

theorem headByte_split (major ai : UInt8) (small : major < 8) (info : ai < 32) :
    ((major <<< 5) ||| ai) >>> 5 = major ∧ ((major <<< 5) ||| ai) &&& 0x1F = ai := by
  simpa using headByte_table major.toNat small ai.toNat info

private theorem headByte_join_table : ∀ byte < 256,
    ((UInt8.ofNat byte >>> 5) <<< 5) ||| (UInt8.ofNat byte &&& 0x1F) = UInt8.ofNat byte ∧
      UInt8.ofNat byte >>> 5 < 8 := by
  decide +kernel

theorem headByte_join (byte : UInt8) : ((byte >>> 5) <<< 5) ||| (byte &&& 0x1F) = byte := by
  simpa using (headByte_join_table byte.toNat byte.toNat_lt).1

theorem headByte_major_lt (byte : UInt8) : byte >>> 5 < 8 := by
  simpa using (headByte_join_table byte.toNat byte.toNat_lt).2

private theorem readWide_complete (here : data.drop pos = bigEndian width value.toNat ++ rest)
    (wide : width ≠ 0) (fits : value.toNat < 256 ^ width) (long : limit < value.toNat) :
    readWide data pos width limit = .ok (value, pos + width) := by
  have nonempty : bigEndian width value.toNat ≠ [] :=
    ne_nil_of_length_pos (by rw [length_bigEndian]; omega)
  have inside := length_at_cursor here nonempty
  have slice := take_at_cursor here
  rw [length_bigEndian] at inside slice
  unfold readWide
  rw [if_neg (by omega), slice, ofBigEndian_bigEndian_of_lt fits]
  simp [not_le.mpr long]

section

variable {next : Nat} (read : readWide data pos width limit = .ok (value, next)) (word : 256 ^ width ≤ 2 ^ 64)
include read word

private theorem readWide_sound : next = pos + width ∧ next ≤ data.length ∧ limit < value.toNat ∧
      value.toNat < 256 ^ width ∧ data.drop pos = bigEndian width value.toNat ++ data.drop next := by
  unfold readWide at read
  split at read
  · cases read
  next inside =>
    simp only at read
    split at read
    · cases read
    · cases read
      have width_eq := length_slice data (not_lt.mp inside)
      have fits := ofBigEndian_lt ((data.drop pos).take width)
      rw [width_eq] at fits
      have same : (UInt64.ofNat (ofBigEndian ((data.drop pos).take width))).toNat =
          ofBigEndian ((data.drop pos).take width) := by
        exact mod_eq_of_lt (lt_of_lt_of_le fits word)
      refine ⟨rfl, not_lt.mp inside, by omega, by omega, ?_⟩
      rw [same]
      have bytes := bigEndian_ofBigEndian ((data.drop pos).take width)
      rw [width_eq] at bytes
      rw [bytes]
      exact drop_eq_take_append data pos width

private theorem readWide_shortest
    (form : limit < value.toNat → value.toNat < 256 ^ width → shortest value = (ai, width)) :
    ai = (shortest value).1 ∧ next = pos + (shortest value).2 ∧ next ≤ data.length ∧
      data.drop pos = bigEndian (shortest value).2 value.toNat ++ data.drop next := by
  obtain ⟨moved, inside, long, fits, here⟩ := readWide_sound read word
  rw [form long fits]
  exact ⟨rfl, moved, inside, here⟩

end

theorem readArgument_complete (here : data.drop pos = bigEndian (shortest value).2 value.toNat ++ rest) :
    readArgument data pos (shortest value).1 = .ok (value, pos + (shortest value).2) := by
  have word := value.toNat_lt
  rw [shortest_eq] at here ⊢
  split_ifs at here ⊢ with small short two four
  · have immediate : value.toUInt8 ≤ 23 := by
      change value.toNat % 2 ^ 8 ≤ 23
      omega
    simp [readArgument, immediate, toUInt8_toUInt64 (le_trans small (by decide))]
  · have found := getElem?_at_cursor here
    have notShort : ¬ value ≤ 23 := by rwa [UInt64.le_iff_toNat_le]
    simp [readArgument, aiOneByte, found, toUInt8_toUInt64 short, notShort]
  all_goals exact readWide_complete here (by decide) (by omega) (by omega)

theorem readArgument_sound {next : Nat} (inside : pos ≤ data.length)
    (read : readArgument data pos ai = .ok (value, next)) :
    ai = (shortest value).1 ∧ next = pos + (shortest value).2 ∧ next ≤ data.length ∧
      data.drop pos = bigEndian (shortest value).2 value.toNat ++ data.drop next := by
  unfold readArgument at read
  split at read
  next immediate =>
    cases read
    have bound : ai.toNat ≤ 23 := UInt8.le_iff_toNat_le.mp immediate
    have form : shortest ai.toUInt64 = (ai, 0) := by
      rw [shortest_eq, UInt8.toNat_toUInt64, if_pos bound, UInt8.toUInt8_toUInt64]
    rw [form]
    exact ⟨rfl, rfl, inside, rfl⟩
  · split at read
    next one =>
      split at read
      · cases read
      next byte found =>
        simp only at read
        split at read
        · cases read
        next long =>
          cases read
          have above : 23 < byte.toNat := by
            exact not_le.mp long
          have word := byte.toNat_lt
          have form : shortest byte.toUInt64 = (aiOneByte, 1) := by
            rw [shortest_eq, UInt8.toNat_toUInt64, if_neg (by omega), if_pos (by omega)]
          have here := drop_at_cursor found
          have within : pos < data.length := (List.getElem?_eq_some_iff.mp found).1
          rw [form]
          refine ⟨one, rfl, within, ?_⟩
          simpa [bigEndian] using here
    · split at read
      next two =>
        subst two
        exact readWide_shortest read (by decide) fun _ _ => by
          rw [shortest_eq, if_neg (by omega), if_neg (by omega), if_pos (by omega)]
      · split at read
        next four =>
          subst four
          exact readWide_shortest read (by decide) fun _ _ => by
            rw [shortest_eq, if_neg (by omega), if_neg (by omega), if_neg (by omega), if_pos (by omega)]
        · split at read
          next eight =>
            subst eight
            exact readWide_shortest read (by decide) fun _ _ => by
              rw [shortest_eq, if_neg (by omega), if_neg (by omega), if_neg (by omega), if_neg (by omega)]
          · split at read <;> cases read

section

variable (major : UInt8) (value : UInt64)

@[simp] theorem encodeHeader_ne_nil : encodeHeader major value ≠ [] := by
  rw [encodeHeader_eq]
  exact cons_ne_nil _ _

theorem length_encodeHeader : (encodeHeader major value).length = (shortest value).2 + 1 := by
  rw [encodeHeader_eq, length_cons, length_bigEndian]

theorem length_encodeHeader_le : (encodeHeader major value).length ≤ 9 := by
  rw [length_encodeHeader]
  rw [shortest_eq]
  split_ifs <;> simp

private theorem drop_encodeHeader (rest : List UInt8) :
    (encodeHeader major value ++ rest).drop 1 = bigEndian (shortest value).2 value.toNat ++ rest := by
  simp [encodeHeader_eq]

theorem encodeHeader_append_inj (small₁ : major₁ < 8) (small₂ : major₂ < 8)
    (same : encodeHeader major₁ first ++ left = encodeHeader major₂ second ++ right) :
    major₁ = major₂ ∧ first = second ∧ left = right := by
  have read₁ := readArgument_complete (drop_encodeHeader major₁ first left)
  have read₂ := readArgument_complete (drop_encodeHeader major₂ second right)
  have byte := congrArg head? same
  simp only [encodeHeader_eq, cons_append, head?_cons, Option.some.injEq] at byte
  have split₁ := headByte_split major₁ (shortest first).1 small₁ (shortest_info_lt first)
  have split₂ := headByte_split major₂ (shortest second).1 small₂ (shortest_info_lt second)
  rw [byte] at split₁
  have info : (shortest first).1 = (shortest second).1 := split₁.2.symm.trans split₂.2
  rw [same, info, read₂] at read₁
  have argument : second = first := congrArg Prod.fst (Except.ok.inj read₁)
  subst argument
  obtain rfl : major₁ = major₂ := split₁.1.symm.trans split₂.1
  exact ⟨rfl, rfl, append_cancel_left same⟩

private theorem shortest_toNat : ((shortest value).1.toNat, (shortest value).2) =
    if value.toNat ≤ 23 then (value.toNat, 0)
    else if value.toNat ≤ 255 then (24, 1)
    else if value.toNat ≤ 65535 then (25, 2)
    else if value.toNat ≤ 4294967295 then (26, 4)
    else (27, 8) := by
  rw [shortest_eq]
  split_ifs
  · rw [UInt64.toNat_toUInt8, mod_eq_of_lt (by omega)]
  all_goals rfl

end

theorem lt_of_wide (wide : (shortest value).2 ≠ 0) : value.toNat < 256 ^ (shortest value).2 := by
  have word := value.toNat_lt
  rw [shortest_eq] at wide ⊢
  split_ifs at wide ⊢ <;> simp only at wide ⊢ <;> omega

private theorem shortest_mono (below : first.toNat < second.toNat) :
    ((shortest first).1.toNat < (shortest second).1.toNat ∧ (shortest first).2 ≤ (shortest second).2) ∨
      ((shortest first).1.toNat = (shortest second).1.toNat ∧
        (shortest first).2 = (shortest second).2 ∧ (shortest second).2 ≠ 0) := by
  have firstForm := shortest_toNat first
  have secondForm := shortest_toNat second
  split_ifs at firstForm secondForm <;> simp only [Prod.mk.injEq] at firstForm secondForm <;> omega

theorem length_encodeHeader_mono (major : UInt8) (below : first.toNat < second.toNat) :
    (encodeHeader major first).length ≤ (encodeHeader major second).length := by
  rw [length_encodeHeader, length_encodeHeader]
  rcases shortest_mono below with ⟨_, widths⟩ | ⟨_, widths, _⟩ <;> omega

private theorem headByte_toNat_table : ∀ major < 8, ∀ ai < 32,
    ((UInt8.ofNat major <<< 5) ||| UInt8.ofNat ai).toNat = major * 32 + ai := by
  decide +kernel

private theorem headByte_toNat {major ai : UInt8} (small : major < 8) (info : ai < 32) :
    ((major <<< 5) ||| ai).toNat = major.toNat * 32 + ai.toNat := by
  simpa using headByte_toNat_table major.toNat small ai.toNat info

theorem compare_encodeHeader (small : major < 8) (below : first.toNat < second.toNat) (left right : List UInt8) :
    compare (encodeHeader major first ++ left) (encodeHeader major second ++ right) = .lt := by
  rw [encodeHeader_eq, encodeHeader_eq, cons_append, cons_append]
  rcases shortest_mono below with ⟨info, _⟩ | ⟨info, width, wide⟩
  · refine compare_cons_lt (Std.compare_eq_lt.mpr ?_) _ _
    rw [UInt8.lt_iff_toNat_lt, headByte_toNat small (shortest_info_lt first),
      headByte_toNat small (shortest_info_lt second)]
    omega
  · have firstFits : first.toNat < 256 ^ (shortest first).2 := lt_of_wide (by omega)
    rw [UInt8.toNat_inj.mp info, List.compare_eq_compareLex, List.compareLex_cons_cons,
      ← List.compare_eq_compareLex, width, compare_bigEndian]
    · simp
    · rw [mod_eq_of_lt (lt_of_wide wide), mod_eq_of_lt (by rwa [width] at firstFits)]
      exact below

end Aafp.Cbor
