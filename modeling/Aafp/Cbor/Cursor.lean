import Aafp.Cbor.Item
import Aafp.Foundation.Cursor

/-! The decoder as it runs. -/
namespace Aafp.Cbor

open Foundation Reader List

abbrev ByteReader (β : Type) := Reader UInt8 CborError β

def readWideAt (width limit : Nat) : ByteReader UInt64 := do
  let pos ← here
  let last ← add pos width
  if last > (← size) then fail (.unexpectedEof pos)
  else
    let val := ofBigEndian (← intoArray width (← slice pos last))
    moveTo last
    if val ≤ limit then
      let offset ← sub (← here) width
      fail (.invalid offset s!"non-canonical encoding: value {val} should use shorter encoding")
    else pure (UInt64.ofNat val)

def readArgumentAt (ai : UInt8) : ByteReader UInt64 :=
  if ai ≤ 23 then pure ai.toUInt64
  else if ai = aiOneByte then do
    let pos ← here
    if pos ≥ (← size) then fail (.unexpectedEof pos)
    else
      let val := (← item pos).toUInt64
      moveTo (← add pos 1)
      if val ≤ 23 then
        let offset ← sub (← here) 1
        fail (.invalid offset
          s!"non-canonical encoding: value {val} should use immediate encoding, not AI_ONE_BYTE")
      else pure val
  else if ai = aiTwoBytes then readWideAt 2 255
  else if ai = aiFourBytes then readWideAt 4 65535
  else if ai = aiEightBytes then readWideAt 8 4294967295
  else if ai = aiBreak then do
    fail (.unsupported (← here) "break code (indefinite-length not allowed)")
  else do
    fail (.unsupported (← here) s!"additional info {ai}")

/-- The bytes of a string item. The end is computed with `checked_add`. -/
def readSliceAt (len : Nat) (what : String) : ByteReader (List UInt8) := do
  let pos ← here
  if pos + len ≥ 2 ^ 64 then fail (.invalid pos s!"{what} length overflow")
  else if pos + len > (← size) then fail (.unexpectedEof pos)
  else
    let bytes ← slice pos (pos + len)
    moveTo (pos + len)
    pure bytes

def decodeItemsAt (element : ByteReader Value) : (len : Nat) → ByteReader (List Value)
  | 0 => pure []
  | len + 1 => do
    let value ← element
    let values ← decodeItemsAt element len
    pure (value :: values)

def decodeEntriesAt (element : ByteReader Value) :
    (len : Nat) → (entries : List (Value × Value)) → ByteReader (List (Value × Value))
  | 0, entries => pure entries
  | len + 1, entries => do
    let key ← element
    let val ← element
    if entries.any (fun entry => entry.1 == key) then
      fail (.invalid (← here) "duplicate map key")
    else decodeEntriesAt element len (entries ++ [(key, val)])

def decodeSimpleAt (ai : UInt8) : ByteReader Value :=
  if ai = simpleFalse then pure (.bool false)
  else if ai = simpleTrue then pure (.bool true)
  else if ai = simpleNull then pure .null
  else if ai = simpleUndefined then pure .null
  else do
    fail (.unsupported (← here) s!"simple value {ai}")

/-- The part of `decode_value` after the head. -/
def decodeBodyAt (element : ByteReader Value) (major ai : UInt8) (arg : UInt64) : ByteReader Value :=
  if major = mtUnsigned then pure (.unsigned arg)
  else if major = mtNegative then
    if arg > i64Max then do
      fail (.invalid (← here) s!"negative integer out of range: {arg}")
    else pure (.negative (-1 - arg.toInt64))
  else if major = mtByteString then do
    let bytes ← readSliceAt arg.toNat "byte string"
    pure (.byteString bytes)
  else if major = mtTextString then do
    let bytes ← readSliceAt arg.toNat "text string"
    match fromUtf8 bytes with
    | .error error => fail (.invalid (← here) s!"invalid UTF-8: {error}")
    | .ok text => pure (.textString text)
  else if major = mtArray then do
    if arg.toNat > (← size) then fail (.unexpectedEof (← here))
    else
      let items ← decodeItemsAt element arg.toNat
      pure (.array items)
  else if major = mtMap then do
    if arg.toNat > (← size) then fail (.unexpectedEof (← here))
    else
      let entries ← decodeEntriesAt element arg.toNat []
      match mapOfEntries (← here) entries with
      | .error error => fail error
      | .ok map => pure map
  else if major = mtSimple then decodeSimpleAt ai
  else if major = mtTag then do
    fail (.unsupported (← here) s!"tag {arg}")
  else do
    fail (.unsupported (← here) s!"major type {major}")

/-- `decode_value` with `frames` calls of it that the stack has room for. -/
def decodeValueAt : (frames depth : Nat) → ByteReader Value
  | 0, _ => stop .stackExhausted
  | frames + 1, depth => do
    let pos ← here
    if pos ≥ (← size) then fail (.unexpectedEof pos)
    else if depth ≥ maxDecodeDepth then fail (.depthExceeded pos maxDecodeDepth)
    else
      let initialByte ← item pos
      let major := initialByte >>> 5
      let ai := initialByte &&& 0x1F
      moveTo (← add pos 1)
      let arg ← readArgumentAt ai
      decodeBodyAt (decodeValueAt frames (depth + 1)) major ai arg

/-- The outcome, and where the cursor was left. The stack has room for one call at each depth. -/
def runDecode (data : List UInt8) : Except Fault (Except CborError Value × Nat) :=
  decodeValueAt (maxDecodeDepth + 1) 0 data 0

section

variable {data : List UInt8}

theorem follows_readWide (bounded : data.length ≤ isizeMax) (inside : pos ≤ data.length) (narrow : width ≤ 8)
    (limit : Nat) :
    Follows data pos (readWideAt width limit) (readWide data pos width limit) := by
  have small : pos + width < 2 ^ 64 := by
    unfold isizeMax at bounded
    omega
  refine .after rfl (.after (add_ok small ..) (.after rfl (.ite (fun _ => .fail inside _) fun fits => ?_)))
  have within : pos + width ≤ data.length := Nat.not_lt.mp fits
  refine .after (slice_ok within pos) (.after (intoArray_ok (length_slice data within) ..) ?_)
  refine .afterMove (Nat.le_add_right pos width) within (.ite (fun _ => ?_) fun _ => .value within _)
  exact .after rfl (.after (sub_ok ..) (.fail within _))

private theorem small_next (bounded : data.length ≤ isizeMax) (within : pos < data.length) : pos + 1 < 2 ^ 64 := by
  unfold isizeMax at bounded
  omega

theorem follows_readArgument (bounded : data.length ≤ isizeMax) (inside : pos ≤ data.length) (ai : UInt8) :
    Follows data pos (readArgumentAt ai) (readArgument data pos ai) := by
  refine .ite (fun _ => .value inside _) fun _ => .ite (fun _ => ?_) fun _ =>
    .ite (fun _ => follows_readWide bounded inside (by decide) 255) fun _ =>
    .ite (fun _ => follows_readWide bounded inside (by decide) 65535) fun _ =>
    .ite (fun _ => follows_readWide bounded inside (by decide) 4294967295) fun _ =>
    .ite (fun _ => .after rfl (.fail inside _)) fun _ => .after rfl (.fail inside _)
  refine .after rfl (.after rfl ?_)
  by_cases atEnd : pos ≥ data.length
  · rw [if_pos atEnd]
    simp only [getElem?_eq_none atEnd]
    exact .fail inside _
  · have within : pos < data.length := Nat.not_le.mp atEnd
    have there := getElem?_eq_getElem within
    rw [if_neg atEnd]
    simp only [there]
    refine .after (item_ok there pos) (.after (add_ok (small_next bounded within) ..) ?_)
    refine .afterMove (Nat.le_add_right pos 1) within (.ite (fun _ => ?_) fun _ => .value within _)
    exact .after rfl (.after (sub_ok ..) (.fail within _))

theorem follows_readSlice (inside : pos ≤ data.length) (len : Nat) (what : String) :
    Follows data pos (readSliceAt len what) (readSlice data pos len what) := by
  refine .after rfl (.ite (fun _ => .fail inside _) fun _ => .after rfl (.ite (fun _ => .fail inside _) fun fits => ?_))
  have within : pos + len ≤ data.length := Nat.not_lt.mp fits
  exact .after (slice_ok within pos) (.afterMove (Nat.le_add_right pos len) within (.value within _))

theorem follows_decodeSimple (inside : pos ≤ data.length) (ai : UInt8) :
    Follows data pos (decodeSimpleAt ai) (decodeSimple ai pos) :=
  .ite (fun _ => .value inside _) fun _ => .ite (fun _ => .value inside _) fun _ =>
    .ite (fun _ => .value inside _) fun _ => .ite (fun _ => .value inside _) fun _ =>
    .after rfl (.fail inside _)

section Containers

variable {element : ByteReader Value} {scan : Nat → Except CborError (Value × Nat)}
variable (follows : ∀ pos, pos ≤ data.length → Follows data pos element (scan pos))
include follows

theorem follows_decodeItems (inside : pos ≤ data.length) (len : Nat) :
    Follows data pos (decodeItemsAt element len) (decodeItems scan len pos) := by
  induction len generalizing pos with
  | zero => exact .value inside _
  | succ len ih =>
    refine .bind (follows pos inside) fun value next within _ => ?_
    exact .bind (ih within) fun values last beyond _ => .value beyond _

theorem follows_decodeEntries (inside : pos ≤ data.length) (len : Nat) (entries : List (Value × Value)) :
    Follows data pos (decodeEntriesAt element len entries) (decodeEntries scan len pos entries) := by
  induction len generalizing pos entries with
  | zero => exact .value inside _
  | succ len ih =>
    refine .bind (follows pos inside) fun key next within _ => ?_
    refine .bind (follows next within) fun val last beyond _ => ?_
    exact .ite (fun _ => .after rfl (.fail beyond _)) fun _ => ih beyond (entries ++ [(key, val)])

theorem follows_decodeBody (inside : pos ≤ data.length) (major ai : UInt8) (arg : UInt64) :
    Follows data pos (decodeBodyAt element major ai arg) (decodeBody data scan major ai arg pos) := by
  refine .ite (fun _ => .value inside _) fun _ => .ite (fun _ => ?negative) fun _ => .ite (fun _ => ?bytes) fun _ =>
    .ite (fun _ => ?text) fun _ => .ite (fun _ => ?array) fun _ => .ite (fun _ => ?map) fun _ =>
    .ite (fun _ => ?simple) fun _ => .ite (fun _ => .after rfl (.fail inside _)) fun _ =>
    .after rfl (.fail inside _)
  case negative => exact .ite (fun _ => .after rfl (.fail inside _)) fun _ => .value inside _
  case bytes =>
    exact .bind (follows_readSlice inside _ _) fun bytes next within _ => .value within _
  case text =>
    refine .bind (follows_readSlice inside _ _) fun bytes next within _ => ?_
    cases decoded : fromUtf8 bytes with
    | error error =>
      simp only [decoded]
      exact .after rfl (.fail within _)
    | ok text =>
      simp only [decoded]
      exact .value within _
  case array =>
    refine .after rfl (.ite (fun _ => .after rfl (.fail inside _)) fun _ => ?_)
    exact .bind (follows_decodeItems follows inside _) fun items next within _ => .value within _
  case map =>
    refine .after rfl (.ite (fun _ => .after rfl (.fail inside _)) fun _ => ?_)
    refine .bind (follows_decodeEntries follows inside _ []) fun entries next within _ => .after rfl ?_
    dsimp only
    cases mapOfEntries next entries with
    | error error => exact .fail within _
    | ok map => exact .value within _
  case simple => exact follows_decodeSimple inside ai

end Containers

theorem follows_decodeValue_atEnd (inside : pos ≤ data.length) (atEnd : pos ≥ data.length)
    (frames depth levels : Nat) :
    Follows data pos (decodeValueAt (frames + 1) depth) (decodeValue data levels pos) := by
  unfold decodeValue
  refine .after rfl (.after rfl ?_)
  rw [if_pos atEnd]
  simp only [getElem?_eq_none atEnd]
  exact .fail inside _

/-- The budget of the scan is what the depth leaves of the limit. The stack needs room for one call
more. -/
theorem follows_decodeValue (bounded : data.length ≤ isizeMax) (levels : Nat)
    (budget : levels ≤ maxDecodeDepth) (inside : pos ≤ data.length) :
    Follows data pos (decodeValueAt (levels + 1) (maxDecodeDepth - levels)) (decodeValue data levels pos) := by
  induction levels generalizing pos with
  | zero =>
    by_cases atEnd : pos ≥ data.length
    · exact follows_decodeValue_atEnd inside atEnd ..
    · have there := getElem?_eq_getElem (Nat.not_le.mp atEnd)
      unfold decodeValue
      refine .after rfl (.after rfl ?_)
      rw [if_neg atEnd]
      simp only [there]
      exact .fail inside _
  | succ levels ih =>
    by_cases atEnd : pos ≥ data.length
    · exact follows_decodeValue_atEnd inside atEnd ..
    · have within : pos + 1 ≤ data.length := Nat.not_le.mp atEnd
      have there := getElem?_eq_getElem within
      have deeper : maxDecodeDepth - (levels + 1) + 1 = maxDecodeDepth - levels := by omega
      unfold decodeValue
      refine .after rfl (.after rfl ?_)
      rw [if_neg atEnd, if_neg (by omega), deeper]
      simp only [there]
      refine .after (item_ok there pos) (.after (add_ok (small_next bounded within) ..) ?_)
      refine .afterMove (Nat.le_add_right pos 1) within ?_
      refine .bind (follows_readArgument bounded within _) fun arg next beyond _ => ?_
      exact follows_decodeBody (fun _ inside => ih (Nat.le_of_succ_le budget) inside) beyond _ _ arg

end

/-- A value that was decoded lies in the buffer, and every buffer that begins with its bytes decodes to it. -/
theorem decode_local {value : Value} (read : decode data = .ok (value, consumed)) :
    consumed ≤ data.length ∧ ∀ rest, (data.take consumed ++ rest).length ≤ isizeMax →
      decode (data.take consumed ++ rest) = .ok (value, consumed) := by
  obtain ⟨item, spans, rfl, low⟩ := decodeValue_sound read
  have here := spans.here
  have moved := spans.moved
  rw [drop_zero] at here
  rw [Nat.zero_add] at moved
  have front : data.take consumed = item.wire := by rw [here, moved, take_left]
  refine ⟨?_, fun rest bounded => ?_⟩
  · rw [moved, here, length_append]
    exact Nat.le_add_right ..
  · rw [front] at bounded ⊢
    rw [decode, decodeValue_complete spans.accepted bounded low (drop_zero ..), Nat.zero_add, moved]

/-- The decoder reads its value and nothing after it. It returns what `decode` says, with no access
out of range and within the depth limit. -/
theorem decode_local_and_bounded :
    (∀ data value consumed, data.length ≤ isizeMax → decode data = .ok (value, consumed) →
      consumed ≤ data.length ∧ decode (data.take consumed) = .ok (value, consumed) ∧
        ∀ ext, (data ++ ext).length ≤ isizeMax → decode (data ++ ext) = .ok (value, consumed)) ∧
    ∀ data : List UInt8, data.length ≤ isizeMax → ∃ cursor,
      runDecode data = .ok ((decode data).map Prod.fst, cursor) ∧ cursor ≤ data.length ∧
        ∀ value consumed, decode data = .ok (value, consumed) → cursor = consumed := by
  constructor
  · intro data value consumed bounded read
    obtain ⟨within, alike⟩ := decode_local read
    refine ⟨within, ?_, fun ext extended => ?_⟩
    · have truncated := alike [] (by rw [append_nil, length_take]; omega)
      rwa [append_nil] at truncated
    · have longer := alike (data.drop consumed ++ ext)
      rw [← append_assoc, take_append_drop] at longer
      exact longer extended
  · intro data bounded
    obtain ⟨cursor, ran, -, within, same⟩ :=
      follows_decodeValue bounded maxDecodeDepth (Nat.le_refl _) (Nat.zero_le data.length)
    exact ⟨cursor, ran, within, same⟩

theorem decode_local_and_bounded_array :
    decode [0x81, 0x05, 0xFF] = .ok (.array [.unsigned 5], 2) ∧
      decode [0x81, 0x05] = .ok (.array [.unsigned 5], 2) ∧
      decode [0x81, 0x05, 0xFF, 0x00] = .ok (.array [.unsigned 5], 2) ∧
      ∃ cursor ≤ 3, runDecode [0x81, 0x05, 0xFF] = .ok (.ok (.array [.unsigned 5]), cursor) := by
  have read : decode [0x81, 0x05, 0xFF] = .ok (.array [.unsigned 5], 2) := by decide +kernel
  obtain ⟨-, truncated, extended⟩ := decode_local_and_bounded.1 _ _ _ (by decide) read
  obtain ⟨cursor, ran, within, -⟩ := decode_local_and_bounded.2 [0x81, 0x05, 0xFF] (by decide)
  exact ⟨read, truncated, extended [0x00] (by decide), cursor, within, ran⟩

end Aafp.Cbor
