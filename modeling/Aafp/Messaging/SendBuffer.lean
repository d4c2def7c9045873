import Aafp.Messaging.FrameStream

/-! Frames written into a buffer. -/
namespace Aafp.Messaging

open Foundation List Nat

def headerBytes (frameType : FrameType) (flags : UInt8) (streamId : UInt64) (payloadLen extLen : Nat) : List UInt8 :=
  [aafpVersion, frameType.toU8, flags, 0] ++ bigEndian 8 streamId.toNat ++ bigEndian 8 payloadLen ++
    bigEndian 8 extLen

/-- Append a frame to a buffer, which is left as it was on an error. -/
def encodeWithin (maxPayload : Nat) (buf : List UInt8) (frame : Frame) : Except FrameError Unit × List UInt8 :=
  if frame.payload.length > maxPayload then
    (.error (.payloadTooLarge frame.payload.length maxPayload), buf)
  else if frame.extensions.length > maxExtensionSize then
    (.error (.extensionTooLarge frame.extensions.length maxExtensionSize), buf)
  else
    (.ok (),
      buf ++ headerBytes frame.frameType frame.flags frame.streamId frame.payload.length frame.extensions.length ++
      frame.extensions ++ frame.payload)

def encodeFrameInto : List UInt8 → Frame → Except FrameError Unit × List UInt8 := encodeWithin maxPayloadSize

/-- Append a header and the extensions; the length of the payload is a placeholder. -/
def encodeHeaderInto (buf : List UInt8) (frameType : FrameType) (flags : UInt8) (streamId : UInt64)
    (extensions : List UInt8) : Except FrameError Unit × List UInt8 :=
  if extensions.length > maxExtensionSize then
    (.error (.extensionTooLarge extensions.length maxExtensionSize), buf)
  else (.ok (), buf ++ headerBytes frameType flags streamId 0 extensions.length ++ extensions)

/-- `copy_from_slice` at a position of a buffer. -/
def overwrite (buf : List UInt8) (pos : Nat) (bytes : List UInt8) : List UInt8 :=
  buf.take pos ++ (bytes ++ buf.drop (pos + bytes.length))

def backpatchPayloadLen (buf : List UInt8) (payloadLen : Nat) : Except FrameError Unit × List UInt8 :=
  if payloadLen > maxPayloadSize then (.error (.payloadTooLarge payloadLen maxPayloadSize), buf)
  else if buf.length < 20 then (.error (.incomplete 20 buf.length), buf)
  else (.ok (), overwrite buf 12 (bigEndian 8 payloadLen))

/-- The zero-copy path: the header, the payload after it, then the length of the payload. -/
def sendInPlace (buf : List UInt8) (frame : Frame) : Except FrameError Unit × List UInt8 :=
  match encodeHeaderInto buf frame.frameType frame.flags frame.streamId frame.extensions with
  | (.error error, buf) => (.error error, buf)
  | (.ok (), buf) => backpatchPayloadLen (buf ++ frame.payload) frame.payload.length

def FrameCodec.encode (codec : FrameCodec) (frame : Frame) (buf : List UInt8) : Except FrameError Unit × List UInt8 :=
  encodeWithin codec.maxPayload buf frame

theorem frameBytes_eq (frame : Frame) : frameBytes frame =
    headerBytes frame.frameType frame.flags frame.streamId frame.payload.length frame.extensions.length ++
      frame.extensions ++ frame.payload := rfl

section inPlace

variable {frame : Frame} {buf lead field rest : List UInt8}

def staged (frame : Frame) : List UInt8 :=
  headerBytes frame.frameType frame.flags frame.streamId 0 frame.extensions.length ++ frame.extensions ++
    frame.payload

theorem sendInPlace_eq (buf : List UInt8) (payloadFits : frame.payload.length ≤ maxPayloadSize)
    (extensionsFit : frame.extensions.length ≤ maxExtensionSize) :
    sendInPlace buf frame = (.ok (), overwrite (buf ++ staged frame) 12 (bigEndian 8 frame.payload.length)) := by
  have long : ¬ (buf ++ staged frame).length < 20 := by
    simp [staged, headerBytes]
    omega
  have same : buf ++ headerBytes frame.frameType frame.flags frame.streamId 0 frame.extensions.length ++
      frame.extensions ++ frame.payload = buf ++ staged frame := by
    simp only [staged, append_assoc]
  rw [sendInPlace, encodeHeaderInto, if_neg (not_lt.mpr extensionsFit)]
  dsimp only
  rw [backpatchPayloadLen, if_neg (not_lt.mpr payloadFits), same, if_neg long]

theorem take_drop_overwrite (field : List UInt8) (inside : pos ≤ buf.length) :
    ((overwrite buf pos field).drop pos).take field.length = field := by
  have place : (buf.take pos).length = pos := length_take_of_le inside
  rw [overwrite, drop_left' place, take_left]

theorem drop_overwrite (field : List UInt8) (inside : pos ≤ buf.length) :
    (overwrite buf pos field).drop (pos + field.length) = buf.drop (pos + field.length) := by
  have place : (buf.take pos).length = pos := length_take_of_le inside
  rw [overwrite, ← drop_drop, drop_left' place, drop_left]

/-- In an empty buffer the blank field is filled in at its place. In any other one it must be blank
anyway, and its value stand there already. -/
theorem overwrite_append_iff (blank : UInt8) :
    overwrite (buf ++ (lead ++ (replicate field.length blank ++ rest))) lead.length field =
        buf ++ (lead ++ (field ++ rest)) ↔
      buf = [] ∨ field = replicate field.length blank ∧
        ((buf ++ (lead ++ (field ++ rest))).drop lead.length).take field.length = field := by
  constructor
  · intro same
    rw [or_iff_not_imp_left]
    intro nonempty
    have shift := length_pos_iff.mpr nonempty
    have inside : lead.length ≤ (buf ++ (lead ++ (replicate field.length blank ++ rest))).length := by
      simp only [length_append]
      omega
    have placed := take_drop_overwrite field inside
    have behind := drop_overwrite field inside
    rw [same] at placed behind
    refine ⟨?_, placed⟩
    -- a byte of the field is blank if it is not overwritten, and else it is the one further on by the buffer's length
    have blanks : ∀ distance j, field.length - j = distance → j < field.length → field[j]? = some blank := by
      intro distance
      induction distance using Nat.strong_induction_on with
      | _ distance ih =>
        intro j left bound
        by_cases covered : j + buf.length < field.length
        · have further := ih (field.length - (j + buf.length)) (by omega) (j + buf.length) rfl covered
          have there := congrArg (·[j + buf.length]?) placed
          simp only [getElem?_take, getElem?_drop, if_pos covered] at there
          rw [getElem?_append_right (by omega), getElem?_append_right (by omega), getElem?_append_left (by omega),
            show lead.length + (j + buf.length) - buf.length - lead.length = j by omega] at there
          rw [there, further]
        · have there := congrArg (·[j + buf.length - field.length]?) behind
          simp only [getElem?_drop] at there
          rw [getElem?_append_right (by omega), getElem?_append_right (by omega), getElem?_append_left (by omega),
            getElem?_append_right (by omega), getElem?_append_right (by omega),
            getElem?_append_left (by rw [length_replicate]; omega),
            show lead.length + field.length + (j + buf.length - field.length) - buf.length - lead.length = j by omega]
            at there
          rw [there, getElem?_replicate, if_pos bound]
    apply ext_getElem?
    intro j
    by_cases bound : j < field.length
    · rw [blanks _ j rfl bound, getElem?_replicate, if_pos bound]
    · rw [getElem?_eq_none (not_lt.mp bound), getElem?_eq_none (by rw [length_replicate]; exact not_lt.mp bound)]
  · rintro (rfl | ⟨filled, there⟩)
    · rw [nil_append, overwrite, take_left, ← drop_drop, drop_left, drop_left' length_replicate]
      rfl
    · rw [← filled, overwrite]
      nth_rewrite 2 [← there]
      rw [← drop_eq_take_append, take_append_drop]

theorem frameBytes_payload (frame : Frame) : ∃ lead rest, lead.length = 12 ∧
    staged frame = lead ++ (replicate 8 0 ++ rest) ∧
    frameBytes frame = lead ++ (bigEndian 8 frame.payload.length ++ rest) := by
  refine ⟨[aafpVersion, frame.frameType.toU8, frame.flags, 0] ++ bigEndian 8 frame.streamId.toNat,
    bigEndian 8 frame.extensions.length ++ frame.extensions ++ frame.payload, by simp, ?_, ?_⟩
  · simp [staged, headerBytes, bigEndian]
  · simp [frameBytes]

theorem bigEndian_eq_zeros (fits : value < 256 ^ width) : bigEndian width value = replicate width 0 ↔ value = 0 := by
  have zeros : bigEndian width 0 = replicate width 0 := by
    clear fits
    induction width with
    | zero => rfl
    | succ width ih => simp [bigEndian, ih, replicate_succ]
  constructor
  · intro same
    rw [← ofBigEndian_bigEndian_of_lt fits, same, ← zeros, ofBigEndian_bigEndian, Nat.zero_mod]
  · rintro rfl
    exact zeros

theorem overwrite_staged_iff (payloadFits : frame.payload.length ≤ maxPayloadSize) :
    overwrite (buf ++ staged frame) 12 (bigEndian 8 frame.payload.length) = buf ++ frameBytes frame ↔
      buf = [] ∨ frame.payload = [] ∧ ((buf ++ frameBytes frame).drop 12).take 8 = replicate 8 0 := by
  have zeros := @bigEndian_eq_zeros _ 8 (payloadFits.trans_lt (by decide))
  obtain ⟨lead, rest, place, blank, filled⟩ := frameBytes_payload frame
  have exactly := @overwrite_append_iff buf lead (bigEndian 8 frame.payload.length) rest 0
  rw [length_bigEndian, place, ← blank, ← filled, zeros, length_eq_zero_iff] at exactly
  rw [exactly]
  refine or_congr_right (and_congr_right fun empty => ?_)
  rw [zeros.mpr (by rw [empty]; rfl)]
end inPlace

/-- The length of the payload is always written to the bytes 12 to 20 of the whole buffer. -/
theorem sendInPlace_appends_iff (buf : List UInt8) (frame : Frame)
    (extensionsFit : frame.extensions.length ≤ maxExtensionSize)
    (payloadFits : frame.payload.length ≤ maxPayloadSize) :
    ∃ bytes, encodeFrame frame = .ok bytes ∧ encodeFrameInto buf frame = (.ok (), buf ++ bytes) ∧
      sendInPlace buf frame = (.ok (), overwrite (buf ++ staged frame) 12 (bigEndian 8 frame.payload.length)) ∧
      (sendInPlace buf frame = (.ok (), buf ++ bytes) ↔
        buf = [] ∨ frame.payload = [] ∧ ((buf ++ bytes).drop 12).take 8 = replicate 8 0) := by
  have inPlace := sendInPlace_eq buf payloadFits extensionsFit
  refine ⟨frameBytes frame, ?_, ?_, inPlace, ?_⟩
  · rw [encodeFrame, if_neg (not_lt.mpr payloadFits), if_neg (not_lt.mpr extensionsFit)]
  · rw [encodeFrameInto, encodeWithin, if_neg (not_lt.mpr payloadFits), if_neg (not_lt.mpr extensionsFit),
      frameBytes_eq]
    simp only [append_assoc]
  · rw [inPlace, Prod.mk.injEq, eq_self_iff_true, true_and]
    exact overwrite_staged_iff payloadFits

def dataFrame (payload : List UInt8) : Frame := ⟨.data, 0, 4, [], payload⟩

theorem sendInPlace_appends_to_empty :
    sendInPlace [] (dataFrame [1, 2]) = (.ok (), frameBytes (dataFrame [1, 2])) := by
  obtain ⟨bytes, encoded, -, -, appends⟩ := sendInPlace_appends_iff [] (dataFrame [1, 2]) (by decide) (by decide)
  cases encoded
  exact appends.mpr (.inl rfl)

/-- The second frame of a buffer has no payload any more, and the first one reaches into the second. -/
theorem sendInPlace_twice : encodeFrameInto (frameBytes (dataFrame [7])) (dataFrame [1, 2]) =
        (.ok (), frameBytes (dataFrame [7]) ++ frameBytes (dataFrame [1, 2])) ∧
      sendInPlace (frameBytes (dataFrame [7])) (dataFrame [1, 2]) ≠
        (.ok (), frameBytes (dataFrame [7]) ++ frameBytes (dataFrame [1, 2])) ∧
      decodeFrame (sendInPlace (frameBytes (dataFrame [7])) (dataFrame [1, 2])).2 =
        .ok (dataFrame [7, aafpVersion], 30) := by
  decide +kernel

section codec

variable {codec : FrameCodec} {frame : Frame}

theorem FrameCodec.encode_eq_ok (written : codec.encode frame [] = (.ok (), buf)) :
    frame.payload.length ≤ codec.maxPayload ∧ frame.extensions.length ≤ maxExtensionSize ∧ buf = frameBytes frame := by
  unfold FrameCodec.encode encodeWithin at written
  split at written
  · cases written
  next payloadFits =>
    split at written
    · cases written
    next extensionsFit =>
      cases written
      exact ⟨not_lt.mp payloadFits, not_lt.mp extensionsFit, by rw [frameBytes_eq]; rfl⟩

theorem FrameCodec.decode_frameBytes (payloadFits : frame.payload.length ≤ codec.maxPayload)
    (extensionsFit : frame.extensions.length ≤ maxExtensionSize)
    (word : (frameBytes frame).length < 2 ^ 64) (rest : List UInt8) : codec.decode (frameBytes frame ++ rest) =
      ((decodeFrame (frameBytes frame)).map fun decoded => some decoded.1, rest) := by
  have size := length_frameBytes frame
  have header : HeaderOf frame (frameBytes frame ++ rest) := headerOf_frameBytes (by omega) (by omega) rest
  have total : frameHeaderSize + frame.extensions.length + frame.payload.length = (frameBytes frame).length := by omega
  unfold FrameCodec.decode
  rw [if_neg (by rw [length_append]; omega)]
  simp only [header.payloadLen, header.extLen]
  rw [if_neg (not_lt.mpr payloadFits), if_neg (not_lt.mpr extensionsFit), if_neg (by omega), total,
    if_neg (by rw [length_append]; omega), take_left, drop_left]
  cases decodeFrame (frameBytes frame) with
  | error error => rfl
  | ok decoded => rfl

theorem FrameCodec.payload_le_of_decode (decoded : codec.decode buf = (.ok (some frame), rest)) :
    frame.payload.length ≤ maxPayloadSize := by
  obtain ⟨data, size, whole, -⟩ := decode_eq_some decoded
  obtain ⟨complete, rfl, -⟩ := decodeFrame_eq_ok whole
  exact (length_take_le _ _).trans complete.payloadFits

end codec

/-- A codec reads back what it has written exactly if the payload is within the global limit. -/
theorem FrameCodec.reads_back_iff (max : Nat) (frame : Frame) (rest buf : List UInt8)
    (canonical : FrameType.fromU8 frame.frameType.toU8 = frame.frameType)
    (accepted : frame.frameType.isUnknown = false ∨ frame.flags &&& flagCritical = 0)
    (written : (FrameCodec.withMaxPayload max).encode frame [] = (.ok (), buf)) :
    (FrameCodec.withMaxPayload max).decode (buf ++ rest) = (.ok (some frame), rest) ↔
      frame.payload.length ≤ maxPayloadSize := by
  constructor
  · exact payload_le_of_decode
  · intro payloadFits
    obtain ⟨within, extensionsFit, rfl⟩ := encode_eq_ok written
    have sendable : frame.Sendable := by
      refine ⟨canonical, ?_, payloadFits, extensionsFit⟩
      rintro ⟨unknown, critical⟩
      rcases accepted with known | clear
      · rw [known] at unknown
        cases unknown
      · exact critical clear
    have word : (frameBytes frame).length < 2 ^ 64 := by
      rw [length_frameBytes]
      unfold maxPayloadSize at payloadFits
      unfold maxExtensionSize at extensionsFit
      unfold frameHeaderSize
      omega
    have whole := decodeFrame_frameBytes sendable []
    rw [append_nil] at whole
    rw [decode_frameBytes within extensionsFit word, whole]
    rfl

theorem FrameCodec.reads_back_data : (FrameCodec.withMaxPayload 16).decode (frameBytes (dataFrame [1, 2]) ++ [9]) =
      (.ok (some (dataFrame [1, 2])), [9]) :=
  (reads_back_iff 16 (dataFrame [1, 2]) [9] (frameBytes (dataFrame [1, 2])) rfl (.inl rfl) rfl).mpr (by decide)

/-- A payload of one byte more than the global limit, for a codec that allows it. -/
theorem FrameCodec.refuses_own_frame :
    let codec := FrameCodec.withMaxPayload (maxPayloadSize + 1)
    let frame := dataFrame (replicate (maxPayloadSize + 1) 0)
    codec.encode frame [] = (.ok (), frameBytes frame) ∧
      codec.decode (frameBytes frame) ≠ (.ok (some frame), []) := by
  intro codec frame
  have size : frame.payload.length = maxPayloadSize + 1 := length_replicate
  have fits : frame.payload.length ≤ codec.maxPayload := le_of_eq size
  constructor
  · rw [encode, encodeWithin, if_neg (not_lt.mpr fits)]
    rfl
  · intro decoded
    have within := payload_le_of_decode decoded
    omega

end Aafp.Messaging
