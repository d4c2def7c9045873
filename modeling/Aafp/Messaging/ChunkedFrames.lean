import Aafp.Messaging.FrameStream

/-! Frames sent one after another and received in chunks. -/
namespace Aafp.Messaging

open Foundation List

theorem drop_shrinks (decoded : decodeFrame data = .ok (frame, size)) : (data.drop size).length < data.length := by
  obtain ⟨complete, -, rfl⟩ := decodeFrame_eq_ok decoded
  have whole := complete.whole
  rw [length_drop]
  unfold announced frameHeaderSize at *
  omega

/-- `decode_frame` called again and again on what is left of the data, until nothing is. -/
def sliceDecoder : StreamDecoder UInt8 Frame FrameError where
  step data :=
    if data.isEmpty then (.ok none, data)
    else match decodeFrame data with
      | .ok (frame, size) => (.ok (some frame), data.drop size)
      | .error error => (.error error, data)
  shrinks := by
    intro data frame rest taken
    split at taken
    · cases taken
    · split at taken
      next decoded =>
        obtain ⟨-, rfl⟩ := Prod.mk.inj taken
        exact drop_shrinks decoded
      · cases taken

def bufferDecoder : StreamDecoder UInt8 DecodedFrame FrameError where
  step := decodeFrameFrom
  shrinks := by
    intro data frame rest taken
    rw [decodeFrameFrom_eq] at taken
    cases outcome : decodeFrame data with
    | ok decoded =>
      rw [outcome] at taken
      obtain ⟨-, rfl⟩ := Prod.mk.inj taken
      exact drop_shrinks outcome
    | error error =>
      rw [outcome] at taken
      cases error <;> cases taken

def codecDecoder (codec : FrameCodec) : StreamDecoder UInt8 Frame FrameError where
  step := codec.decode
  shrinks := by
    intro data frame rest taken
    obtain ⟨-, -, -, shorter⟩ := FrameCodec.decode_eq_some taken
    exact shorter

variable {frame : Frame}

theorem headerOf_part (sendable : frame.Sendable) (part : data <+: frameBytes frame)
    (long : ¬ data.length < frameHeaderSize) : HeaderOf frame data := by
  have header := (frameAt_frameBytes sendable []).1
  rw [append_nil] at header
  have size : frameHeaderSize = 28 := rfl
  have same := prefix_iff_eq_take.mp part
  generalize len : data.length = count at same long
  subst same
  constructor
  · rw [byteAt_take (by omega), header.version]
  · rw [byteAt_take (by omega), header.frameType]
  · rw [byteAt_take (by omega), header.flags]
  · rw [readU64_take (by omega), header.streamId]
  · rw [readU64_take (by omega), header.payloadLen]
  · rw [readU64_take (by omega), header.extLen]

theorem decodeFrame_part (sendable : frame.Sendable) (part : data <+: frameBytes frame)
    (proper : data ≠ frameBytes frame) : ∃ needed, decodeFrame data = .error (.incomplete needed data.length) := by
  by_cases short : data.length < frameHeaderSize
  · exact ⟨frameHeaderSize, by rw [decodeFrame_eq, if_pos short]⟩
  · have header := headerOf_part sendable part short
    have payloadFits : ¬ (readU64 data 12).toNat > maxPayloadSize := by
      rw [header.payloadLen]
      exact Nat.not_lt.mpr sendable.payloadFits
    have extensionsFit : ¬ (readU64 data 20).toNat > maxExtensionSize := by
      rw [header.extLen]
      exact Nat.not_lt.mpr sendable.extensionsFit
    have less : data.length < announced data := by
      rw [header.announced_eq]
      exact Nat.lt_of_le_of_ne part.length_le fun same => proper (part.eq_of_length same)
    refine ⟨announced data, ?_⟩
    rw [decodeFrame_eq, if_neg short, if_neg (not_not.mpr header.version), if_neg payloadFits,
      if_neg extensionsFit, if_pos less]

def Frame.toDecoded (frame : Frame) : DecodedFrame :=
  ⟨frame.frameType, frame.flags, frame.streamId, frame.extensions, frame.payload⟩

theorem decodeFrameFrom_frameBytes (sendable : frame.Sendable) (rest : List UInt8) :
    decodeFrameFrom (frameBytes frame ++ rest) = (.ok (some frame.toDecoded), rest) := by
  rw [decodeFrameFrom_eq, decodeFrame_frameBytes sendable, fromWhole, drop_left, Frame.toDecoded]

theorem decodeFrameFrom_part (sendable : frame.Sendable) (part : data <+: frameBytes frame)
    (proper : data ≠ frameBytes frame) : decodeFrameFrom data = (.ok none, data) := by
  obtain ⟨needed, refused⟩ := decodeFrame_part sendable part proper
  rw [decodeFrameFrom_eq, refused, fromWhole]

theorem bufferDecoder_reads {frames : List Frame} (sendable : ∀ frame ∈ frames, frame.Sendable) :
    bufferDecoder.Reads (fun decoded => frameBytes decoded.toFrame) (frames.map Frame.toDecoded) := by
  have step : bufferDecoder.step = decodeFrameFrom := rfl
  constructor <;> rw [step]
  · simp [decodeFrameFrom, frameHeaderSize]
  · exact forall_mem_map.mpr fun frame mem => decodeFrameFrom_frameBytes (sendable frame mem)
  · exact forall_mem_map.mpr fun frame mem _ => decodeFrameFrom_part (sendable frame mem)

theorem codec_part (sendable : frame.Sendable) (part : data <+: frameBytes frame) (proper : data ≠ frameBytes frame) :
    FrameCodec.new.decode data = (.ok none, data) := by
  obtain ⟨needed, refused⟩ := decodeFrame_part sendable part proper
  rw [codec_of_version fun long => (headerOf_part sendable part long).version, refused, splitWhole]

theorem codecDecoder_reads (sendable : ∀ frame ∈ frames, frame.Sendable) :
    (codecDecoder .new).Reads frameBytes frames := by
  have step : (codecDecoder .new).step = FrameCodec.new.decode := rfl
  constructor <;> rw [step]
  · simp [FrameCodec.decode, frameHeaderSize]
  · intro frame mem rest
    have header := (frameAt_frameBytes (sendable frame mem) rest).1
    rw [codec_of_version fun _ => header.version, decodeFrame_frameBytes (sendable frame mem), splitWhole, drop_left]
  · exact fun frame mem _ => codec_part (sendable frame mem)

theorem sliceDecoder_frameBytes (sendable : frame.Sendable) (rest : List UInt8) :
    sliceDecoder.step (frameBytes frame ++ rest) = (.ok (some frame), rest) := by
  have present : (frameBytes frame ++ rest).isEmpty = false := by simp [frameBytes]
  simp only [sliceDecoder, present, decodeFrame_frameBytes sendable, Bool.false_eq_true, if_false, drop_left]

theorem fromU8_of_unregistered (outside : ¬ (1 ≤ raw ∧ raw ≤ 8)) : FrameType.fromU8 raw = .unknown raw := by
  have apart : ∀ known : UInt8, 1 ≤ known ∧ known ≤ 8 → raw ≠ known :=
    fun known inside same => outside (same ▸ inside)
  rw [FrameType.fromU8, if_neg (apart 1 (by decide)), if_neg (apart 2 (by decide)),
    if_neg (apart 3 (by decide)), if_neg (apart 4 (by decide)), if_neg (apart 5 (by decide)),
    if_neg (apart 6 (by decide)), if_neg (apart 7 (by decide)), if_neg (apart 8 (by decide))]

/-- An encoded frame can be read back, if its type is not a known one under another name, or an
unknown critical one. -/
theorem sendable_of_encodeFrame (encoded : encodeFrame frame = .ok bytes)
    (named : ∀ raw, frame.frameType = .unknown raw → ¬ (1 ≤ raw ∧ raw ≤ 8) ∧ frame.flags &&& flagCritical = 0) :
    frame.Sendable ∧ bytes = frameBytes frame := by
  simp only [encodeFrame, ite_error_eq_ok, Nat.not_lt] at encoded
  obtain ⟨payloadFits, extensionsFit, ⟨⟩⟩ := encoded
  refine ⟨⟨?_, ?_, payloadFits, extensionsFit⟩, rfl⟩
  · cases type : frame.frameType with
    | unknown raw => exact fromU8_of_unregistered (named raw type).1
    | _ => rfl
  · rintro ⟨unknown, critical⟩
    cases type : frame.frameType with
    | unknown raw => exact critical (named raw type).2
    | _ => simp [type, FrameType.isUnknown] at unknown

/-- The frames of a stream, cut into chunks anywhere, are received in order by both stream decoders,
with nothing left in the buffer. -/
theorem chunking_keeps_frames (frames : List Frame) (encodings chunks : List (List UInt8))
    (encoded : frames.mapM encodeFrame = .ok encodings)
    (named : ∀ frame ∈ frames, ∀ raw, frame.frameType = .unknown raw →
      ¬ (1 ≤ raw ∧ raw ≤ 8) ∧ frame.flags &&& flagCritical = 0) (cut : chunks.flatten = encodings.flatten) :
    bufferDecoder.receive [] chunks = ⟨frames.map Frame.toDecoded, none, []⟩ ∧
      (codecDecoder .new).receive [] chunks = ⟨frames, none, []⟩ ∧
      sliceDecoder.drain encodings.flatten = ⟨frames, none, []⟩ := by
  obtain ⟨sendable, rfl⟩ := mapM_eq_ok (fun frame mem _ accepted =>
    sendable_of_encodeFrame accepted (named frame mem)) encoded
  have stream : (frames.map frameBytes).flatten = frames.flatMap frameBytes := (flatMap_def ..).symm
  have decodedStream : (frames.map frameBytes).flatten =
      (frames.map Frame.toDecoded).flatMap fun decoded => frameBytes decoded.toFrame := by
    rw [flatMap_map]
    rfl
  refine ⟨?_, ?_, ?_⟩
  · have reads := bufferDecoder_reads sendable
    exact reads.receive reads.empty (cut.trans decodedStream)
  · have reads := codecDecoder_reads sendable
    exact reads.receive reads.empty (cut.trans stream)
  · have drained := StreamDecoder.drain_items (fun frame mem =>
      sliceDecoder_frameBytes (sendable frame mem)) (show sliceDecoder.step [] = _ from rfl)
    rwa [append_nil] at drained

def twoFrames : List Frame :=
  [{ frameType := .ping, flags := 0, streamId := 4, extensions := [], payload := [] },
    { frameType := .unknown 9, flags := 1, streamId := 7, extensions := [9], payload := [1, 2] }]

/-- Two frames, cut inside the header of the first and inside that of the second. -/
theorem chunking_keeps_two_frames :
    let stream := twoFrames.flatMap frameBytes
    let chunks := [stream.take 5, (stream.drop 5).take 30, stream.drop 35]
    bufferDecoder.receive [] chunks = ⟨twoFrames.map Frame.toDecoded, none, []⟩ ∧
      (codecDecoder .new).receive [] chunks = ⟨twoFrames, none, []⟩ :=
  have received := chunking_keeps_frames twoFrames (twoFrames.map frameBytes) _ (by decide +kernel)
    (by simpa [twoFrames, flagCritical] using by decide) (by decide +kernel)
  ⟨received.1, received.2.1⟩

end Aafp.Messaging
