import Aafp.Foundation.Chunking
import Aafp.Messaging.Framing

/-! Frames from a buffer that is still being filled. -/
namespace Aafp.Messaging

open Foundation List

structure DecodedFrame where
  frameType : FrameType
  flags : UInt8
  streamId : UInt64
  extensions : List UInt8
  payload : List UInt8
deriving DecidableEq

def DecodedFrame.toFrame (decoded : DecodedFrame) : Frame :=
  { frameType := decoded.frameType, flags := decoded.flags, streamId := decoded.streamId
    extensions := decoded.extensions, payload := decoded.payload }

def splitTo (len : Nat) (buf : List UInt8) : List UInt8 × List UInt8 :=
  if len > 0 then (buf.take len, buf.drop len) else ([], buf)

/-- Decode a frame from the front of a buffer. The buffer is advanced only after
every check has passed. -/
def decodeFrameFrom (buf : List UInt8) : Except FrameError (Option DecodedFrame) × List UInt8 :=
  if buf.length < frameHeaderSize then (.ok none, buf)
  else
    let version := byteAt buf 0
    let frameTypeRaw := byteAt buf 1
    let flags := byteAt buf 2
    let streamId := readU64 buf 4
    let payloadLen := (readU64 buf 12).toNat
    let extLen := (readU64 buf 20).toNat
    let totalBody := extLen + payloadLen
    let totalFrame := frameHeaderSize + totalBody
    let frameType := FrameType.fromU8 frameTypeRaw
    if version ≠ aafpVersion then (.error (.invalidVersion version aafpVersion), buf)
    else if payloadLen > maxPayloadSize then (.error (.payloadTooLarge payloadLen maxPayloadSize), buf)
    else if extLen > maxExtensionSize then (.error (.extensionTooLarge extLen maxExtensionSize), buf)
    else if totalBody ≥ 2 ^ 64 then (.error (.payloadTooLarge (2 ^ 64 - 1) maxPayloadSize), buf)
    else if totalFrame ≥ 2 ^ 64 then (.error (.payloadTooLarge (2 ^ 64 - 1) maxPayloadSize), buf)
    else if buf.length < totalFrame then (.ok none, buf)
    else if frameType.isUnknown ∧ flags &&& flagCritical ≠ 0 then
      (.error (.unknownFrameType frameTypeRaw), buf)
    else
      let buf := buf.drop frameHeaderSize
      let (extensions, buf) := splitTo extLen buf
      let (payload, buf) := splitTo payloadLen buf
      (.ok (some { frameType, flags, streamId, extensions, payload }), buf)

structure FrameCodec where
  maxPayload : Nat

namespace FrameCodec

def new : FrameCodec := { maxPayload := maxPayloadSize }

def withMaxPayload (max : Nat) : FrameCodec := { maxPayload := max }

/-- The frame is split off the buffer before its version and type are checked. -/
def decode (codec : FrameCodec) (buf : List UInt8) : Except FrameError (Option Frame) × List UInt8 :=
  if buf.length < frameHeaderSize then (.ok none, buf)
  else
    let payloadLen := (readU64 buf 12).toNat
    let extLen := (readU64 buf 20).toNat
    if payloadLen > codec.maxPayload then
      (.error (.payloadTooLarge payloadLen codec.maxPayload), buf)
    else if extLen > maxExtensionSize then
      (.error (.extensionTooLarge extLen maxExtensionSize), buf)
    else if frameHeaderSize + extLen ≥ 2 ^ 64 ∨ frameHeaderSize + extLen + payloadLen ≥ 2 ^ 64 then
      (.error (.payloadTooLarge (2 ^ 64 - 1) codec.maxPayload), buf)
    else
      let total := frameHeaderSize + extLen + payloadLen
      if buf.length < total then (.ok none, buf)
      else
        let data := buf.take total
        let buf := buf.drop total
        match decodeFrame data with
        | .error error => (.error error, buf)
        | .ok (frame, _) => (.ok (some frame), buf)

end FrameCodec

theorem FrameCodec.decode_eq_some {codec : FrameCodec} (decoded : codec.decode buf = (.ok (some frame), rest)) :
    ∃ data size, decodeFrame data = .ok (frame, size) ∧ rest.length < buf.length := by
  unfold decode at decoded
  simp only at decoded
  iterate 6
    split at decoded
    · cases decoded
  next decodedFrame =>
    cases decoded
    refine ⟨_, _, decodedFrame, ?_⟩
    rw [length_drop]
    unfold frameHeaderSize at *
    omega

theorem splitTo_eq (len : Nat) (buf : List UInt8) : splitTo len buf = (buf.take len, buf.drop len) := by
  unfold splitTo
  split
  · rfl
  · obtain rfl : len = 0 := by omega
    simp

variable {data buf : List UInt8}

theorem complete_of_unknown (refused : decodeFrame data = .error (.unknownFrameType raw)) :
    Complete data ∧ UnknownCritical data := by
  by_cases whole : byteAt data 0 = aafpVersion ∧ Complete data
  · refine ⟨whole.2, ?_⟩
    by_contra accepted
    rw [decodeFrame_complete whole.1 whole.2, if_neg accepted] at refused
    cases refused
  · obtain ⟨error, same, apart⟩ := decodeFrame_refused whole
    rw [refused] at same
    exact absurd (Except.error.inj same).symm (apart raw)

theorem byteAt_take (inside : index < len) : byteAt (data.take len) index = byteAt data index := by
  rw [byteAt, byteAt, getD_eq_getElem?_getD, getD_eq_getElem?_getD, getElem?_take_of_lt inside]

theorem readU64_take (inside : pos + 8 ≤ len) : readU64 (data.take len) pos = readU64 data pos := by
  rw [readU64, readU64, drop_take, take_take, Nat.min_eq_left (by omega)]

theorem announced_take (long : frameHeaderSize ≤ len) : announced (data.take len) = announced data := by
  have header : frameHeaderSize = 28 := rfl
  rw [announced, readU64_take (by omega), readU64_take (by omega), announced]

theorem unknownCritical_take (long : frameHeaderSize ≤ len) :
    UnknownCritical (data.take len) ↔ UnknownCritical data := by
  have header : frameHeaderSize = 28 := rfl
  rw [UnknownCritical, byteAt_take (by omega), byteAt_take (by omega), UnknownCritical]

theorem frameAt_take (whole : announced data ≤ len) : frameAt (data.take len) = frameAt data := by
  have header : frameHeaderSize = 28 := rfl
  unfold announced at whole
  unfold frameAt
  rw [byteAt_take (by omega), byteAt_take (by omega), readU64_take (by omega), readU64_take (by omega),
    readU64_take (by omega), drop_take, take_take, Nat.min_eq_left (by omega), drop_take,
    take_take, Nat.min_eq_left (by omega)]

theorem decodeFrame_take (whole : announced data ≤ data.length) :
    decodeFrame (data.take (announced data)) = decodeFrame data := by
  have long : frameHeaderSize ≤ announced data := Nat.le_add_right ..
  have header : frameHeaderSize = 28 := rfl
  have size : (data.take (announced data)).length = announced data := length_take_of_le whole
  rw [decodeFrame_eq, decodeFrame_eq data, size, if_neg (Nat.not_lt.mpr long),
    if_neg (Nat.not_lt.mpr (long.trans whole)), announced_take long, if_neg (Nat.lt_irrefl _),
    if_neg (Nat.not_lt.mpr whole), frameAt_take (Nat.le_refl _), byteAt_take (by omega),
    byteAt_take (by omega), readU64_take (by omega), readU64_take (by omega)]
  simp only [unknownCritical_take long]

/-- What `decodeFrameFrom` does, told by `decodeFrame` on the same bytes. -/
def fromWhole (buf : List UInt8) :
    Except FrameError (Frame × Nat) → Except FrameError (Option DecodedFrame) × List UInt8
  | .ok (frame, size) => (.ok (some ⟨frame.frameType, frame.flags, frame.streamId, frame.extensions,
      frame.payload⟩), buf.drop size)
  | .error (.incomplete ..) => (.ok none, buf)
  | .error error => (.error error, buf)

theorem decodeFrameFrom_eq (buf : List UInt8) : decodeFrameFrom buf = fromWhole buf (decodeFrame buf) := by
  unfold decodeFrameFrom decodeFrame
  simp only [apply_ite (fromWhole buf), splitTo_eq]
  -- the two bodies make the same tests in the same order
  iterate 8 refine ite_congr rfl (fun _ => rfl) fun _ => ?_
  simp only [fromWhole, drop_drop, Nat.add_assoc]

/-- What the codec does with a buffer of the right version: it consumes a frame that
is refused for its type. -/
def splitWhole (buf : List UInt8) : Except FrameError (Frame × Nat) → Except FrameError (Option Frame) × List UInt8
  | .ok (frame, size) => (.ok (some frame), buf.drop size)
  | .error (.incomplete ..) => (.ok none, buf)
  | .error (.unknownFrameType raw) => (.error (.unknownFrameType raw), buf.drop (announced buf))
  | .error error => (.error error, buf)

theorem FrameCodec.new_decode (long : ¬ buf.length < frameHeaderSize) : FrameCodec.new.decode buf =
      if (readU64 buf 12).toNat > maxPayloadSize then
        (.error (.payloadTooLarge (readU64 buf 12).toNat maxPayloadSize), buf)
      else if (readU64 buf 20).toNat > maxExtensionSize then
        (.error (.extensionTooLarge (readU64 buf 20).toNat maxExtensionSize), buf)
      else if buf.length < announced buf then (.ok none, buf) else (match decodeFrame buf with
        | .error error => .error error
        | .ok (frame, _) => .ok (some frame), buf.drop (announced buf)) := by
  have total : frameHeaderSize + (readU64 buf 20).toNat + (readU64 buf 12).toNat = announced buf :=
    Nat.add_assoc ..
  unfold FrameCodec.decode
  simp only [long, if_false, FrameCodec.new, total]
  refine ite_congr rfl (fun _ => rfl) fun payloadFits => ?_
  refine ite_congr rfl (fun _ => rfl) fun extensionsFit => ?_
  have fits := Complete.announced_lt (Nat.not_lt.mp payloadFits) (Nat.not_lt.mp extensionsFit)
  rw [if_neg (by unfold announced at *; omega)]
  refine ite_congr rfl (fun _ => rfl) fun whole => ?_
  rw [decodeFrame_take (Nat.not_lt.mp whole)]
  split <;> rfl

theorem codec_of_version (version : ¬ buf.length < frameHeaderSize → byteAt buf 0 = aafpVersion) :
    FrameCodec.new.decode buf = splitWhole buf (decodeFrame buf) := by
  by_cases short : buf.length < frameHeaderSize
  · rw [FrameCodec.decode, if_pos short, decodeFrame_eq, if_pos short, splitWhole]
  · rw [FrameCodec.new_decode short, decodeFrame_eq, if_neg (not_not.mpr (version short))]
    split_ifs <;> rfl

inductive FrameErrorKind where
  | payloadTooLarge
  | extensionTooLarge
  | incomplete
  | unknownFrameType
  | invalidVersion
  | io

def FrameError.kind : FrameError → FrameErrorKind
  | .payloadTooLarge .. => .payloadTooLarge
  | .extensionTooLarge .. => .extensionTooLarge
  | .incomplete .. => .incomplete
  | .unknownFrameType _ => .unknownFrameType
  | .invalidVersion .. => .invalidVersion
  | .io _ => .io

def SameOutcome : Except FrameError (Option DecodedFrame) → Except FrameError (Option Frame) → Prop
  | .ok (some decoded), .ok (some frame) => decoded.toFrame = frame
  | .ok none, .ok none => True
  | .error error, .error other => error.kind = other.kind
  | _, _ => False

/-- The two decoders agree on a buffer, and one that gives no frame leaves it as it was. -/
structure TreatedAlike (buf : List UInt8) : Prop where
  outcome : SameOutcome (decodeFrameFrom buf).1 (FrameCodec.new.decode buf).1
  kept : (∀ decoded, (decodeFrameFrom buf).1 ≠ .ok (some decoded)) → (decodeFrameFrom buf).2 = buf
  codecKept : (∀ frame, (FrameCodec.new.decode buf).1 ≠ .ok (some frame)) →
    (FrameCodec.new.decode buf).2 = buf

theorem drop_announced_ne (whole : announced buf ≤ buf.length) : buf.drop (announced buf) ≠ buf := by
  intro same
  have size := congrArg length same
  rw [length_drop] at size
  unfold announced frameHeaderSize at *
  omega

/-- On a buffer of another version the codec fails for another reason, waits, or
consumes the frame. -/
theorem not_treatedAlike_of_version (long : ¬ buf.length < frameHeaderSize) (version : byteAt buf 0 ≠ aafpVersion) :
    ¬ TreatedAlike buf := by
  intro alike
  have whole : decodeFrame buf = .error (.invalidVersion (byteAt buf 0) aafpVersion) := by
    rw [decodeFrame_eq, if_neg long, if_pos version]
  have outcome := alike.outcome
  have kept := alike.codecKept
  rw [decodeFrameFrom_eq] at outcome
  rw [FrameCodec.new_decode long, whole] at outcome kept
  split_ifs at outcome kept with large extended part
  iterate 3 cases outcome
  exact drop_announced_ne (Nat.not_lt.mp part) (kept (by simp))

theorem treatedAlike_of_decodeFrame (version : ¬ buf.length < frameHeaderSize → byteAt buf 0 = aafpVersion)
    (known : ∀ raw, decodeFrame buf ≠ .error (.unknownFrameType raw)) : TreatedAlike buf := by
  have parsed := decodeFrameFrom_eq buf
  have split := codec_of_version version
  cases outcome : decodeFrame buf with
  | ok taken =>
    rw [outcome] at parsed split
    exact ⟨by rw [parsed, split]; rfl, fun none => absurd (by rw [parsed]; rfl) (none _),
      fun none => absurd (by rw [split]; rfl) (none _)⟩
  | error error =>
    rw [outcome] at parsed split
    cases error with
    | unknownFrameType raw => exact absurd outcome (known raw)
    | _ => exact ⟨by rw [parsed, split]; simp [fromWhole, splitWhole, SameOutcome],
        fun _ => by rw [parsed]; rfl, fun _ => by rw [split]; rfl⟩

/-- Exactly the buffers that are shorter than a header, or have the right version and no whole frame
of an unknown critical type. -/
theorem treatedAlike_iff (buf : List UInt8) : TreatedAlike buf ↔ buf.length < frameHeaderSize ∨
      byteAt buf 0 = aafpVersion ∧ ¬ (Complete buf ∧ UnknownCritical buf) := by
  constructor
  · intro alike
    by_cases short : buf.length < frameHeaderSize
    · exact .inl short
    · have version : byteAt buf 0 = aafpVersion :=
        of_not_not fun other => not_treatedAlike_of_version short other alike
      refine .inr ⟨version, fun refused => ?_⟩
      have kept := alike.codecKept
      rw [codec_of_version fun _ => version, decodeFrame_complete version refused.1, if_pos refused.2] at kept
      exact drop_announced_ne refused.1.whole (kept (by simp [splitWhole]))
  · intro condition
    rcases condition with short | ⟨version, accepted⟩
    · refine treatedAlike_of_decodeFrame (fun long => absurd short long) fun raw => ?_
      rw [decodeFrame_eq, if_pos short]
      nofun
    · exact treatedAlike_of_decodeFrame (fun _ => version) fun raw refused =>
        accepted (complete_of_unknown refused)

def headerOf (version frameType flags payloadLen : UInt8) : List UInt8 :=
  [version, frameType, flags, 0] ++ replicate 15 0 ++ [payloadLen] ++ replicate 8 0

/-- An empty frame of version 2 is consumed by the codec only, a longer one refused or awaited, an
unknown critical one consumed. -/
theorem bad_frames_treated_differently : ¬ TreatedAlike (headerOf 2 1 0 0) ∧ ¬ TreatedAlike (headerOf 2 1 0 1) ∧
      ¬ TreatedAlike (headerOf 1 9 0x80 0) := by
  refine ⟨fun alike => ?_, fun alike => ?_, fun alike => ?_⟩
  · have consumed : FrameCodec.new.decode (headerOf 2 1 0 0) = (.error (.invalidVersion 2 1), []) := by
      decide +kernel
    have kept := alike.codecKept
    rw [consumed] at kept
    exact absurd (kept (by simp)) (by decide)
  · have outcome := alike.outcome
    exact outcome
  · have consumed : FrameCodec.new.decode (headerOf 1 9 0x80 0) = (.error (.unknownFrameType 9), []) := by
      decide +kernel
    have kept := alike.codecKept
    rw [consumed] at kept
    exact absurd (kept (by simp)) (by decide)

end Aafp.Messaging
