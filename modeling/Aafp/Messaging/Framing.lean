import Aafp.Foundation.Bytes
import Aafp.Foundation.Hex
import Aafp.Foundation.Result

/-! The v1 frame format: a 28-byte header, the extension section, the payload. -/
namespace Aafp.Messaging

open Foundation List

def aafpVersion : UInt8 := 1

def maxPayloadSize : Nat := 1024 * 1024

def maxExtensionSize : Nat := 64 * 1024

def frameHeaderSize : Nat := 28

def flagCritical : UInt8 := 0x80

inductive FrameType where
  | data
  | handshake
  | rpcRequest
  | rpcResponse
  | close
  | error
  | ping
  | pong
  | unknown (raw : UInt8)
deriving DecidableEq

def FrameType.fromU8 (val : UInt8) : FrameType :=
  if val = 0x01 then .data
  else if val = 0x02 then .handshake
  else if val = 0x03 then .rpcRequest
  else if val = 0x04 then .rpcResponse
  else if val = 0x05 then .close
  else if val = 0x06 then .error
  else if val = 0x07 then .ping
  else if val = 0x08 then .pong
  else .unknown val

def FrameType.toU8 : FrameType → UInt8
  | .data => 0x01
  | .handshake => 0x02
  | .rpcRequest => 0x03
  | .rpcResponse => 0x04
  | .close => 0x05
  | .error => 0x06
  | .ping => 0x07
  | .pong => 0x08
  | .unknown raw => raw

def FrameType.isUnknown : FrameType → Bool
  | .unknown _ => true
  | _ => false

structure Frame where
  frameType : FrameType
  flags : UInt8
  streamId : UInt64
  extensions : List UInt8
  payload : List UInt8
deriving DecidableEq

inductive FrameError where
  | payloadTooLarge (size max : Nat)
  | extensionTooLarge (size max : Nat)
  | incomplete (needed have_ : Nat)
  | unknownFrameType (raw : UInt8)
  | invalidVersion (version expected : UInt8)
  | io (message : String)
deriving DecidableEq

instance : ToString FrameError where
  toString
    | .payloadTooLarge size max => s!"frame too large: payload {size} bytes (max {max})"
    | .extensionTooLarge size max => s!"extension section too large: {size} bytes (max {max})"
    | .incomplete needed have_ => s!"incomplete frame: need {needed} bytes, have {have_}"
    | .unknownFrameType raw =>
      let shown := hexLower 2 raw.toNat
      s!"invalid frame type: 0x{shown}"
    | .invalidVersion version expected => s!"invalid version: {version} (expected {expected})"
    | .io message => s!"io error: {message}"

def frameBytes (frame : Frame) : List UInt8 :=
  [aafpVersion, frame.frameType.toU8, frame.flags, 0] ++
    bigEndian 8 frame.streamId.toNat ++ bigEndian 8 frame.payload.length ++
    bigEndian 8 frame.extensions.length ++ frame.extensions ++ frame.payload

/-- Encode a frame to bytes (RFC-0002 §3.1 wire format). -/
def encodeFrame (frame : Frame) : Except FrameError (List UInt8) :=
  if frame.payload.length > maxPayloadSize then
    .error (.payloadTooLarge frame.payload.length maxPayloadSize)
  else if frame.extensions.length > maxExtensionSize then
    .error (.extensionTooLarge frame.extensions.length maxExtensionSize)
  else .ok (frameBytes frame)

def byteAt (data : List UInt8) (index : Nat) : UInt8 := data.getD index 0

/-- `u64::from_be_bytes(data[pos..pos + 8])`. -/
def readU64 (data : List UInt8) (pos : Nat) : UInt64 :=
  UInt64.ofNat (ofBigEndian ((data.drop pos).take 8))

/-- Decode a frame, with the number of bytes consumed. An unknown type is rejected only when its
critical bit is set. -/
def decodeFrame (data : List UInt8) : Except FrameError (Frame × Nat) :=
  if data.length < frameHeaderSize then .error (.incomplete frameHeaderSize data.length)
  else
    let version := byteAt data 0
    let frameTypeRaw := byteAt data 1
    let flags := byteAt data 2
    let streamId := readU64 data 4
    let payloadLen := (readU64 data 12).toNat
    let extLen := (readU64 data 20).toNat
    let totalBody := extLen + payloadLen
    let totalFrame := frameHeaderSize + totalBody
    let frameType := FrameType.fromU8 frameTypeRaw
    if version ≠ aafpVersion then .error (.invalidVersion version aafpVersion)
    else if payloadLen > maxPayloadSize then .error (.payloadTooLarge payloadLen maxPayloadSize)
    else if extLen > maxExtensionSize then .error (.extensionTooLarge extLen maxExtensionSize)
    else if totalBody ≥ 2 ^ 64 then .error (.payloadTooLarge (2 ^ 64 - 1) maxPayloadSize)
    else if totalFrame ≥ 2 ^ 64 then .error (.payloadTooLarge (2 ^ 64 - 1) maxPayloadSize)
    else if data.length < totalFrame then .error (.incomplete totalFrame data.length)
    else if frameType.isUnknown ∧ flags &&& flagCritical ≠ 0 then
      .error (.unknownFrameType frameTypeRaw)
    else
      let extensions := (data.drop frameHeaderSize).take extLen
      let payload := (data.drop (frameHeaderSize + extLen)).take payloadLen
      .ok ({ frameType, flags, streamId, extensions, payload }, totalFrame)

/-- The type is spelled by its own byte and is not an unknown critical one, and the sections fit. -/
structure Frame.Sendable (frame : Frame) : Prop where
  ownByte : FrameType.fromU8 frame.frameType.toU8 = frame.frameType
  notCritical : ¬ (frame.frameType.isUnknown ∧ frame.flags &&& flagCritical ≠ 0)
  payloadFits : frame.payload.length ≤ maxPayloadSize
  extensionsFit : frame.extensions.length ≤ maxExtensionSize

variable {data : List UInt8} {frame : Frame}

theorem readU64_at_cursor (fits : value < 2 ^ 64)
    (here : data.drop pos = bigEndian 8 value ++ rest) : readU64 data pos = UInt64.ofNat value := by
  have slice := take_at_cursor here
  rw [length_bigEndian] at slice
  rw [readU64, slice, ofBigEndian_bigEndian_of_lt fits]

theorem length_frameBytes (frame : Frame) : (frameBytes frame).length =
    frameHeaderSize + (frame.extensions.length + frame.payload.length) := by
  simp only [frameBytes, frameHeaderSize, length_append, length_cons, length_nil, length_bigEndian]
  omega

def announced (data : List UInt8) : Nat :=
  frameHeaderSize + ((readU64 data 20).toNat + (readU64 data 12).toNat)

def frameAt (data : List UInt8) : Frame where
  frameType := .fromU8 (byteAt data 1)
  flags := byteAt data 2
  streamId := readU64 data 4
  extensions := (data.drop frameHeaderSize).take (readU64 data 20).toNat
  payload := (data.drop (frameHeaderSize + (readU64 data 20).toNat)).take (readU64 data 12).toNat

/-- The lengths in the header are within the limits, and the buffer holds them. -/
structure Complete (data : List UInt8) : Prop where
  payloadFits : (readU64 data 12).toNat ≤ maxPayloadSize
  extensionsFit : (readU64 data 20).toNat ≤ maxExtensionSize
  whole : announced data ≤ data.length

def UnknownCritical (data : List UInt8) : Prop :=
  (FrameType.fromU8 (byteAt data 1)).isUnknown ∧ byteAt data 2 &&& flagCritical ≠ 0

instance (data : List UInt8) : Decidable (UnknownCritical data) :=
  inferInstanceAs (Decidable (_ ∧ _))

theorem Complete.announced_lt (payloadFits : (readU64 data 12).toNat ≤ maxPayloadSize)
    (extensionsFit : (readU64 data 20).toNat ≤ maxExtensionSize) : announced data < 2 ^ 64 := by
  unfold announced frameHeaderSize maxPayloadSize maxExtensionSize at *
  omega

/-- What `decodeFrame` finds, in its order. The checks for overflow never fire, since
the limits come first. -/
theorem decodeFrame_eq (data : List UInt8) : decodeFrame data =
    if data.length < frameHeaderSize then .error (.incomplete frameHeaderSize data.length)
    else if byteAt data 0 ≠ aafpVersion then .error (.invalidVersion (byteAt data 0) aafpVersion)
    else if (readU64 data 12).toNat > maxPayloadSize then
      .error (.payloadTooLarge (readU64 data 12).toNat maxPayloadSize)
    else if (readU64 data 20).toNat > maxExtensionSize then
      .error (.extensionTooLarge (readU64 data 20).toNat maxExtensionSize)
    else if data.length < announced data then .error (.incomplete (announced data) data.length)
    else if UnknownCritical data then .error (.unknownFrameType (byteAt data 1))
    else .ok (frameAt data, announced data) := by
  refine ite_congr rfl (fun _ => rfl) fun _ => ?_
  refine ite_congr rfl (fun _ => rfl) fun _ => ?_
  refine ite_congr rfl (fun _ => rfl) fun payloadFits => ?_
  refine ite_congr rfl (fun _ => rfl) fun extensionsFit => ?_
  have fits := Complete.announced_lt (Nat.not_lt.mp payloadFits) (Nat.not_lt.mp extensionsFit)
  unfold announced at fits
  rw [if_neg (by omega), if_neg (by omega)]
  rfl

theorem decodeFrame_complete (version : byteAt data 0 = aafpVersion) (complete : Complete data) : decodeFrame data =
      if UnknownCritical data then .error (.unknownFrameType (byteAt data 1))
      else .ok (frameAt data, announced data) := by
  have long : frameHeaderSize ≤ announced data := Nat.le_add_right ..
  rw [decodeFrame_eq, if_neg (Nat.not_lt.mpr (long.trans complete.whole)), if_neg (not_not.mpr version),
    if_neg (Nat.not_lt.mpr complete.payloadFits), if_neg (Nat.not_lt.mpr complete.extensionsFit),
    if_neg (Nat.not_lt.mpr complete.whole)]

theorem decodeFrame_refused (other : ¬ (byteAt data 0 = aafpVersion ∧ Complete data)) :
    ∃ error, decodeFrame data = .error error ∧ ∀ raw, error ≠ .unknownFrameType raw := by
  rw [decodeFrame_eq]
  split_ifs with short version large extended part
  iterate 5 exact ⟨_, rfl, nofun⟩
  all_goals
    exact absurd ⟨not_not.mp version, ⟨Nat.not_lt.mp large, Nat.not_lt.mp extended, Nat.not_lt.mp part⟩⟩ other

theorem decodeFrame_eq_ok (decoded : decodeFrame data = .ok (frame, size)) :
    Complete data ∧ frame = frameAt data ∧ size = announced data := by
  simp only [decodeFrame_eq, ite_error_eq_ok, Nat.not_lt] at decoded
  obtain ⟨-, -, payloadFits, extensionsFit, whole, -, same⟩ := decoded
  cases same
  exact ⟨⟨payloadFits, extensionsFit, whole⟩, rfl, rfl⟩

/-- The header of a frame stands at the front of a buffer. -/
structure HeaderOf (frame : Frame) (data : List UInt8) : Prop where
  version : byteAt data 0 = aafpVersion
  frameType : byteAt data 1 = frame.frameType.toU8
  flags : byteAt data 2 = frame.flags
  streamId : readU64 data 4 = frame.streamId
  payloadLen : (readU64 data 12).toNat = frame.payload.length
  extLen : (readU64 data 20).toNat = frame.extensions.length

theorem frameBytes_append (frame : Frame) (rest : List UInt8) :
    frameBytes frame ++ rest = aafpVersion :: frame.frameType.toU8 :: frame.flags :: 0 ::
      (bigEndian 8 frame.streamId.toNat ++ (bigEndian 8 frame.payload.length ++
        (bigEndian 8 frame.extensions.length ++ (frame.extensions ++ (frame.payload ++ rest))))) := by
  simp [frameBytes]

theorem headerOf_frameBytes (payloadWord : frame.payload.length < 2 ^ 64)
    (extensionsWord : frame.extensions.length < 2 ^ 64) (rest : List UInt8) :
    HeaderOf frame (frameBytes frame ++ rest) := by
  have start := frameBytes_append frame rest
  generalize frameBytes frame ++ rest = data at start ⊢
  have atStream : data.drop 4 = _ := congrArg (drop 4) start
  have atPayloadLen : data.drop 12 = _ := drop_add_length atStream
  have atExtLen : data.drop 20 = _ := drop_add_length atPayloadLen
  constructor
  · rw [start]
    rfl
  · rw [start]
    rfl
  · rw [start]
    rfl
  · rw [readU64_at_cursor frame.streamId.toNat_lt atStream, UInt64.ofNat_toNat]
  · rw [readU64_at_cursor payloadWord atPayloadLen, UInt64.toNat_ofNat_of_lt' payloadWord]
  · rw [readU64_at_cursor extensionsWord atExtLen, UInt64.toNat_ofNat_of_lt' extensionsWord]

theorem Frame.Sendable.words (sendable : frame.Sendable) :
    frame.payload.length < 2 ^ 64 ∧ frame.extensions.length < 2 ^ 64 := by
  have payloadFits := sendable.payloadFits
  have extensionsFit := sendable.extensionsFit
  unfold maxPayloadSize at payloadFits
  unfold maxExtensionSize at extensionsFit
  omega

theorem frameAt_frameBytes (sendable : frame.Sendable) (rest : List UInt8) :
    HeaderOf frame (frameBytes frame ++ rest) ∧ frameAt (frameBytes frame ++ rest) = frame := by
  have header := headerOf_frameBytes sendable.words.1 sendable.words.2 rest
  refine ⟨header, ?_⟩
  have start := frameBytes_append frame rest
  generalize frameBytes frame ++ rest = data at start header ⊢
  have atStream : data.drop 4 = _ := congrArg (drop 4) start
  have atPayloadLen : data.drop 12 = _ := drop_add_length atStream
  have atExtLen : data.drop 20 = _ := drop_add_length atPayloadLen
  have atExtensions : data.drop frameHeaderSize = _ := drop_add_length atExtLen
  have atPayload := drop_add_length atExtensions
  simp only [frameAt, header.frameType, header.flags, header.streamId, header.payloadLen, header.extLen,
    sendable.ownByte, take_at_cursor atExtensions, take_at_cursor atPayload]

theorem HeaderOf.announced_eq (header : HeaderOf frame data) : announced data = (frameBytes frame).length := by
  rw [announced, header.payloadLen, header.extLen, length_frameBytes]

theorem decodeFrame_frameBytes (sendable : frame.Sendable) (rest : List UInt8) :
    decodeFrame (frameBytes frame ++ rest) = .ok (frame, (frameBytes frame).length) := by
  obtain ⟨header, read⟩ := frameAt_frameBytes sendable rest
  have complete : Complete (frameBytes frame ++ rest) := by
    constructor
    · rw [header.payloadLen]
      exact sendable.payloadFits
    · rw [header.extLen]
      exact sendable.extensionsFit
    · rw [header.announced_eq, length_append]
      exact Nat.le_add_right ..
  have accepted : ¬ UnknownCritical (frameBytes frame ++ rest) := by
    rw [UnknownCritical, header.frameType, sendable.ownByte]
    exact sendable.notCritical
  rw [decodeFrame_complete header.version complete, if_neg accepted, read, header.announced_eq]

def extHeaderSize : Nat := 8

structure Extension where
  extType : UInt16
  critical : Bool
  data : List UInt8
deriving DecidableEq

inductive ExtensionError where
  | dataTooLarge (size max : Nat)
  | incompleteHeader (needed have_ : Nat)
  | incompleteData (needed have_ : Nat)
  | lengthMismatch (expected actual : Nat)

instance : ToString ExtensionError where
  toString
    | .dataTooLarge size max => s!"extension data too large: {size} bytes (max {max})"
    | .incompleteHeader needed have_ => s!"incomplete extension header: need {needed}, have {have_}"
    | .incompleteData needed have_ => s!"incomplete extension data: need {needed}, have {have_}"
    | .lengthMismatch expected actual =>
      s!"extension length mismatch: header says {expected}, actual {actual}"

/-- Decode the extension section. `rest` is the part of the section from the
loop's `pos` on. -/
def decodeExtensions (rest : List UInt8) : Except ExtensionError (List Extension) :=
  if rest.isEmpty then .ok []
  else if rest.length < extHeaderSize then .error (.incompleteHeader extHeaderSize rest.length)
  else
    let extType := UInt16.ofNat (ofBigEndian (rest.take 2))
    let critical := byteAt rest 2 == 0x01
    let dataLen := ofBigEndian ((rest.drop 4).take 4)
    let body := rest.drop extHeaderSize
    if body.length < dataLen then .error (.incompleteData dataLen body.length)
    else do
      let exts ← decodeExtensions (body.drop dataLen)
      .ok ({ extType, critical, data := body.take dataLen } :: exts)
termination_by rest.length
decreasing_by
  simp only [List.length_drop, extHeaderSize] at *
  omega

end Aafp.Messaging
