import Aafp.Cbor.Decode
import Aafp.Messaging.Framing

/-! The 20-phase frame processing pipeline. -/
namespace Aafp.Messaging

open Foundation

namespace Codes

def invalidSignature : UInt32 := 2001
def handshakeFailed : UInt32 := 2006
def invalidAgentId : UInt32 := 2007
def unauthorized : UInt32 := 3001
def insufficientCapability : UInt32 := 3002
def malformedFrame : UInt32 := 5001
def serializationError : UInt32 := 5003
def frameTooLarge : UInt32 := 8001
def unknownCriticalFrameType : UInt32 := 8004
def unknownCriticalExtension : UInt32 := 8005
def invalidVersion : UInt32 := 8006
def invalidFlags : UInt32 := 8007
def reservedFieldNonzero : UInt32 := 8008
def protocolViolation : UInt32 := 8009

end Codes

inductive PipelinePhase where
  | validateHeader
  | validateLengths
  | rejectOversized
  | readPayload
  | readExtensions
  | decodeCbor
  | rejectDuplicateKeys
  | rejectNonCanonical
  | validateTranscript
  | verifySignatures
  | verifyAgentId
  | verifySessionState
  | verifyAuthorization
  | verifyCapabilities
  | decodeExtensions
  | checkUnknownCritical
  | checkNonNegotiated
  | processExtensionSemantics
  | validateFinalState
  | deliverToUpperLayer
deriving DecidableEq

structure PipelineError where
  phase : PipelinePhase
  errorCode : UInt32
  fatal : Bool
  message : String
deriving DecidableEq

structure PipelineContext where
  signatureVerified : Bool
  agentIdVerified : Bool
  sessionStateValid : FrameType → Bool
  authorized : FrameType → Bool
  capabilitiesSufficient : FrameType → Bool
  transcriptStateValid : Bool
  negotiatedExtensionTypes : Finset UInt16
  knownExtensionTypes : Finset UInt16

/-- A registered callback; `process` may read and change the world it shares
with the other callbacks. -/
structure ExtensionCallback (σ : Type) where
  extensionType : UInt16
  process : List UInt8 → σ → Except PipelineError Unit × σ

structure Call where
  extType : UInt16
  data : List UInt8
  result : Except PipelineError Unit
deriving DecidableEq

structure World (σ : Type) where
  state : σ
  calls : List Call

structure FrameHeader where
  version : UInt8
  frameTypeRaw : UInt8
  flags : UInt8
  reserved : UInt8
  streamId : UInt64
  payloadLen : Nat
  extLen : Nat

structure ProcessedFrame where
  frame : Frame
  extensions : List Extension
  extensionCallbackCount : Nat
  extensionsIgnored : Nat
deriving DecidableEq

/-- A phase that fails with one fixed error unless its condition holds. -/
def require (holds : Bool) (phase : PipelinePhase) (code : UInt32) (message : String) : Except PipelineError Unit :=
  if holds then .ok () else .error ⟨phase, code, true, message⟩

def validateFrameHeader (data : List UInt8) : Except PipelineError FrameHeader :=
  let version := byteAt data 0
  let reserved := byteAt data 3
  let have_ := data.length
  if data.length < frameHeaderSize then
    .error ⟨.validateHeader, Codes.malformedFrame, true,
      s!"incomplete header: need {frameHeaderSize} bytes, have {have_}"⟩
  else if version ≠ aafpVersion then
    .error ⟨.validateHeader, Codes.invalidVersion, true, s!"invalid version: {version} (expected {aafpVersion})"⟩
  else if reserved ≠ 0 then
    let shown := hexUpper 2 reserved.toNat
    .error ⟨.validateHeader, Codes.reservedFieldNonzero, true, s!"reserved field is non-zero: 0x{shown}"⟩
  else
    .ok { version, reserved, frameTypeRaw := byteAt data 1, flags := byteAt data 2
          streamId := readU64 data 4, payloadLen := (readU64 data 12).toNat
          extLen := (readU64 data 20).toNat }

def validateLengths (header : FrameHeader) : Except PipelineError (Nat × Nat) :=
  let payloadLen := header.payloadLen
  let extLen := header.extLen
  if payloadLen > maxPayloadSize then
    .error ⟨.validateLengths, Codes.frameTooLarge, false,
      s!"payload too large: {payloadLen} bytes (max {maxPayloadSize})"⟩
  else if extLen > maxExtensionSize then
    .error ⟨.validateLengths, Codes.frameTooLarge, false,
      s!"extension too large: {extLen} bytes (max {maxExtensionSize})"⟩
  else if payloadLen + extLen ≥ 2 ^ 64 then
    .error ⟨.validateLengths, Codes.frameTooLarge, false, "payload + extension length overflow"⟩
  else .ok (payloadLen, extLen)

def rejectOversizedBeforeAllocation (payloadLen extLen : Nat) : Except PipelineError Unit :=
  if payloadLen > maxPayloadSize then
    .error ⟨.rejectOversized, Codes.frameTooLarge, false, "rejected before allocation: payload too large"⟩
  else if extLen > maxExtensionSize then
    .error ⟨.rejectOversized, Codes.frameTooLarge, false, "rejected before allocation: extension too large"⟩
  else .ok ()

/-- The wire code, fatality and text of a frame error met in phases 4 and 5. -/
def frameFailure : FrameError → UInt32 × Bool × String
  | .invalidVersion version expected =>
    (Codes.invalidVersion, true, s!"invalid version: {version} (expected {expected})")
  | .payloadTooLarge len max => (Codes.frameTooLarge, false, s!"payload too large: {len} (max {max})")
  | .extensionTooLarge len max =>
    (Codes.frameTooLarge, false, s!"extension too large: {len} (max {max})")
  | .unknownFrameType raw =>
    let shown := hexUpper 2 raw.toNat
    (Codes.unknownCriticalFrameType, true, s!"unknown critical frame type: 0x{shown}")
  | .incomplete needed have_ =>
    (Codes.malformedFrame, true, s!"incomplete frame: need {needed} bytes, have {have_}")
  | other => (Codes.malformedFrame, true, s!"frame decode error: {other}")

def readFrame (data : List UInt8) : Except PipelineError (Frame × Nat) :=
  (decodeFrame data).mapError fun error =>
    let (code, fatal, message) := frameFailure error
    ⟨.readPayload, code, fatal, message⟩

def FrameType.bearsCbor : FrameType → Bool
  | .handshake | .rpcRequest | .rpcResponse | .close | .error => true
  | .data | .ping | .pong | .unknown _ => false

/-- Phases 6 to 8. An empty payload is not decoded. -/
def validateCbor (frame : Frame) : Except PipelineError Unit :=
  if !frame.frameType.bearsCbor then .ok ()
  else if frame.payload.isEmpty then .ok ()
  else (Cbor.checkCanonical frame.payload).mapError fun error =>
    ⟨.decodeCbor, Codes.serializationError, true, s!"CBOR decode error: {error}"⟩

def validateTranscriptState (ctx : PipelineContext) (frame : Frame) : Except PipelineError Unit :=
  require (!(frame.frameType == .handshake && !ctx.transcriptStateValid)) .validateTranscript
    Codes.handshakeFailed "transcript state invalid for handshake frame"

def verifySignatures (ctx : PipelineContext) : Except PipelineError Unit :=
  require ctx.signatureVerified .verifySignatures Codes.invalidSignature
    "signature verification failed"

def verifyAgentId (ctx : PipelineContext) : Except PipelineError Unit :=
  require ctx.agentIdVerified .verifyAgentId Codes.invalidAgentId
    "agent ID does not match public key hash"

def verifySessionState (ctx : PipelineContext) (frame : Frame) : Except PipelineError Unit :=
  require (ctx.sessionStateValid frame.frameType) .verifySessionState Codes.protocolViolation
    "session state invalid for this frame type"

def verifyAuthorization (ctx : PipelineContext) (frame : Frame) : Except PipelineError Unit :=
  require (ctx.authorized frame.frameType) .verifyAuthorization Codes.unauthorized
    "peer not authorized for this action"

def verifyRequiredCapabilities (ctx : PipelineContext) (frame : Frame) : Except PipelineError Unit :=
  require (ctx.capabilitiesSufficient frame.frameType) .verifyCapabilities
    Codes.insufficientCapability "peer lacks required capabilities"

def extensionFailure : ExtensionError → String
  | .incompleteHeader needed have_ => s!"incomplete extension header: need {needed}, have {have_}"
  | .incompleteData needed have_ => s!"incomplete extension data: need {needed}, have {have_}"
  | .lengthMismatch expected actual =>
    s!"extension length mismatch: expected {expected}, actual {actual}"
  | other => s!"extension decode error: {other}"

/-- Phase 15. A HANDSHAKE frame must not carry extensions. -/
def decodeFrameExtensions (frame : Frame) : Except PipelineError (List Extension) :=
  if frame.extensions.isEmpty then .ok []
  else if frame.frameType = .handshake then
    .error ⟨.decodeExtensions, Codes.protocolViolation, true, "HANDSHAKE frames MUST NOT carry frame extensions"⟩
  else (decodeExtensions frame.extensions).mapError fun error =>
    ⟨.decodeExtensions, Codes.malformedFrame, true, extensionFailure error⟩

def checkUnknownCritical (ctx : PipelineContext) : List Extension → Except PipelineError Unit
  | [] => .ok ()
  | ext :: exts =>
    if ext.critical ∧ ext.extType ∉ ctx.knownExtensionTypes then
      let shown := hexUpper 4 ext.extType.toNat
      .error ⟨.checkUnknownCritical, Codes.unknownCriticalExtension, true,
        s!"unknown critical extension: 0x{shown}"⟩
    else checkUnknownCritical ctx exts

/-- Phase 17. Known extensions must have been negotiated; unknown ones pass. -/
def checkNonNegotiated (ctx : PipelineContext) : List Extension → Except PipelineError Unit
  | [] => .ok ()
  | ext :: exts =>
    if ext.extType ∉ ctx.negotiatedExtensionTypes ∧ ext.extType ∈ ctx.knownExtensionTypes then
      let shown := hexUpper 4 ext.extType.toNat
      .error ⟨.checkNonNegotiated, Codes.invalidFlags, true, s!"non-negotiated extension: 0x{shown}"⟩
    else checkNonNegotiated ctx exts

def ExtensionCallback.invoke (callback : ExtensionCallback σ) (ext : Extension) (world : World σ) :
    Except PipelineError Unit × World σ :=
  let (result, state) := callback.process ext.data world.state
  (result, { state, calls := world.calls ++ [⟨ext.extType, ext.data, result⟩] })

/-- Phase 18, the only phase in which callbacks run. Returns the numbers of
callbacks run and of extensions skipped. -/
def processExtensionSemantics (ctx : PipelineContext) (callbacks : List (ExtensionCallback σ)) :
    List Extension → (callbackCount ignoredCount : Nat) → World σ → Except PipelineError (Nat × Nat) × World σ
  | [], callbackCount, ignoredCount, world => (.ok (callbackCount, ignoredCount), world)
  | ext :: exts, callbackCount, ignoredCount, world =>
    if ext.extType ∉ ctx.negotiatedExtensionTypes then
      processExtensionSemantics ctx callbacks exts callbackCount (ignoredCount + 1) world
    else
      match callbacks.find? (fun callback => callback.extensionType == ext.extType) with
      | some callback =>
        match callback.invoke ext world with
        | (.error error, world) => (.error error, world)
        | (.ok (), world) =>
          processExtensionSemantics ctx callbacks exts (callbackCount + 1) ignoredCount world
      | none => processExtensionSemantics ctx callbacks exts callbackCount (ignoredCount + 1) world

def validateFinalState (_frame : Frame) : Except PipelineError Unit := .ok ()

/-- Phases 1 to 17 in the order of the source: what `process` does before the
first callback can run. -/
def prepare (ctx : PipelineContext) (data : List UInt8) : Except PipelineError (Frame × List Extension) := do
  let header ← validateFrameHeader data
  let (payloadLen, extLen) ← validateLengths header
  rejectOversizedBeforeAllocation payloadLen extLen
  let (frame, _) ← readFrame data
  validateCbor frame
  validateTranscriptState ctx frame
  verifySignatures ctx
  verifyAgentId ctx
  verifySessionState ctx frame
  verifyAuthorization ctx frame
  verifyRequiredCapabilities ctx frame
  let parsedExts ← decodeFrameExtensions frame
  checkUnknownCritical ctx parsedExts
  checkNonNegotiated ctx parsedExts
  .ok (frame, parsedExts)

/-- The frame processing pipeline (RFC-0002 §6.5). -/
def process (ctx : PipelineContext) (callbacks : List (ExtensionCallback σ)) (data : List UInt8)
    (world : World σ) : Except PipelineError ProcessedFrame × World σ :=
  match prepare ctx data with
  | .error error => (.error error, world)
  | .ok (frame, parsedExts) =>
    match processExtensionSemantics ctx callbacks parsedExts 0 0 world with
    | (.error error, world) => (.error error, world)
    | (.ok (callbackCount, ignoredCount), world) =>
      match validateFinalState frame with
      | .error error => (.error error, world)
      | .ok () =>
        (.ok { frame, extensions := parsedExts, extensionCallbackCount := callbackCount
               extensionsIgnored := ignoredCount }, world)

end Aafp.Messaging
