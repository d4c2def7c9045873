import Aafp.Messaging.Pipeline

/-! Extension semantics run only for frames that passed every earlier phase, and
the callbacks see exactly the extensions meant for them. -/
namespace Aafp.Messaging

open Foundation List

/-- What holds of a frame and its parsed extensions before any callback runs. -/
structure Cleared (ctx : PipelineContext) (data : List UInt8) (frame : Frame)
    (exts : List Extension) : Prop where
  decoded : ∃ consumed, decodeFrame data = .ok (frame, consumed)
  canonical : frame.frameType.bearsCbor = true → frame.payload ≠ [] →
    Cbor.checkCanonical frame.payload = .ok ()
  transcript : frame.frameType = .handshake → ctx.transcriptStateValid = true
  signature : ctx.signatureVerified = true
  agentId : ctx.agentIdVerified = true
  session : ctx.sessionStateValid frame.frameType = true
  authorized : ctx.authorized frame.frameType = true
  capable : ctx.capabilitiesSufficient frame.frameType = true
  parsed : decodeFrameExtensions frame = .ok exts
  noUnknownCritical : ∀ ext ∈ exts, ext.critical = true → ext.extType ∈ ctx.knownExtensionTypes
  noneUnnegotiated : ∀ ext ∈ exts, ext.extType ∈ ctx.knownExtensionTypes →
    ext.extType ∈ ctx.negotiatedExtensionTypes

def eligible (ctx : PipelineContext) (callbacks : List (ExtensionCallback σ))
    (exts : List Extension) : List Extension :=
  exts.filter fun ext => ext.extType ∈ ctx.negotiatedExtensionTypes ∧
    callbacks.any fun callback => callback.extensionType == ext.extType

/-- The calls hand over the extensions in order and end after the first failure. -/
inductive HandedOver : List Extension → List Call → Prop where
  | done : HandedOver [] []
  | failed (result : call.result = .error error) (type : call.extType = ext.extType)
      (data : call.data = ext.data) : HandedOver (ext :: exts) [call]
  | succeeded (result : call.result = .ok ()) (type : call.extType = ext.extType)
      (data : call.data = ext.data) (later : HandedOver exts calls) :
      HandedOver (ext :: exts) (call :: calls)

theorem require_eq_ok : require holds phase code message = .ok () ↔ holds = true := by
  cases holds <;> simp [require]

theorem validateCbor_eq_ok : validateCbor frame = .ok () ↔ (frame.frameType.bearsCbor = true → frame.payload ≠ [] →
      Cbor.checkCanonical frame.payload = .ok ()) := by
  unfold validateCbor
  split
  · simp_all
  · split
    · simp_all
    · simp_all [mapError_eq_ok]

theorem checkUnknownCritical_eq_ok : checkUnknownCritical ctx exts = .ok () ↔
      ∀ ext ∈ exts, ext.critical = true → ext.extType ∈ ctx.knownExtensionTypes := by
  induction exts with
  | nil => simp [checkUnknownCritical]
  | cons ext exts ih =>
    simp only [checkUnknownCritical, forall_mem_cons]
    split
    · simp_all
    · simp_all

theorem checkNonNegotiated_eq_ok :
    checkNonNegotiated ctx exts = .ok () ↔ ∀ ext ∈ exts, ext.extType ∈ ctx.knownExtensionTypes →
      ext.extType ∈ ctx.negotiatedExtensionTypes := by
  induction exts with
  | nil => simp [checkNonNegotiated]
  | cons ext exts ih =>
    simp only [checkNonNegotiated, forall_mem_cons]
    split
    · simp_all
    next passes =>
      have negotiated : ext.extType ∈ ctx.knownExtensionTypes →
          ext.extType ∈ ctx.negotiatedExtensionTypes :=
        fun known => Decidable.byContradiction fun absent => passes ⟨absent, known⟩
      exact ih.trans (and_iff_right negotiated).symm

theorem prepare_cleared (passed : prepare ctx data = .ok (frame, exts)) : Cleared ctx data frame exts := by
  simp only [prepare, bind_eq_ok, Prod.exists] at passed
  obtain ⟨_, _, _, _, _, _, _, found, consumed, read, _, cbor, _, transcript, _, signature, _, agentId,
    _, session, _, authorized, _, capable, parsedExts, parsed, _, critical, _, negotiated, same⟩ := passed
  cases same
  have decoded := mapError_eq_ok.mp read
  have transcriptOk := require_eq_ok.mp transcript
  exact {
    decoded := ⟨consumed, decoded⟩
    canonical := validateCbor_eq_ok.mp cbor
    transcript := fun handshake => by simpa [handshake] using transcriptOk
    signature := require_eq_ok.mp signature
    agentId := require_eq_ok.mp agentId
    session := require_eq_ok.mp session
    authorized := require_eq_ok.mp authorized
    capable := require_eq_ok.mp capable
    parsed := parsed
    noUnknownCritical := checkUnknownCritical_eq_ok.mp critical
    noneUnnegotiated := checkNonNegotiated_eq_ok.mp negotiated }

variable {callbacks : List (ExtensionCallback σ)}

private theorem eligible_cons_of_callback (negotiated : ext.extType ∈ ctx.negotiatedExtensionTypes)
    (found : callbacks.find? (fun callback => callback.extensionType == ext.extType) = some callback) :
    eligible ctx callbacks (ext :: exts) = ext :: eligible ctx callbacks exts := by
  have registered : (callbacks.any fun callback => callback.extensionType == ext.extType) = true :=
    any_eq_true.mpr ⟨callback, mem_of_find?_eq_some found, by simpa using find?_some found⟩
  exact filter_cons_of_pos (by simp only [negotiated, registered, and_self, decide_true])

/-- Phase 18 hands the eligible extensions over in order up to the first
failure, and on success has counted every extension once. -/
theorem processExtensionSemantics_run (ctx : PipelineContext)
    (callbacks : List (ExtensionCallback σ)) (exts : List Extension) (callbackCount ignoredCount : Nat)
    (world : World σ) :
    let run := processExtensionSemantics ctx callbacks exts callbackCount ignoredCount world
    ∃ calls, run.2.calls = world.calls ++ calls ∧ HandedOver (eligible ctx callbacks exts) calls ∧
      ∀ called ignored, run.1 = .ok (called, ignored) →
        called + ignored = callbackCount + ignoredCount + exts.length := by
  induction exts generalizing callbackCount ignoredCount world with
  | nil =>
    refine ⟨[], by simp [processExtensionSemantics], .done, ?_⟩
    intro called ignored same
    cases same
    rfl
  | cons ext exts ih =>
    -- an extension without a callback to run leaves the world alone
    have skip (ignored : ext.extType ∈ ctx.negotiatedExtensionTypes →
        callbacks.find? (fun callback => callback.extensionType == ext.extType) = none) :
        let run := processExtensionSemantics ctx callbacks exts callbackCount (ignoredCount + 1) world
        ∃ calls, run.2.calls = world.calls ++ calls ∧
          HandedOver (eligible ctx callbacks (ext :: exts)) calls ∧
          ∀ called ignored, run.1 = .ok (called, ignored) →
            called + ignored = callbackCount + ignoredCount + (exts.length + 1) := by
      obtain ⟨calls, logged, handed, counted⟩ := ih callbackCount (ignoredCount + 1) world
      rw [eligible, filter_cons_of_neg (by simpa using ignored)]
      refine ⟨calls, logged, handed, fun called ignored same => ?_⟩
      have total := counted called ignored same
      omega
    simp only [processExtensionSemantics, length_cons]
    split
    next foreign => exact skip fun negotiated => absurd negotiated foreign
    next negotiated =>
      have negotiated := Decidable.not_not.mp negotiated
      split
      next callback found =>
        rw [eligible_cons_of_callback negotiated found]
        unfold ExtensionCallback.invoke
        generalize callback.process ext.data world.state = outcome
        obtain ⟨result, state⟩ := outcome
        cases result with
        | error error => exact ⟨_, rfl, .failed rfl rfl rfl, by simp⟩
        | ok =>
          obtain ⟨calls, logged, handed, counted⟩ := ih (callbackCount + 1) ignoredCount
            ⟨state, world.calls ++ [⟨ext.extType, ext.data, .ok ()⟩]⟩
          rw [append_assoc] at logged
          refine ⟨_, logged, .succeeded rfl rfl rfl handed, fun called ignored same => ?_⟩
          have total := counted called ignored same
          omega
      next missing => exact skip fun _ => missing

/-- No callback runs before authentication and authorization. A failure before the eighteenth phase
runs none, and a success has counted every parsed extension. -/
theorem process_runs_callbacks_after_clearance (ctx : PipelineContext)
    (callbacks : List (ExtensionCallback σ)) (data : List UInt8) (world : World σ) :
    let run := process ctx callbacks data world
    ∃ calls, run.2.calls = world.calls ++ calls ∧
      ((calls = [] ∧ ∃ error, prepare ctx data = .error error ∧ run.1 = .error error) ∨
        ∃ frame exts, Cleared ctx data frame exts ∧ HandedOver (eligible ctx callbacks exts) calls ∧
          ∀ processed, run.1 = .ok processed → processed.frame = frame ∧ processed.extensions = exts ∧
            processed.extensionCallbackCount + processed.extensionsIgnored = exts.length) := by
  unfold process
  split
  next error failed => exact ⟨[], by simp, .inl ⟨rfl, error, failed, rfl⟩⟩
  next frame exts passed =>
    obtain ⟨calls, logged, handed, counted⟩ :=
      processExtensionSemantics_run ctx callbacks exts 0 0 world
    have cleared := prepare_cleared passed
    split
    next error after outcome =>
      rw [outcome] at logged
      exact ⟨calls, logged, .inr ⟨frame, exts, cleared, handed, by simp⟩⟩
    next called ignored after outcome =>
      rw [outcome] at logged counted
      have total := counted called ignored rfl
      refine ⟨calls, logged, .inr ⟨frame, exts, cleared, handed, ?_⟩⟩
      rintro processed same
      cases same
      exact ⟨rfl, rfl, by simpa using total⟩

/-- An RPC request without payload is not checked for canonical CBOR, and its extension reaches the
callback. -/
theorem process_runs_callback_on_empty_payload :
    let ctx : PipelineContext :=
      ⟨true, true, fun _ => true, fun _ => true, fun _ => true, true, {1}, {1}⟩
    let callback : ExtensionCallback Unit := ⟨1, fun _ state => (.ok (), state)⟩
    let frame : Frame := ⟨.rpcRequest, 0, 4, [0, 1, 0, 0, 0, 0, 0, 0], []⟩
    frame.frameType.bearsCbor = true ∧
      (process ctx [callback] (frameBytes frame) ⟨(), []⟩).2.calls = [⟨1, [], .ok ()⟩] ∧
      decodeFrame (frameBytes frame) = .ok (frame, 36) ∧
      Cbor.checkCanonical frame.payload = .error (.unexpectedEof 0) := by
  decide +kernel

end Aafp.Messaging
