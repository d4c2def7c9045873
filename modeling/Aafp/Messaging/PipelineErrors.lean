import Aafp.Messaging.PipelineInvariant

/-! What the phase stored in a pipeline error says about the callbacks. -/
namespace Aafp.Messaging

open Foundation List

def PipelineError.extensionCallbacksInvoked (error : PipelineError) : Bool :=
  error.phase == .processExtensionSemantics

@[simp] theorem PipelineError.extensionCallbacksInvoked_iff {error : PipelineError} :
    error.extensionCallbacksInvoked = true ↔ error.phase = .processExtensionSemantics := by
  simp [PipelineError.extensionCallbacksInvoked]

def NamesOtherPhase (result : Except PipelineError α) : Prop :=
  ∀ error, result = .error error → error.phase ≠ .processExtensionSemantics

theorem NamesOtherPhase.ok (value : α) : NamesOtherPhase (.ok value) := nofun

theorem NamesOtherPhase.error {error : PipelineError} (other : error.phase ≠ .processExtensionSemantics) :
    NamesOtherPhase (.error error : Except PipelineError α) := by
  intro raised same
  cases same
  exact other

theorem NamesOtherPhase.bind {next : α → Except PipelineError β} {first : Except PipelineError α}
    (before : NamesOtherPhase first) (after : ∀ value, NamesOtherPhase (next value)) :
    NamesOtherPhase (first >>= next) := by
  cases first with
  | error error => exact .error (before error rfl)
  | ok value => exact after value

theorem NamesOtherPhase.ite {next : Except PipelineError α} [Decidable condition] (before : NamesOtherPhase first)
    (after : NamesOtherPhase next) : NamesOtherPhase (if condition then first else next) := by
  split
  · exact before
  · exact after

theorem NamesOtherPhase.mapError {first : Except ε α}
    (other : ∀ error, (wrap error).phase ≠ .processExtensionSemantics) : NamesOtherPhase (first.mapError wrap) := by
  cases first with
  | error error => exact .error (other error)
  | ok value => exact .ok value

theorem NamesOtherPhase.require (other : phase ≠ .processExtensionSemantics) :
    NamesOtherPhase (require holds phase code message) :=
  .ite (.ok ()) (.error other)

variable (frame : Frame) (ctx : PipelineContext) (callbacks : List (ExtensionCallback σ))
  (data : List UInt8) (exts : List Extension)

private theorem namesOtherPhase_checkUnknownCritical : NamesOtherPhase (checkUnknownCritical ctx exts) := by
  induction exts with
  | nil => exact .ok ()
  | cons ext exts ih => exact .ite (.error nofun) ih

private theorem namesOtherPhase_checkNonNegotiated : NamesOtherPhase (checkNonNegotiated ctx exts) := by
  induction exts with
  | nil => exact .ok ()
  | cons ext exts ih => exact .ite (.error nofun) ih

theorem namesOtherPhase_prepare : NamesOtherPhase (prepare ctx data) := by
  refine .bind (.ite (.error nofun) (.ite (.error nofun) (.ite (.error nofun) (.ok _)))) fun header => ?_
  refine .bind (.ite (.error nofun) (.ite (.error nofun) (.ite (.error nofun) (.ok _)))) fun lengths => ?_
  refine .bind (.ite (.error nofun) (.ite (.error nofun) (.ok ()))) fun _ => ?_
  refine .bind (.mapError fun _ => nofun) fun read => ?_
  refine .bind (.ite (.ok ()) (.ite (.ok ()) (.mapError fun _ => nofun))) fun _ => ?_
  -- phases 9 to 14
  iterate 6 refine .bind (.require nofun) fun _ => ?_
  refine .bind (.ite (.ok []) (.ite (.error nofun) (.mapError fun _ => nofun))) fun parsedExts => ?_
  refine .bind (namesOtherPhase_checkUnknownCritical ctx parsedExts) fun _ => ?_
  exact .bind (namesOtherPhase_checkNonNegotiated ctx parsedExts) fun _ => .ok _

theorem processExtensionSemantics_fails (callbackCount ignoredCount : Nat)
    (world : World σ) (failed : (processExtensionSemantics ctx callbacks exts callbackCount ignoredCount world).1 =
      .error error) : ∃ earlier last,
      (processExtensionSemantics ctx callbacks exts callbackCount ignoredCount world).2.calls =
        world.calls ++ (earlier ++ [last]) ∧
      last.result = .error error ∧ ∀ call ∈ earlier, call.result = .ok () := by
  induction exts generalizing callbackCount ignoredCount world with
  | nil => cases failed
  | cons ext exts ih =>
    simp only [processExtensionSemantics] at failed ⊢
    split at failed
    next foreign =>
      rw [if_pos foreign]
      exact ih _ _ _ failed
    next negotiated =>
      rw [if_neg negotiated]
      cases found : callbacks.find? (fun callback => callback.extensionType == ext.extType) with
      | none =>
        simp only [found] at failed ⊢
        exact ih _ _ _ failed
      | some callback =>
        simp only [found] at failed ⊢
        unfold ExtensionCallback.invoke at failed ⊢
        generalize callback.process ext.data world.state = outcome at failed ⊢
        obtain ⟨result, state⟩ := outcome
        cases result with
        | error own =>
          cases failed
          exact ⟨[], ⟨ext.extType, ext.data, .error error⟩, rfl, rfl, forall_mem_nil _⟩
        | ok =>
          obtain ⟨earlier, last, logged, raised, fine⟩ := ih _ _ _ failed
          refine ⟨⟨ext.extType, ext.data, .ok ()⟩ :: earlier, last, ?_, raised, ?_⟩
          · rw [logged, append_assoc]
            rfl
          · exact forall_mem_cons.mpr ⟨rfl, fine⟩

/-- A failed run either ran no callback and names a phase without callbacks, or
returns the error of its last call as it is. -/
theorem process_fails (world : World σ) (failed : (process ctx callbacks data world).1 = .error error) :
    ((process ctx callbacks data world).2.calls = world.calls ∧ error.phase ≠ .processExtensionSemantics) ∨
      ∃ earlier last, (process ctx callbacks data world).2.calls = world.calls ++ (earlier ++ [last]) ∧
        last.result = .error error ∧ ∀ call ∈ earlier, call.result = .ok () := by
  have early := namesOtherPhase_prepare ctx data
  unfold process at failed ⊢
  cases prepared : prepare ctx data with
  | error raised =>
    rw [prepared] at failed early
    cases failed
    exact .inl ⟨rfl, early error rfl⟩
  | ok passed =>
    rw [prepared] at failed
    right
    rcases ran : processExtensionSemantics ctx callbacks passed.2 0 0 world with ⟨result, after⟩
    cases result with
    | error raised =>
      simp only [ran] at failed ⊢
      cases failed
      have fails := processExtensionSemantics_fails ctx callbacks passed.2 0 0 world
        (congrArg Prod.fst ran)
      rwa [ran] at fails
    | ok counts => simp [ran, validateFinalState] at failed

/-- The error tells whether callbacks ran exactly when each error a callback
returned in the run names the phase of the callbacks. -/
theorem error_tells_callbacks_iff (ctx : PipelineContext) (callbacks : List (ExtensionCallback σ))
    (data : List UInt8) (world : World σ) (error : PipelineError)
    (failed : (process ctx callbacks data world).1 = .error error) :
    ∃ calls, (process ctx callbacks data world).2.calls = world.calls ++ calls ∧
      ((error.extensionCallbacksInvoked = true ↔ calls ≠ []) ↔ ∀ call ∈ calls, ∀ own, call.result = .error own →
          own.phase = .processExtensionSemantics) := by
  rcases process_fails ctx callbacks data world failed with
    ⟨unchanged, other⟩ | ⟨earlier, last, logged, raised, fine⟩
  · refine ⟨[], by simpa using unchanged, ?_⟩
    simp [other]
  · refine ⟨earlier ++ [last], logged, ?_⟩
    have named : (∀ call ∈ earlier ++ [last], ∀ own, call.result = .error own →
        own.phase = .processExtensionSemantics) ↔ error.phase = .processExtensionSemantics := by
      constructor
      · intro each
        exact each last (by simp) error raised
      · intro named call mem own result
        rcases mem_append.mp mem with before | final
        · simp [fine call before] at result
        · rw [mem_singleton.mp final, raised] at result
          cases result
          exact named
    rw [named, PipelineError.extensionCallbacksInvoked_iff]
    exact iff_true_right (by simp)

private def extended : Frame := ⟨.data, 0, 4, [0, 1, 0, 0, 0, 0, 0, 0], []⟩

private def permissive : PipelineContext :=
  ⟨true, true, fun _ => true, fun _ => true, fun _ => true, true, {1}, {1}⟩

private def blaming (phase : PipelinePhase) : ExtensionCallback Unit :=
  ⟨1, fun _ state => (.error ⟨phase, 5001, true, "rejected"⟩, state)⟩

/-- A callback that names its own phase is reported. -/
theorem error_tells_callback_failed :
    (process permissive [blaming .processExtensionSemantics] (frameBytes extended) ⟨(), []⟩).1 =
        .error ⟨.processExtensionSemantics, 5001, true, "rejected"⟩ ∧ ∃ calls,
        (process permissive [blaming .processExtensionSemantics] (frameBytes extended)
          ⟨(), []⟩).2.calls = [] ++ calls ∧ (((⟨.processExtensionSemantics, 5001, true, "rejected"⟩ :
            PipelineError).extensionCallbacksInvoked = true ↔ calls ≠ []) ↔
          ∀ call ∈ calls, ∀ own, call.result = .error own → own.phase = .processExtensionSemantics) :=
  ⟨by decide +kernel, error_tells_callbacks_iff _ _ _ ⟨(), []⟩ _ (by decide +kernel)⟩

/-- A callback that reports a failed signature: it ran, and the error denies it. -/
theorem error_denies_callback :
    let failure : PipelineError := ⟨.verifySignatures, 5001, true, "rejected"⟩
    let run := process permissive [blaming .verifySignatures] (frameBytes extended) ⟨(), []⟩
    run.1 = .error failure ∧ run.2.calls = [⟨1, [], .error failure⟩] ∧
      failure.extensionCallbacksInvoked = false := by
  decide +kernel

end Aafp.Messaging
