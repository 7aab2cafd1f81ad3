import ScherzoCloud.Workflow.RecoveryRounds

/-!
# Refused occurrences

Some functions of the reducer write to the state before their last guard: a
decision to recheck is recorded before the next execution is known to exist, and
a cancellation operation before the phase is looked at.  The bookkeeping of
recoveries shows that such a guard never fails (`RechecksContinue`), so that an
occurrence that is refused has no effect at all.
-/

namespace ScherzoCloud.Workflow

open Collections

variable {O C V D : Type} {r : Reduction O C V D} {id : String}
  {cancellation : CancellationRequest D} {operation : Option CancellationOperationId}
  {round : RecoveryRoundNumber} {action : ActionId} {s : RuntimeState C V D}

section Guards

/-- A handler that is running has an execution to ask for. -/
def RechecksContinue (s : RuntimeState C V D) : Prop :=
  ∀ id rt round, s.steps.get? id = some rt → rt.state = .recovering round .running →
    rt.latestFailure.bind (fun failure =>
      TargetExecutionNumber.next failure.executionNumber) ≠ none

theorem applyOrdinaryCancellation_refused
    (h : (applyOrdinaryCancellation r cancellation operation).1 = false) :
    (applyOrdinaryCancellation r cancellation operation).2 = r := by
  unfold applyOrdinaryCancellation at h ⊢
  split at h
  · rfl
  · cases h
  · rfl

theorem applyCancellation_refused (h : (applyCancellation r cancellation operation).1 = false) :
    (applyCancellation r cancellation operation).2 = r := by
  unfold applyCancellation at h ⊢
  split at h
  · exact applyOrdinaryCancellation_refused h
  · rename_i trigger issue hworkflow
    -- the phase is looked at again after the operation was recorded, and is the same
    have hphase : (recordOperation r operation).state.workflow =
      .finalizing trigger .open issue := by
      cases operation <;> exact hworkflow
    simp only [applyFinalizationCancellation, hphase] at h
    cases h
  all_goals rfl

theorem applyOrdinaryOnlyCancellation_refused (hopen : r.state.workflow.isTerminal = false)
    {operation : CancellationOperationId}
    (h : (applyOrdinaryOnlyCancellation r cancellation operation).1 = false) :
    (applyOrdinaryOnlyCancellation r cancellation operation).2 = r := by
  unfold applyOrdinaryOnlyCancellation at h ⊢
  split_ifs at h ⊢
  · rfl
  · cases hworkflow : r.state.workflow with
    | executing =>
      simp only [hworkflow] at h ⊢
      exact applyOrdinaryCancellation_refused h
    | finalizing =>
      simp only [hworkflow] at h
      cases h
    | succeeded | failed | cancelled =>
      rw [hworkflow] at hopen
      cases hopen

theorem applyForceAbort_refused {operation : CancellationOperationId} {deadline : D}
    (h : (applyForceAbort r operation deadline).1 = false) :
    (applyForceAbort r operation deadline).2 = r := by
  unfold applyForceAbort at h ⊢
  split_ifs at h ⊢
  · rfl
  · split at h
    · cases h
    · cases h
    · rfl

theorem applyHandlerDecision_refused (hnodes : NodesMatch r.state)
    (hcontinue : RechecksContinue r.state) {decision : RecoveryDecision}
    (h : (applyHandlerDecision r id round action decision).1 = false) :
    (applyHandlerDecision r id round action decision).2 = r := by
  unfold applyHandlerDecision at h ⊢
  cases haccepts : handlerAccepts r.state id round .running action with
  | false => rfl
  | true =>
    obtain ⟨rt, hrt, -, -, hstate⟩ := handlerAccepts_iff.mp haccepts
    obtain ⟨d, hd⟩ := hnodes.definition hrt
    simp only [haccepts, Bool.not_true, Bool.false_eq_true, if_false] at h
    cases hkind : decision.kind with
    | gaveUp =>
      simp only [hkind] at h
      cases h
    | recheck =>
      have hrt' := RuntimeState.get?_setNode_self hrt
        (rt.noteOutcome round (.recheck decision.summary decision.reason))
      obtain ⟨n, hnext⟩ := Option.ne_none_iff_exists'.mp (hcontinue id rt round hrt hstate)
      simp only [hkind, Reduction.mapState_eq, setHandlerOutcome_eq hrt, Reduction.emit_state,
        latestTargetFailure_eq hrt', StepRuntimeState.latestFailure_noteOutcome, hnext,
        RuntimeState.setNode_definition, hd] at h
      cases h

theorem applyQuiesced_refused (h : (applyQuiesced r id action).1 = false) :
    (applyQuiesced r id action).2 = r := by
  unfold applyQuiesced at h ⊢
  split at h
  · rfl
  · cases h

variable [NodeFailureSource C]

theorem applyStepFailure_refused {expected : StepStateKind} {phase : FailurePhase} {cause : C}
    (h : (applyStepFailure r id action expected phase cause).1 = false) :
    (applyStepFailure r id action expected phase cause).2 = r := by
  unfold applyStepFailure at h ⊢
  split_ifs at h ⊢
  · rfl
  · split at h
    · -- a failure with a usable detail is always accepted, with or without a new round
      dsimp only at h
      simp only [apply_ite Prod.fst, ite_self] at h
      cases h
    · rfl

end Guards

section Occurrences

variable [ProvisionalStepResources O] [NodeFailureSource C] {occurrence : Occurrence O C V D}

/-- What is refused changes nothing; resources that came with it are released. -/
theorem applyOccurrence_refused (hnodes : NodesMatch r.state)
    (hopen : r.state.workflow.isTerminal = false) (hcontinue : RechecksContinue r.state)
    (h : (applyOccurrence r occurrence).1 = false) : (applyOccurrence r occurrence).2 =
      { r with actions := r.actions ++ (occurrenceResourceRelease occurrence).toList } := by
  have hunchanged : ∀ r' : Reduction O C V D, r' = r →
      occurrenceResourceRelease occurrence = none →
      r' = { r with actions := r.actions ++ (occurrenceResourceRelease occurrence).toList } := by
    rintro r' rfl hnone
    simp [hnone]
  cases occurrence with
  | stepStarted | outputsCaptured | recoveryHandlerStarted | recoveryHandlerStartFailed
  | recoveryHandlerExecutionFailed =>
    refine hunchanged _ ?_ rfl
    simp only [applyOccurrence, applyOutputsCaptured, applyHandlerStarted,
      applyHandlerFailure] at h ⊢
    split_ifs at h ⊢
    rfl
  | stepStartFailed | stepExecutionFailed | outputCaptureFailed =>
    exact hunchanged _ (applyStepFailure_refused h) rfl
  | stepExecutionCompleted _ _ provisional =>
    unfold applyOccurrence applyExecutionCompleted at h ⊢
    dsimp only at h ⊢
    split_ifs at h ⊢
    unfold releaseResources
    cases hrelease : ProvisionalStepResources.requiresRelease provisional <;>
      simp [occurrenceResourceRelease, hrelease, Reduction.pushAction]
  | recoveryHandlerCompleted =>
    exact hunchanged _ (applyHandlerDecision_refused hnodes hcontinue h) rfl
  | cancellationOperationRequested =>
    refine hunchanged _ ?_ rfl
    unfold applyOccurrence at h ⊢
    dsimp only at h ⊢
    split_ifs at h ⊢
    · rfl
    · exact applyCancellation_refused h
  | ordinaryCancellationOperationRequested =>
    exact hunchanged _ (applyOrdinaryOnlyCancellation_refused hopen h) rfl
  | forceAbortRequested =>
    refine hunchanged _ ?_ rfl
    unfold applyOccurrence at h ⊢
    dsimp only at h ⊢
    split_ifs at h ⊢
    · rfl
    · exact applyForceAbort_refused h
  | stepQuiesced => exact hunchanged _ (applyQuiesced_refused h) rfl

variable [ConditionOutput V]

/-- A refused reduction is the discarded occurrence. -/
theorem reduce_eq_discard (hnodes : NodesMatch s) (hcoherent : s.definition.Coherent)
    (hcontinue : RechecksContinue s) (h : (reduce s occurrence).occurrenceAccepted = false) :
    reduce s occurrence = discardOccurrence s occurrence := by
  rcases reduce_refused hnodes hcoherent h with hdiscard | ⟨hopen, hrefused, happlied⟩
  · exact hdiscard
  · rw [happlied]
    exact applyOccurrence_refused hnodes hopen hcontinue hrefused

end Occurrences

variable [ConditionOutput V] {definition : RuntimeDefinition} {seed : ExecutionSeed V}
  {m : Emission O C V D}

variable {o : Option (Occurrence O C V D)} {d : RuntimeStep} {rt rt' : StepRuntimeState C V}

/-- A recovering node has a record of its recovery. -/
def Recorded (rt : StepRuntimeState C V) : Prop :=
  rt.state.kind = .recovering → rt.policy.isSome = true

theorem NodeChange.recorded (h : NodeChange o s m id d rt rt') (hrt : Recorded rt) :
    Recorded rt' := by
  intro hkind
  rw [h.policy]
  cases h with
  | same | passed => exact hrt hkind
  | move h =>
    cases h with
    | recover _ _ _ hopens =>
      rw [StepRuntimeState.policy, hopens.spec.1]
      rfl
    | handlerRunning _ hstate => exact hrt (by rw [hstate]; rfl)
    | start | retry | recheck | run | capture | succeed | quiesce | skip | failureStop
    | notSelected | forcedCancel => cases hkind
  | complete => cases hkind
  | issue h =>
    cases h with
    | fail | conditionFailed | blockOrdinary | blockCondition | blockInput => cases hkind
  | note _ hstate =>
    obtain ⟨round, activity, hstate⟩ := hstate
    exact hrt (by rw [hstate]; rfl)
  | contained h =>
    cases h with
    | drop | contain => cases hkind
    | escalate | pass => exact hrt hkind

theorem Reachable.recorded (h : Reachable definition seed m s)
    (hd : definition.steps.get? id = some d) (hrt : s.steps.get? id = some rt) : Recorded rt := by
  refine h.nodeInvariant (P := fun _ _ rt => Recorded rt) ?_ ?_ hd hrt
  · intro id d _ hkind
    unfold initialStep at hkind
    dsimp only at hkind
    split at hkind <;> cases hkind
  · intro o s n id d rt rt' _ _ hrt hchange
    exact hchange.recorded hrt

/-- A running handler belongs to the last round, and the execution after it exists as long as
the policy has fewer rounds than there are execution numbers. -/
theorem Reachable.rechecksContinue (h : Reachable definition seed m s)
    (hretries : ∀ id d, definition.steps.get? id = some d →
      ∀ policy ∈ d.recovery, policy.retries ≤ 10) : RechecksContinue s := by
  intro id rt round hrt hstate
  obtain ⟨d, hd⟩ := h.nodesMatch.definition hrt
  rw [h.definition_eq] at hd
  obtain ⟨recovery, hrecovery⟩ : ∃ recovery, rt.recovery = some recovery := by
    have hrecorded := h.recorded hd hrt (by rw [hstate]; rfl)
    rw [StepRuntimeState.policy, Option.isSome_map] at hrecorded
    exact Option.isSome_iff_exists.mp hrecorded
  have hinv := h.recoveryHolds hd hrt (hretries id d hd) recovery hrecovery
  obtain ⟨-, -, record, hlast, -⟩ :=
    hinv.handler round ((h.invocationMatches hd hrt).handler round .running hstate)
  rw [StepRuntimeState.latestFailure, StepRuntimeState.lastRound_eq hrecovery, hlast,
    Option.map_some, Option.bind_some]
  exact hinv.next_isSome (h.policy_bound hd hrt (hretries id d hd) recovery hrecovery).2 hlast

variable [ProvisionalStepResources O] [NodeFailureSource C]

/-- In every state of every run, an occurrence that is refused leaves the state as it is,
commits nothing, and requests nothing but the release of the resources it brought. -/
theorem refused_occurrence {decoded : DecodedDocument} {workflow : ValidatedWorkflow}
    (hvalid : validate decoded.document = .ok workflow)
    (inputs : BTreeMap String ResolvedInput)
    (parallel transitions : Nat)
    (initial : Option (InitialCancellation D))
    (seed : ExecutionSeed V)
    (occurrences : List (Occurrence O C V D))
    {start : ExecutionStart D}
    (hstart : start =
      ⟨RuntimeDefinition.fromAdmitted workflow inputs parallel transitions, initial⟩)
    {s : RuntimeState C V D}
    (hstate : s = (ledger start seed occurrences).state)
    {occurrence : Occurrence O C V D}
    (hrefused : (reduce s occurrence).occurrenceAccepted = false) :
    (reduce s occurrence).state = s ∧ (reduce s occurrence).events = [] ∧
      ((reduce s occurrence).actions = [] ∨ ∃ step action provisional,
        occurrence = .stepExecutionCompleted step action provisional ∧
        (reduce s occurrence).actions = [⟨action, .releaseStepResources provisional⟩]) := by
  have hcoherent : start.definition.Coherent := by
    rw [hstart]
    exact fromAdmitted_coherent hvalid ..
  have hreach := ledger_reachable start seed hcoherent occurrences
  rw [← hstate] at hreach
  have hcontinue : RechecksContinue s := by
    refine hreach.rechecksContinue (fun id d hd policy hmem => ?_)
    subst hstart
    exact (validate_accepted hvalid).retries_le decoded.structural hd hmem
  rw [reduce_eq_discard hreach.nodesMatch (hreach.coherent hcoherent) hcontinue hrefused]
  refine ⟨rfl, rfl, ?_⟩
  unfold discardOccurrence
  cases occurrence with
  | stepExecutionCompleted step action provisional =>
    unfold occurrenceResourceRelease
    dsimp only
    split_ifs
    · exact Or.inr ⟨step, action, provisional, rfl, rfl⟩
    · exact Or.inl rfl
  | _ => exact Or.inl rfl

/-- The decision of the handler, reported once more. -/
def repeatedRecheck : Occurrence Unit FailureDetail String Nat :=
  .recoveryHandlerCompleted "build" 1 ⟨3⟩ ⟨.recheck, "again", "flaky"⟩

theorem repeatedRecheck_refused :
    (reduce recheckedBuild.state repeatedRecheck).occurrenceAccepted = false ∧
      (reduce recheckedBuild.state repeatedRecheck).state = recheckedBuild.state :=
  ⟨rfl, (refused_occurrence
    (show validate recoverableDecoded.document = .ok
      (acceptedWorkflow recoverableDocument) from rfl)
    .empty 1 32 none .empty _ rfl (show recheckedBuild.state = _ from rfl)
    rfl).1⟩

end ScherzoCloud.Workflow
