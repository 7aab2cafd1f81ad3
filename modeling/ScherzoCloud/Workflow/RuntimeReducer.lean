import ScherzoCloud.Collections.Iteration
import ScherzoCloud.Workflow.RuntimeReadiness

/-!
# The workflow reducer

The transition functions of `runtime.rs`.  Every function that takes
`&mut Reduction` in the source takes a `Reduction` here and returns the updated
one; a function that also returns a value returns a pair.

`applyOccurrence` commits what one occurrence means, `stabilize` then settles,
evaluates and starts nodes until nothing changes, and `reduce` is both.  The
`while let` loops are bounded by the number of nodes, the outer loop of
`stabilize` by the number of nodes and phase changes.
-/

namespace ScherzoCloud.Workflow

open Collections

variable {O C V D : Type} (state : RuntimeState C V D) (reduction : Reduction O C V D)

/-- Take the next sequence number, or mark the ceiling as exceeded and take the
last one again. -/
def nextSequence : TransitionSequence × RuntimeState C V D :=
  let sequence := TransitionSequence.next state.lastTransitionSequence
  if state.definition.maximumTransitions < sequence then
    (state.lastTransitionSequence, { state with transitionCapacityExceeded := true })
  else (sequence, { state with lastTransitionSequence := sequence })

def modifyStep (step : String) (f : StepRuntimeState C V → StepRuntimeState C V) :
    RuntimeState C V D :=
  { state with steps := state.steps.modify step f }

def setCurrentAction (step : String) (action : ActionId) : RuntimeState C V D :=
  modifyStep state step (fun runtime => { runtime with currentAction := some action })

def clearActiveInvocation (step : String) : RuntimeState C V D :=
  modifyStep state step (fun runtime => { runtime with activeInvocation := none })

/-- Change the state of a reduction without an event. -/
def Reduction.mapState (f : RuntimeState C V D → RuntimeState C V D) : Reduction O C V D :=
  { reduction with state := f reduction.state }

def Reduction.pushAction (id : ActionId) (action : Action O C V D) : Reduction O C V D :=
  { reduction with actions := reduction.actions ++ [⟨id, action⟩] }

def transitionStep (step : String) (target : StepState V) (currentAction : Option ActionId) :
    TransitionSequence × Reduction O C V D :=
  let (sequence, state) := nextSequence reduction.state
  let definition := state.definition.steps.get? step
  let failurePolicy := (definition.map RuntimeStep.failurePolicy).getD .required
  let role := (definition.map RuntimeStep.role).getD .step
  match state.steps.get? step with
  | none => (sequence, { reduction with state := state })
  | some runtime =>
    (sequence,
      { reduction with
        state := modifyStep state step (fun runtime =>
          { runtime with state := target, currentAction := currentAction })
        events := reduction.events ++
          [.step sequence step role failurePolicy runtime.state.kind target.kind] })

/-- Commit a change of the workflow state with its event. -/
def transitionWorkflow (target : WorkflowState D) : TransitionSequence × Reduction O C V D :=
  let (sequence, state) := nextSequence reduction.state
  (sequence,
    { reduction with
      state := { state with workflow := target }
      events := reduction.events ++ [.workflow sequence reduction.state.workflow target] })

/-- Update the last round of a recovery. -/
def modifyLastRound (f : RecoveryRoundRecord C → RecoveryRoundRecord C)
    (recovery : StepRecoveryState C) : StepRecoveryState C :=
  match recovery.rounds.getLast? with
  | none => recovery
  | some round => { recovery with rounds := recovery.rounds.dropLast ++ [f round] }

def modifyRecovery (step : String) (f : StepRecoveryState C → StepRecoveryState C) :
    RuntimeState C V D :=
  modifyStep state step (fun runtime => { runtime with recovery := runtime.recovery.map f })

def setHandlerOutcome (step : String)
    (round : RecoveryRoundNumber) (outcome : RecoveryHandlerOutcome C) : RuntimeState C V D :=
  modifyRecovery state step (modifyLastRound (fun record =>
    if record.number = round then
      { record with handler := record.handler.map (fun handler =>
          { handler with outcome := outcome }) }
    else record))

def setRecoveryDisposition (step : String)
    (disposition : RecoveryTerminalDisposition) : RuntimeState C V D :=
  modifyRecovery state step (fun recovery =>
    { recovery with terminalDisposition := some disposition })

def markRecoveryExhausted (step : String) : RuntimeState C V D :=
  match activatedRecoveryExecution state step with
  | none => state
  | some executionNumber => setRecoveryDisposition state step (.exhausted executionNumber)

def markRecovered (step : String) : RuntimeState C V D :=
  match activatedRecoveryExecution state step with
  | none => state
  | some executionNumber => setRecoveryDisposition state step (.recovered executionNumber)

def markHandlerCancelled (step : String) : ActiveStepInvocation → RuntimeState C V D
  | .recoveryHandler round => setHandlerOutcome state step round .cancelled
  | .target _ => state

def markRecoveryCancelled (step : String) (active : ActiveStepInvocation) : RuntimeState C V D :=
  match ((state.steps.get? step).bind StepRuntimeState.recovery).bind (fun recovery =>
      recovery.rounds.getLast?) with
  | none => state
  | some round => setRecoveryDisposition state step (.cancelled round.number active)

def closeOrdinaryGateForFailure (primaryIssue : PrimaryIssue) : Reduction O C V D :=
  match reduction.state.workflow with
  | .executing .open =>
    (transitionWorkflow reduction (.executing (.failureStopped primaryIssue))).2
  | _ => reduction

def selectFinalizerPrimaryIssue (primaryIssue : PrimaryIssue) : Reduction O C V D :=
  match reduction.state.workflow with
  | .finalizing .succeeded .open none =>
    (transitionWorkflow reduction (.finalizing .succeeded .open (some primaryIssue))).2
  | _ => reduction

/-- The first issue of a required node decides the outcome of its phase. -/
def commitRequiredIssue (definition : RuntimeStep) (primaryIssue : PrimaryIssue) :
    Reduction O C V D :=
  if definition.failurePolicy = .required then
    match definition.role with
    | .step => closeOrdinaryGateForFailure reduction primaryIssue
    | .finalizer => selectFinalizerPrimaryIssue reduction primaryIssue
  else reduction

def settleTargetFailure (step : String) (definition : RuntimeStep) (detail : FailureDetail) :
    Reduction O C V D :=
  let reduction := (transitionStep reduction step (.failed detail) none).2
  let reduction := reduction.mapState (clearActiveInvocation · step)
  commitRequiredIssue reduction definition (.ofFailed ⟨step, definition.role⟩ detail)

def settleLatestTargetFailure (step : String) : Reduction O C V D :=
  match latestTargetFailure reduction.state step, reduction.state.definition.steps.get? step with
  | some failure, some definition =>
    settleTargetFailure reduction step definition failure.detail
  | _, _ => reduction

def settleBlocked (id : String) (detail : BlockedDetail) : Reduction O C V D :=
  match reduction.state.definition.steps.get? id with
  | none => reduction
  | some definition =>
    let reduction := (transitionStep reduction id (.blocked detail) none).2
    commitRequiredIssue reduction definition (.ofBlocked ⟨id, definition.role⟩ detail)

variable (step : String)

def authorizeTarget (executionNumber : TargetExecutionNumber)
    (inputs : BTreeMap String (ActionInput V)) : Reduction O C V D :=
  let reduction := reduction.mapState (modifyStep · step (fun runtime =>
    { runtime with targetExecution := some executionNumber }))
  let (sequence, reduction) := transitionStep reduction step .starting none
  let actionId := ActionId.forTransition sequence
  let reduction := reduction.mapState (modifyStep · step (fun runtime =>
    { runtime with
      targetInvocation := some actionId
      activeInvocation := some (.target executionNumber) }))
  let reduction := reduction.mapState (setCurrentAction · step actionId)
  reduction.pushAction actionId (.startStep step executionNumber inputs)

/-- The round that a failed execution opens, if the policy has one left. -/
def openRound (runtime : StepRuntimeState C V) (phase : FailurePhase)
    (detail : FailureDetail) (cause : C) :
    Option (StepRecoveryState C × RecoveryRoundRecord C) := do
  let executionNumber ← runtime.targetExecution
  let invocation ← runtime.targetInvocation
  let recovery ← runtime.recovery
  if recovery.configuredRounds ≤ recovery.rounds.length then none
  else if 255 ≤ recovery.rounds.length then none
  else if recovery.rounds.length + 1 ≠ executionNumber then none
  else some (recovery,
    ⟨recovery.rounds.length + 1, ⟨executionNumber, invocation, phase, detail, cause⟩, none⟩)

/-- Start the handler of a round that was just opened. -/
def startRecoveryHandler (round : RecoveryRoundNumber)
    (kind : RecoveryHandlerKind) : Bool × Reduction O C V D :=
  let reduction := reduction.mapState (modifyStep · step (fun runtime =>
    { runtime with activeInvocation := some (.recoveryHandler round) }))
  let (sequence, reduction) := transitionStep reduction step (.recovering round .starting) none
  let action := ActionId.forTransition sequence
  match ((reduction.state.steps.get? step).bind StepRuntimeState.recovery).bind
      (fun recovery => recovery.rounds.getLast?) with
  | none => (false, reduction)
  | some _ =>
    let reduction := reduction.mapState (modifyRecovery · step
      (modifyLastRound (fun record =>
        { record with handler := some ⟨kind, action, .starting⟩ })))
    let reduction := reduction.mapState (setCurrentAction · step action)
    let history := (((reduction.state.steps.get? step).bind
      StepRuntimeState.recovery).map StepRecoveryState.rounds).getD []
    (true, reduction.pushAction action (.startRecoveryHandler step round kind history))

def activateRecoveryRound (phase : FailurePhase) (detail : FailureDetail)
    (cause : C) : Bool × Reduction O C V D :=
  match (reduction.state.steps.get? step).bind (openRound · phase detail cause) with
  | none => (false, reduction)
  | some (recovery, record) =>
    let reduction := reduction.mapState (modifyRecovery · step (fun recovery =>
      { recovery with rounds := recovery.rounds ++ [record] }))
    match recovery.handlerKind with
    | some kind => startRecoveryHandler reduction step record.number kind
    | none =>
      match TargetExecutionNumber.next record.failedExecution.executionNumber,
          reduction.state.definition.steps.get? step with
      | some nextExecution, some definition =>
        (true, authorizeTarget reduction step nextExecution
          (resolvedActionInputs reduction.state definition))
      | _, _ => (false, reduction)

variable [NodeFailureSource C]

def applyStepFailure (step : String) (action : ActionId) (expectedState : StepStateKind)
    (phase : FailurePhase) (cause : C) : Bool × Reduction O C V D :=
  if !stepAccepts reduction.state step expectedState action then (false, reduction)
  else match reduction.state.definition.steps.get? step,
      NodeFailureSource.nodeFailureDetail cause phase with
    | some definition, .ok detail =>
      let (recovering, activated) :=
        if definition.role = .step then
          activateRecoveryRound reduction step phase detail cause
        else (false, reduction)
      if recovering then (true, activated)
      else
        let settled := if definition.recovery.isSome then
            activated.mapState (markRecoveryExhausted · step)
          else activated
        (true, settleTargetFailure settled step definition detail)
    | _, _ => (false, reduction)

def applyHandlerDecision (round : RecoveryRoundNumber) (action : ActionId)
    (decision : RecoveryDecision) : Bool × Reduction O C V D :=
  if !handlerAccepts reduction.state step round .running action then (false, reduction)
  else match decision.kind with
    | .recheck =>
      let reduction := reduction.mapState (setHandlerOutcome · step round
        (.recheck decision.summary decision.reason))
      match (latestTargetFailure reduction.state step).bind (fun failure =>
          TargetExecutionNumber.next failure.executionNumber),
          reduction.state.definition.steps.get? step with
      | some executionNumber, some definition =>
        (true, authorizeTarget reduction step executionNumber
          (resolvedActionInputs reduction.state definition))
      | _, _ => (false, reduction)
    | .gaveUp =>
      let reduction := reduction.mapState (setHandlerOutcome · step round
        (.gaveUp decision.summary decision.reason))
      let reduction := reduction.mapState (setRecoveryDisposition · step (.gaveUp round))
      (true, settleLatestTargetFailure reduction step)

def applyHandlerFailure (round : RecoveryRoundNumber) (action : ActionId)
    (expected : RecoveryHandlerActivity) (phase : RecoveryHandlerFailurePhase)
    (cause : C) : Bool × Reduction O C V D :=
  if !handlerAccepts reduction.state step round expected action then (false, reduction)
  else
    let reduction := reduction.mapState (setHandlerOutcome · step round (.failed phase cause))
    let reduction := reduction.mapState (setRecoveryDisposition · step (.handlerFailed round phase))
    (true, settleLatestTargetFailure reduction step)

section Cancellation

/-- Cancel one node that was in a given state when the cancellation began. -/
def cancelNode (reason : CancellationReason) (deadline : D)
    (force : Option CancellationOperationId) (index : Nat) (step : String)
    (kind : StepStateKind) : Nat × Reduction O C V D :=
  match kind with
  | .pending => (index, (transitionStep reduction step (.cancelled ⟨reason⟩) none).2)
  | .starting | .running | .capturingOutputs | .recovering =>
    match (reduction.state.steps.get? step).bind StepRuntimeState.activeInvocation with
    | none => (index, reduction)
    | some active =>
      let reduction := reduction.mapState (markHandlerCancelled · step active)
      let (sequence, reduction) := transitionStep reduction step (.cancelling ⟨reason⟩) none
      match force with
      | some operation =>
        let action := ActionId.forForceAbort operation index
        let reduction := reduction.mapState (setCurrentAction · step action)
        (index + 1, reduction.pushAction action (.forceAbortStep step active reason deadline))
      | none =>
        let action := ActionId.forTransition sequence
        let reduction := reduction.mapState (setCurrentAction · step action)
        (index + 1, reduction.pushAction action (.cancelStep step active reason deadline))
  | .cancelling =>
    match force with
    | none => (index, reduction)
    | some operation =>
      let action := ActionId.forForceAbort operation index
      let reduction := reduction.mapState (setCurrentAction · step action)
      match (reduction.state.steps.get? step).bind StepRuntimeState.activeInvocation with
      | none => (index + 1, reduction)
      | some active =>
        (index + 1, reduction.pushAction action (.forceAbortStep step active reason deadline))
  | .succeeded | .inherited | .failed | .blocked | .skipped | .notRun | .cancelled =>
    (index, reduction)

/-- The nodes of a role with the state each of them is in. -/
def nodesOfRole (role : WorkflowNodeRole) : List (String × StepStateKind) :=
  state.definition.steps.entries.filterMap (fun e =>
    if e.2.role = role then
      (state.steps.get? e.1).map (fun runtime => (e.1, runtime.state.kind))
    else none)

/-- Cancel every node of a role; a forced cancellation also contains again what
is already being cancelled. -/
def cancelNodes (role : WorkflowNodeRole) (reason : CancellationReason) (deadline : D)
    (force : Option CancellationOperationId) : Reduction O C V D :=
  ((nodesOfRole reduction.state role).foldl (fun (acc : Nat × Reduction _ _ _ _) node =>
    cancelNode acc.2 reason deadline force acc.1 node.1 node.2) (1, reduction)).2

def cancelPendingNodes (role : WorkflowNodeRole) (reason : CancellationReason) :
    Reduction O C V D :=
  ((nodesOfRole reduction.state role).filter (fun node => node.2 = .pending)).foldl
    (fun reduction node => (transitionStep reduction node.1 (.cancelled ⟨reason⟩) none).2)
    reduction

/-- Remember the operation, if the cancellation has one. -/
def recordOperation (operation : Option CancellationOperationId) : Reduction O C V D :=
  match operation with
  | none => reduction
  | some operation => reduction.mapState (fun state =>
    { state with lastCancellationOperation := some operation })

/-- Take a sequence number for an acceptance event. -/
def acceptEvent (event : TransitionSequence → TransitionEvent D) : Reduction O C V D :=
  let (sequence, state) := nextSequence reduction.state
  { reduction with state := state, events := reduction.events ++ [event sequence] }

/-- The issue that had already stopped the phase when it was cancelled. -/
def priorIssue : SchedulingGate → Option PrimaryIssue
  | .open => none
  | .failureStopped primaryIssue => some primaryIssue
  | .cancelling _ priorIssue => priorIssue

variable (cancellation : CancellationRequest D)

def applyOrdinaryCancellation (operation : Option CancellationOperationId) :
    Bool × Reduction O C V D :=
  match reduction.state.workflow with
  | .executing (.cancelling _ _) => (false, reduction)
  | .executing gate =>
    let reduction := recordOperation reduction operation
    let reduction := reduction.mapState (fun state =>
      { state with
        workflow := .executing (.cancelling cancellation.reason (priorIssue gate)) })
    let reduction := acceptEvent reduction (fun sequence =>
      .cancellationAccepted sequence cancellation.reason cancellation.deadline)
    (true, cancelNodes reduction .step cancellation.reason cancellation.deadline none)
  | _ => (false, reduction)

def applyFinalizationCancellation (operation : Option CancellationOperationId) :
    Bool × Reduction O C V D :=
  let reduction := recordOperation reduction operation
  match reduction.state.workflow with
  | .finalizing trigger _ primaryIssue =>
    let reduction := reduction.mapState (fun state =>
      { state with
        workflow := .finalizing trigger
          (.cancelling cancellation.reason (some cancellation.deadline) false) primaryIssue
        finalization := state.finalization.map (fun finalization =>
          { finalization with
            cancellation := some ⟨cancellation.reason, some cancellation.deadline⟩ }) })
    let reduction := acceptEvent reduction (fun sequence =>
      .finalizationCancellationAccepted sequence cancellation.reason cancellation.deadline)
    (true, cancelNodes reduction .finalizer cancellation.reason cancellation.deadline none)
  | _ => (false, reduction)

def applyCancellation (operation : Option CancellationOperationId) : Bool × Reduction O C V D :=
  match reduction.state.workflow with
  | .executing _ => applyOrdinaryCancellation reduction cancellation operation
  | .finalizing _ .open _ => applyFinalizationCancellation reduction cancellation operation
  | .finalizing _ (.cancelling _ _ _) _ | .succeeded | .failed _ _ | .cancelled _ =>
    (false, reduction)

def applyOrdinaryOnlyCancellation (operation : CancellationOperationId) :
    Bool × Reduction O C V D :=
  if cancellation.reason = .forceAbort || staleOperation reduction.state operation then
    (false, reduction)
  else match reduction.state.workflow with
    | .executing _ => applyOrdinaryCancellation reduction cancellation (some operation)
    | .finalizing _ _ _ => (true, recordOperation reduction (some operation))
    | _ => (false, recordOperation reduction (some operation))

/-- The gate of an ordinary phase that is forced to stop. -/
def forcedGate : SchedulingGate → SchedulingGate
  | .failureStopped primaryIssue => .cancelling .forceAbort (some primaryIssue)
  | .cancelling reason priorIssue => .cancelling reason priorIssue
  | .open => .cancelling .forceAbort none

/-- The gate of a finalization phase that is forced to stop. -/
def forcedFinalizationGate : FinalizationGate D → FinalizationGate D
  | .open => .cancelling .forceAbort none true
  | .cancelling reason deadline _ => .cancelling reason deadline true

def applyForceAbort (operation : CancellationOperationId) (deadline : D) :
    Bool × Reduction O C V D :=
  if reduction.state.forceAbort.isSome then (false, reduction)
  else match reduction.state.workflow with
    | .executing gate =>
      let reduction := reduction.mapState (fun state =>
        { state with
          forceAbort := some ⟨.forceAbort, .ordinary⟩
          lastCancellationOperation := some operation
          workflow := .executing (forcedGate gate) })
      let reduction := acceptEvent reduction (fun sequence =>
        .forceAbortAccepted sequence .forceAbort .ordinary)
      (true, cancelNodes reduction .step .forceAbort deadline (some operation))
    | .finalizing trigger gate primaryIssue =>
      let reduction := reduction.mapState (fun state =>
        { state with
          forceAbort := some ⟨.forceAbort, .finalization⟩
          lastCancellationOperation := some operation
          workflow := .finalizing trigger (forcedFinalizationGate gate) primaryIssue
          finalization := state.finalization.map (fun finalization =>
            { finalization with
              forceAbort := true
              cancellation := finalization.cancellation.or (some ⟨.forceAbort, none⟩) }) })
      let reduction := acceptEvent reduction (fun sequence =>
        .forceAbortAccepted sequence .forceAbort .finalization)
      (true, cancelNodes reduction .finalizer .forceAbort deadline (some operation))
    | _ => (false, reduction)

end Cancellation

variable [ProvisionalStepResources O] (reduction : Reduction O C V D)
/-- Ask for the release of resources that need it. -/
def releaseResources (id : ActionId) (provisional : O) : Reduction O C V D :=
  if ProvisionalStepResources.requiresRelease provisional then
    reduction.pushAction id (.releaseStepResources provisional)
  else reduction

def applyExecutionCompleted (step : String) (action : ActionId) (provisional : O) :
    Bool × Reduction O C V D :=
  if !stepAccepts reduction.state step .running action then
    (false, releaseResources reduction action provisional)
  else
    let (sequence, reduction) := transitionStep reduction step .capturingOutputs none
    if stepDeclaresOutputs reduction.state step then
      let captureAction := ActionId.forTransition sequence
      let reduction := reduction.mapState (setCurrentAction · step captureAction)
      (true, reduction.pushAction captureAction (.captureOutputs step provisional))
    else
      let reduction := reduction.mapState (markRecovered · step)
      let reduction := (transitionStep reduction step (.succeeded .empty) none).2
      let reduction := reduction.mapState (clearActiveInvocation · step)
      (true, releaseResources reduction (ActionId.forTransition sequence) provisional)

def applyOutputsCaptured (step : String) (action : ActionId) (outputs : OutputSet V) :
    Bool × Reduction O C V D :=
  if !stepAccepts reduction.state step .capturingOutputs action
      || !outputsMatchDeclaration reduction.state step outputs then (false, reduction)
  else
    let reduction := reduction.mapState (markRecovered · step)
    let reduction := (transitionStep reduction step (.succeeded outputs) none).2
    (true, reduction.mapState (clearActiveInvocation · step))

def applyHandlerStarted (step : String) (round : RecoveryRoundNumber) (action : ActionId) :
    Bool × Reduction O C V D :=
  if !handlerAccepts reduction.state step round .starting action then (false, reduction)
  else
    let reduction := reduction.mapState (setHandlerOutcome · step round .running)
    (true, (transitionStep reduction step (.recovering round .running) (some action)).2)

def applyQuiesced (step : String) (action : ActionId) : Bool × Reduction O C V D :=
  match cancellingStep reduction.state step action with
  | none => (false, reduction)
  | some (cancellingReason, active) =>
    let terminalReason := if action.isForceAbort then .forceAbort else cancellingReason
    let reduction := reduction.mapState (markRecoveryCancelled · step active)
    let reduction := (transitionStep reduction step (.cancelled ⟨terminalReason⟩) none).2
    (true, reduction.mapState (clearActiveInvocation · step))

/-- Commit what an occurrence means; the flag says whether it was accepted. -/
def applyOccurrence (occurrence : Occurrence O C V D) : Bool × Reduction O C V D :=
  match occurrence with
  | .stepStarted step action =>
    if !stepAccepts reduction.state step .starting action then (false, reduction)
    else (true, (transitionStep reduction step .running (some action)).2)
  | .stepStartFailed step action cause =>
    applyStepFailure reduction step action .starting .start cause
  | .stepExecutionCompleted step action provisional =>
    applyExecutionCompleted reduction step action provisional
  | .stepExecutionFailed step action cause =>
    applyStepFailure reduction step action .running .execution cause
  | .outputsCaptured step action outputs => applyOutputsCaptured reduction step action outputs
  | .outputCaptureFailed step action cause =>
    applyStepFailure reduction step action .capturingOutputs .outputCapture cause
  | .recoveryHandlerStarted step round action => applyHandlerStarted reduction step round action
  | .recoveryHandlerStartFailed step round action cause =>
    applyHandlerFailure reduction step round action .starting .start cause
  | .recoveryHandlerCompleted step round action decision =>
    applyHandlerDecision reduction step round action decision
  | .recoveryHandlerExecutionFailed step round action cause =>
    applyHandlerFailure reduction step round action .running .execution cause
  | .cancellationOperationRequested operation reason deadline =>
    if reason = .forceAbort || staleOperation reduction.state operation then
      (false, reduction)
    else applyCancellation reduction ⟨reason, deadline⟩ (some operation)
  | .ordinaryCancellationOperationRequested operation reason deadline =>
    applyOrdinaryOnlyCancellation reduction ⟨reason, deadline⟩ operation
  | .forceAbortRequested operation deadline =>
    if staleOperation reduction.state operation then (false, reduction)
    else applyForceAbort reduction operation deadline
  | .stepQuiesced step action => applyQuiesced reduction step action

/-- Bound of the loops that settle or evaluate one node per round. -/
def loopBound : Nat := reduction.state.definition.steps.size + 1

/-- Settle the next pending step that will not be started. -/
def propagateOrdinaryStep : Option (Reduction O C V D) :=
  match nextOrdinaryPendingDisposition reduction.state with
  | none => none
  | some (step, .blocked detail) => some (settleBlocked reduction step detail)
  | some (step, .notRun) =>
    some (transitionStep reduction step (.notRun ⟨.failureStop⟩) none).2

def propagateOrdinaryPendingDispositions : Reduction O C V D :=
  iterate propagateOrdinaryStep (loopBound reduction) reduction

/-- The pending finalizers that the trigger does not select. -/
def finalizersNotSelected (trigger : FinalizationTrigger) : List String :=
  state.definition.finalizerIds.filter (fun id =>
    stepIs state id StepState.isPending &&
      (state.definition.steps.get? id).any (fun definition =>
        decide (trigger ∉ definition.when)))

def propagateFinalizerTriggerDispositions : Reduction O C V D :=
  match reduction.state.finalization with
  | none => reduction
  | some finalization =>
    (finalizersNotSelected reduction.state finalization.trigger).foldl
      (fun reduction finalizer => (transitionStep reduction finalizer
        (.notRun ⟨.finalizerTriggerNotSelected⟩) none).2) reduction

/-- Block the next finalizer whose condition can no longer be evaluated. -/
def finalizerConditionBlockStep : Option (Reduction O C V D) :=
  match nextFinalizerConditionBlock reduction.state with
  | none => none
  | some (finalizer, detail) => some (settleBlocked reduction finalizer detail)

/-- Block the next ready finalizer that lacks an input.  When the evidence is
refused the source tries again without a change. -/
def inputUnavailableStep : Option (Reduction O C V D) :=
  match nextInputUnavailable reduction.state with
  | none => none
  | some (finalizer, references) =>
    match BlockedDetail.new (references.filterMap (fun reference =>
        (Prerequisite.mkBody reference).toOption)) with
    | .error _ => some reduction
    | .ok detail => some (settleBlocked reduction finalizer detail)

def propagateFinalizerDispositions : Reduction O C V D :=
  let reduction := propagateFinalizerTriggerDispositions reduction
  let reduction := iterate finalizerConditionBlockStep (loopBound reduction) reduction
  iterate inputUnavailableStep (loopBound reduction) reduction

variable [ConditionOutput V] (reduction : Reduction O C V D)
/-- Commit the evaluation of a condition; `none` when its evidence is refused
or the evaluation needs something that is not there. -/
def settleCondition (id : String) (definition : RuntimeStep) :
    ConditionEvaluation → Option (Reduction O C V D)
  | .passed => some (reduction.mapState (modifyStep · id (fun runtime =>
    { runtime with conditionPassed := true })))
  | .false evaluatedPredicates =>
    match ConditionFalseDetail.new evaluatedPredicates with
    | .error _ => none
    | .ok detail => some (transitionStep reduction id (.skipped detail) none).2
  | .failed canonicalRef pointer =>
    match FailureDetail.jsonPointerMissing canonicalRef pointer with
    | .error _ => none
    | .ok detail => some (settleTargetFailure reduction id definition detail)
  | .unavailable _ => none

/-- The node whose condition is evaluated next. -/
def nextCondition (role : WorkflowNodeRole) : Option String :=
  (idsOf state.definition role).find? (conditionGateReady state)

/-- Evaluate the next condition.  Every early exit of the source loop is `none`. -/
def evaluateConditionStep (role : WorkflowNodeRole) : Option (Reduction O C V D) := do
  let id ← nextCondition reduction.state role
  let definition ← reduction.state.definition.steps.get? id
  let predicate ← definition.condition
  settleCondition reduction id definition (evaluateCondition reduction.state definition predicate)

def evaluateReadyConditions (role : WorkflowNodeRole) : Reduction O C V D :=
  iterate (evaluateConditionStep · role) (loopBound reduction) reduction

def selectReadyNodes (role : WorkflowNodeRole) : Reduction O C V D :=
  if !phaseGateOpen reduction.state role then reduction
  else (selectedNodes reduction.state role).foldl
    (fun reduction node => authorizeTarget reduction node.1 1 node.2) reduction

def OrdinaryOutcome.trigger : OrdinaryOutcome → FinalizationTrigger
  | .succeeded => .succeeded
  | .failed _ _ => .failed
  | .cancelled _ => .cancelled

def OrdinaryOutcome.primaryIssue : OrdinaryOutcome → Option PrimaryIssue
  | .failed primaryIssue _ => some primaryIssue
  | .succeeded | .cancelled _ => none

def OrdinaryOutcome.cancellation : OrdinaryOutcome → Option CancellationReason
  | .failed _ laterCancellation => laterCancellation
  | .cancelled reason => some reason
  | .succeeded => none

def OrdinaryOutcome.workflowState : OrdinaryOutcome → WorkflowState D
  | .succeeded => .succeeded
  | .failed primaryIssue laterCancellation => .failed primaryIssue laterCancellation
  | .cancelled reason => .cancelled reason

def OrdinaryOutcome.runOutcome : OrdinaryOutcome → RunOutcome
  | .succeeded => .succeeded
  | .failed primaryIssue laterCancellation => .failed primaryIssue laterCancellation
  | .cancelled reason => .cancelled reason

/-- Finish the run, unless an export cannot be derived. -/
def finishRun (outcome : OrdinaryOutcome) (summary : Option (FinalizationSummary D)) :
    Reduction O C V D :=
  match deriveExports reduction.state with
  | none => reduction
  | some exports =>
    let (sequence, reduction) := transitionWorkflow reduction outcome.workflowState
    let reduction := reduction.mapState (fun state =>
      { state with exports := some exports, finalizationSummary := summary })
    reduction.pushAction (ActionId.forTransition sequence) (.finishRun outcome.runOutcome exports)

/-- A force abort that was accepted in the ordinary phase. -/
def forceAbortedOrdinary : Bool :=
  state.forceAbort.any (fun forceAbort => forceAbort.phase = .ordinary)

/-- Enter finalization with the context of the settled ordinary phase. -/
def enterFinalization (outcome : OrdinaryOutcome) : Reduction O C V D :=
  let context := serializeContext outcome.trigger
    (outcome.primaryIssue.map (fun issue => issue.node.id)) outcome.cancellation
    (ordinaryIssues reduction.state)
  let forceAbort := forceAbortedOrdinary reduction.state
  let gate : FinalizationGate D :=
    if forceAbort then .cancelling .forceAbort none true else .open
  let cancellation : Option (FinalizationCancellation D) :=
    if forceAbort then some ⟨.forceAbort, none⟩ else none
  let reduction := (transitionWorkflow reduction
    (.finalizing outcome.trigger gate outcome.primaryIssue)).2
  reduction.mapState (fun state =>
    { state with
      finalization := some ⟨outcome.trigger, context, outcome, cancellation, forceAbort⟩ })

def enterFinalizationOrFinish : Reduction O C V D :=
  if !allSettled reduction.state .step then reduction
  else match ordinaryOutcome reduction.state with
    | none => reduction
    | some outcome =>
      if reduction.state.definition.finalizerIds.isEmpty then finishRun reduction outcome none
      else enterFinalization reduction outcome

def finishFinalizationIfTerminal : Reduction O C V D :=
  match reduction.state.workflow with
  | .finalizing _ _ _ =>
    if !allSettled reduction.state .finalizer then reduction
    else match reduction.state.finalization with
      | none => reduction
      | some finalization =>
        finishRun reduction (composeFinalOutcome reduction.state finalization)
          (some (finalizationSummary reduction.state finalization))
  | _ => reduction

/-- The ordinary phase up to the point where ready steps are selected. -/
def settleOrdinaryPhase : Reduction O C V D :=
  propagateOrdinaryPendingDispositions
    (evaluateReadyConditions (propagateOrdinaryPendingDispositions reduction) .step)

/-- The finalization phase up to the evaluation of conditions. -/
def propagateFinalizationPhase : Reduction O C V D :=
  if forceAbortedOrdinary reduction.state then
    cancelPendingNodes (propagateFinalizerTriggerDispositions reduction) .finalizer .forceAbort
  else propagateFinalizerDispositions reduction

/-- The finalization phase up to the point where ready finalizers are selected. -/
def settleFinalizationPhase : Reduction O C V D :=
  let evaluated := evaluateReadyConditions (propagateFinalizationPhase reduction) .finalizer
  if forceAbortedOrdinary reduction.state then evaluated
  else propagateFinalizerDispositions evaluated

/-- One pass of the outer loop. -/
def stabilizePass : Reduction O C V D :=
  match reduction.state.workflow with
  | .executing _ =>
    enterFinalizationOrFinish (selectReadyNodes (settleOrdinaryPhase reduction) .step)
  | .finalizing _ _ _ =>
    finishFinalizationIfTerminal (selectReadyNodes (settleFinalizationPhase reduction) .finalizer)
  | .succeeded | .failed _ _ | .cancelled _ => reduction

/-- Repeat passes until one commits no transition. -/
def stabilizeLoop : Nat → Reduction O C V D → Reduction O C V D
  | 0, reduction => reduction
  | fuel + 1, reduction =>
    let next := stabilizePass reduction
    if next.state.lastTransitionSequence = reduction.state.lastTransitionSequence then next
    else stabilizeLoop fuel next

def stabilize : Reduction O C V D :=
  stabilizeLoop (reduction.state.definition.steps.size + 4) reduction

/-- The runtime state of a node at the start of a run. -/
def initialStep (seed : ExecutionSeed V) (step : String) (definition : RuntimeStep) :
    StepRuntimeState C V where
  state := match seed.steps.get? step with
    | none => .pending
    | some seed => .inherited seed.detail seed.disposition seed.outputs
  currentAction := none
  targetExecution := none
  targetInvocation := none
  activeInvocation := none
  recovery :=
    if (seed.steps.get? step).isNone then
      definition.recovery.map (fun recovery => ⟨recovery.retries, recovery.handlerKind, [], none⟩)
    else none
  conditionPassed := false

def initialState (definition : RuntimeDefinition) (seed : ExecutionSeed V) :
    RuntimeState C V D where
  definition := definition
  workflow := .executing .open
  steps := definition.steps.mapWithKey (initialStep seed)
  exports := none
  finalizationSummary := none
  finalization := none
  forceAbort := none
  lastCancellationOperation := none
  lastTransitionSequence := 0
  transitionCapacityExceeded := false

/-- The state of a new run before it is stabilized. -/
def initialReduction (definition : RuntimeDefinition) (seed : ExecutionSeed V) :
    Reduction O C V D :=
  ⟨initialState definition seed, [], [], true⟩

def applyInitialCancellation (reduction : Reduction O C V D) :
    Option (InitialCancellation D) → Reduction O C V D
  | none => reduction
  | some (.graceful request operation) => (applyCancellation reduction request operation).2
  | some (.forceAbort operation deadline) => (applyForceAbort reduction operation deadline).2

def initializeSeededDefinition (start : ExecutionStart D) (seed : ExecutionSeed V) :
    Reduction O C V D :=
  stabilize (applyInitialCancellation (initialReduction start.definition seed)
    start.initialCancellation)

def occurrenceResourceRelease : Occurrence O C V D →
      Option (RequestedAction O C V D)
  | .stepExecutionCompleted _ action provisional =>
    if ProvisionalStepResources.requiresRelease provisional then
      some ⟨action, .releaseStepResources provisional⟩
    else none
  | _ => none

def discardOccurrence (current : RuntimeState C V D) (occurrence : Occurrence O C V D) :
    Reduction O C V D :=
  ⟨current, [], (occurrenceResourceRelease occurrence).toList, false⟩

/-- One reduction: commit an occurrence and stabilize. -/
def reduce (current : RuntimeState C V D) (occurrence : Occurrence O C V D) : Reduction O C V D :=
  if current.workflow.isTerminal then discardOccurrence current occurrence
  else
    let applied := applyOccurrence ⟨current, [], [], false⟩ occurrence
    if applied.1 then stabilize { applied.2 with occurrenceAccepted := true }
    else applied.2

end ScherzoCloud.Workflow
