import ScherzoCloud.Workflow.Validation

/-!
# The state of a run

The data of the workflow reducer (`runtime.rs` up to `initialize`): identities,
node states, gates, the immutable runtime definition, occurrences reported by
the driver, actions requested from it and transition events.

The reducer is generic in what the driver hands over: provisional resources
of a finished execution (`O`), failure causes (`C`), captured output values
(`V`) and deadlines (`D`).  Machine integers are
natural numbers; the places where the source saturates, checks or masks are
explicit.

Provenance of inherited outputs (`OutputProducer`) is left out: the reducer
stores it and never reads it.
-/

namespace ScherzoCloud.Workflow

open Collections

/-- How a condition reads a captured value. -/
class ConditionOutput (V : Type) where
  conditionText : V → Option String
  conditionJson : V → Option Json

/-- Whether the resources of a finished execution have to be released. -/
class ProvisionalStepResources (O : Type) where
  requiresRelease : O → Bool

/-- Number of the last committed transition, a `u64`. -/
abbrev TransitionSequence := Nat

/-- The next sequence number; `u64` addition saturates. -/
def TransitionSequence.next (sequence : TransitionSequence) : TransitionSequence :=
  min (sequence + 1) (2 ^ 64 - 1)

abbrev CancellationOperationId := Nat

/-- Identity of a requested action. -/
structure ActionId where
  transitionSequence : TransitionSequence
  deriving DecidableEq

namespace ActionId

def forTransition (sequence : TransitionSequence) : ActionId := ⟨sequence⟩

/-- Force-abort identities: bit 63, the operation in bits 32 to 62, an index below. -/
def forForceAbort (operation : CancellationOperationId) (index : Nat) : ActionId :=
  ⟨(1 <<< 63) ||| ((operation &&& 0x7fffffff) <<< 32) ||| (index &&& 0xffffffff)⟩

def isForceAbort (self : ActionId) : Bool := self.transitionSequence &&& (1 <<< 63) ≠ 0

end ActionId

/-- Ordinal of a target execution, a `u8`. -/
abbrev TargetExecutionNumber := Nat

/-- The next ordinal, unless it leaves the range of `u8`. -/
def TargetExecutionNumber.next (number : TargetExecutionNumber) : Option TargetExecutionNumber :=
  if number < 255 then some (number + 1) else none

/-- Ordinal of a recovery round, a `u8`. -/
abbrev RecoveryRoundNumber := Nat

inductive RecoveryHandlerKind where
  | command
  | agent
  deriving DecidableEq

def RecoveryHandlerKind.fromValidated : ValidatedRecoveryHandler → RecoveryHandlerKind
  | .command _ _ => .command
  | .agent _ _ _ _ => .agent

inductive RecoveryHandlerActivity where
  | starting
  | running
  deriving DecidableEq

inductive ActiveStepInvocation where
  | target (executionNumber : TargetExecutionNumber)
  | recoveryHandler (round : RecoveryRoundNumber)
  deriving DecidableEq

structure ProvisionalTargetFailure (C : Type) where
  executionNumber : TargetExecutionNumber
  invocation : ActionId
  phase : FailurePhase
  detail : FailureDetail
  cause : C
  deriving DecidableEq

inductive RecoveryDecisionKind where
  | recheck
  | gaveUp
  deriving DecidableEq

structure RecoveryDecision where
  kind : RecoveryDecisionKind
  summary : String
  reason : String
  deriving DecidableEq

inductive RecoveryHandlerFailurePhase where
  | start
  | execution
  deriving DecidableEq

inductive RecoveryHandlerOutcome (C : Type) where
  | starting
  | running
  | recheck (summary reason : String)
  | gaveUp (summary reason : String)
  | failed (phase : RecoveryHandlerFailurePhase) (cause : C)
  | cancelled
  deriving DecidableEq

structure RecoveryHandlerRecord (C : Type) where
  kind : RecoveryHandlerKind
  invocation : ActionId
  outcome : RecoveryHandlerOutcome C
  deriving DecidableEq

structure RecoveryRoundRecord (C : Type) where
  number : RecoveryRoundNumber
  failedExecution : ProvisionalTargetFailure C
  handler : Option (RecoveryHandlerRecord C)
  deriving DecidableEq

inductive RecoveryTerminalDisposition where
  | recovered (executionNumber : TargetExecutionNumber)
  | exhausted (executionNumber : TargetExecutionNumber)
  | gaveUp (round : RecoveryRoundNumber)
  | handlerFailed (round : RecoveryRoundNumber) (phase : RecoveryHandlerFailurePhase)
  | cancelled (round : RecoveryRoundNumber) (active : ActiveStepInvocation)
  deriving DecidableEq

structure StepRecoveryState (C : Type) where
  configuredRounds : Nat
  handlerKind : Option RecoveryHandlerKind
  rounds : List (RecoveryRoundRecord C)
  terminalDisposition : Option RecoveryTerminalDisposition
  deriving DecidableEq

/-- Whether the ordinary phase still starts work. -/
inductive SchedulingGate where
  | open
  | failureStopped (primaryIssue : PrimaryIssue)
  | cancelling (reason : CancellationReason) (priorIssue : Option PrimaryIssue)
  deriving DecidableEq

/-- Whether the finalization phase still starts work. -/
inductive FinalizationGate (D : Type) where
  | open
  | cancelling (reason : CancellationReason) (deadline : Option D) (forceAbort : Bool)
  deriving DecidableEq

inductive WorkflowState (D : Type) where
  | executing (gate : SchedulingGate)
  | finalizing (trigger : FinalizationTrigger) (gate : FinalizationGate D)
      (primaryIssue : Option PrimaryIssue)
  | succeeded
  | failed (primaryIssue : PrimaryIssue) (laterCancellation : Option CancellationReason)
  | cancelled (reason : CancellationReason)
  deriving DecidableEq

/-- A finished run. -/
def WorkflowState.isTerminal {D : Type} : WorkflowState D → Bool
  | .succeeded | .failed _ _ | .cancelled _ => true
  | .executing _ | .finalizing _ _ _ => false

abbrev OutputSet (V : Type) := BTreeMap String V

inductive InheritedDisposition where
  | succeeded
  | skipped
  deriving DecidableEq

structure InheritedStepSeed (V : Type) where
  detail : InheritedDetail
  disposition : InheritedDisposition
  outputs : OutputSet V

/-- Results inherited from an earlier attempt. -/
structure ExecutionSeed (V : Type) where
  steps : BTreeMap String (InheritedStepSeed V)

def ExecutionSeed.empty {V : Type} : ExecutionSeed V := ⟨.empty⟩

inductive StepState (V : Type) where
  | pending
  | starting
  | running
  | capturingOutputs
  | recovering (round : RecoveryRoundNumber) (handler : RecoveryHandlerActivity)
  | cancelling (detail : CancellationDetail)
  | succeeded (outputs : OutputSet V)
  | inherited (detail : InheritedDetail) (disposition : InheritedDisposition)
      (outputs : OutputSet V)
  | failed (detail : FailureDetail)
  | blocked (detail : BlockedDetail)
  | skipped (detail : ConditionFalseDetail)
  | notRun (detail : NonExecutionDetail)
  | cancelled (detail : CancellationDetail)
  deriving DecidableEq

inductive StepStateKind where
  | pending
  | starting
  | running
  | capturingOutputs
  | recovering
  | cancelling
  | succeeded
  | inherited
  | failed
  | blocked
  | skipped
  | notRun
  | cancelled
  deriving DecidableEq

namespace StepState

variable {V : Type}

def kind : StepState V → StepStateKind
  | pending => .pending
  | starting => .starting
  | running => .running
  | capturingOutputs => .capturingOutputs
  | recovering _ _ => .recovering
  | cancelling _ => .cancelling
  | succeeded _ => .succeeded
  | inherited _ _ _ => .inherited
  | failed _ => .failed
  | blocked _ => .blocked
  | skipped _ => .skipped
  | notRun _ => .notRun
  | cancelled _ => .cancelled

def isPending : StepState V → Bool
  | pending => true
  | _ => false

def isActive : StepState V → Bool
  | starting | running | capturingOutputs | recovering _ _ | cancelling _ => true
  | _ => false

def isTerminal : StepState V → Bool
  | succeeded _ | inherited _ _ _ | failed _ | blocked _ | skipped _ | notRun _
  | cancelled _ => true
  | _ => false

end StepState

structure StepRuntimeState (C V : Type) where
  state : StepState V
  currentAction : Option ActionId
  targetExecution : Option TargetExecutionNumber
  targetInvocation : Option ActionId
  activeInvocation : Option ActiveStepInvocation
  recovery : Option (StepRecoveryState C)
  conditionPassed : Bool
  deriving DecidableEq

structure RuntimeRecovery where
  retries : Nat
  handlerKind : Option RecoveryHandlerKind
  deriving DecidableEq

/-- What the reducer knows about a node.  `is_agent` is left out: the reducer
never reads it. -/
structure RuntimeStep where
  role : WorkflowNodeRole
  failurePolicy : FailurePolicy
  condition : Option ResolvedPredicate
  conditionValues : BTreeMap String ResolvedValueSource
  prerequisites : List ResolvedDirectPrerequisite
  evidencePrerequisites : List Prerequisite
  inputs : BTreeMap String ResolvedValueSource
  declaredOutputs : List String
  recovery : Option RuntimeRecovery
  when : Finset FinalizationTrigger

structure RuntimeExport where
  step : String
  output : String
  deriving DecidableEq

structure RuntimeDefinition where
  steps : BTreeMap String RuntimeStep
  ordinaryIds : List String
  finalizerIds : List String
  finalizerPresentationOrder : List String
  exports : BTreeMap String RuntimeExport
  maximumParallelSteps : Nat
  maximumTransitions : Nat
  textInputs : BTreeMap String String
  jsonInputs : BTreeMap String Json

/-- An input value as the run was admitted with it. -/
inductive ResolvedInput where
  | text (value : String)
  | json (value : Json)
  | file
  | attachments

/-- The values a body binds, by the name the driver knows them under. -/
def runtimeInputs : ValidatedStep → BTreeMap String ResolvedValueSource
  | .command command => command.inputs.mapWithKey (fun _ reference => reference.source)
  | .agent agent =>
    .ofList
      ((agent.agent.message.text ++ agent.agent.message.attachments).filterMap (fun source =>
        match source with
        | .reference (.output output) _ => some (output.reference, .output output)
        | .reference .finalizationContext _ =>
          some ("finalization.context", .finalizationContext)
        | .reference (.input _) _ | .file _ => none))

def runtimeStep (role : WorkflowNodeRole) (step : ValidatedStep)
    (recovery : Option ValidatedStepRecovery) (when : Finset FinalizationTrigger) :
    RuntimeStep where
  role := role
  failurePolicy := (commonStep step).failurePolicy
  condition := (commonStep step).condition
  conditionValues := (commonStep step).conditionValues
  prerequisites := (commonStep step).prerequisites
  evidencePrerequisites := (commonStep step).evidencePrerequisites
  inputs := runtimeInputs step
  declaredOutputs := (commonStep step).outputs.keys
  recovery := recovery.map (fun recovery =>
    ⟨recovery.retries, recovery.handler.map RecoveryHandlerKind.fromValidated⟩)
  when := when

def runtimeFinalizer (finalizer : ValidatedFinalizer) : RuntimeStep :=
  runtimeStep .finalizer finalizer.body none finalizer.when

namespace RuntimeDefinition

variable (workflow : ValidatedWorkflow)

/-- The nodes of both phases in one map. -/
def nodes : BTreeMap String RuntimeStep :=
  .ofList
    (workflow.steps.entries.map (fun e =>
        (e.1, runtimeStep .step e.2 ((workflow.recoveries.get? e.1).getD none) ∅)) ++
      workflow.finalizers.entries.map (fun e => (e.1, runtimeFinalizer e.2)))

def fromWorkflow (maximumParallelSteps : Nat) (maximumTransitions : Nat) : RuntimeDefinition where
  steps := nodes workflow
  ordinaryIds := workflow.steps.keys
  finalizerIds := workflow.finalizers.keys
  finalizerPresentationOrder := workflow.finalizerPresentationOrder
  exports := workflow.exports.mapWithKey (fun _ source => ⟨source.node.id, source.output⟩)
  maximumParallelSteps := maximumParallelSteps
  maximumTransitions := maximumTransitions
  textInputs := .empty
  jsonInputs := .empty

/-- `from_admitted`: the definition of a workflow with its admitted inputs. -/
def fromAdmitted (inputs : BTreeMap String ResolvedInput)
    (maximumParallelSteps : Nat) (maximumTransitions : Nat) : RuntimeDefinition :=
  { fromWorkflow workflow maximumParallelSteps maximumTransitions with
    textInputs := inputs.filterMap (fun _ input =>
      match input with
      | .text value => some value
      | _ => none)
    jsonInputs := inputs.filterMap (fun _ input =>
      match input with
      | .json value => some value
      | _ => none) }

end RuntimeDefinition

inductive OrdinaryIssueDisposition where
  | failed
  | blocked
  deriving DecidableEq

def OrdinaryIssueDisposition.asStr : OrdinaryIssueDisposition → String
  | failed => "failed"
  | blocked => "blocked"

structure OrdinaryIssue where
  stepId : String
  failurePolicy : FailurePolicy
  disposition : OrdinaryIssueDisposition
  deriving DecidableEq

/-- The finalization context.  The source keeps its serialized bytes, which this
record determines. -/
structure SerializedContext where
  trigger : FinalizationTrigger
  primaryIssueStepId : Option String
  cancellationReason : Option CancellationReason
  ordinaryIssues : List OrdinaryIssue
  deriving DecidableEq

def FailurePolicy.asStr : FailurePolicy → String
  | required => "required"
  | advisory => "advisory"

/-- The JSON value that the serialized bytes parse to. -/
def SerializedContext.toJson (context : SerializedContext) : Json :=
  .object [
    ("cancellationReason",
      (context.cancellationReason.map (fun reason => Json.string reason.asStr)).getD .null),
    ("ordinaryIssues", .array (context.ordinaryIssues.map (fun issue =>
      .object [
        ("disposition", .string issue.disposition.asStr),
        ("failurePolicy", .string issue.failurePolicy.asStr),
        ("stepId", .string issue.stepId)]))),
    ("primaryIssueStepId", (context.primaryIssueStepId.map Json.string).getD .null),
    ("schemaVersion", .number "1"),
    ("trigger", .string context.trigger.asStr)]

/-- `finalization_context::serialize`: issues are listed by step id. -/
def serializeContext (trigger : FinalizationTrigger) (primaryIssueStepId : Option String)
    (cancellationReason : Option CancellationReason) (ordinaryIssues : List OrdinaryIssue) :
    SerializedContext where
  trigger := trigger
  primaryIssueStepId := primaryIssueStepId
  cancellationReason := cancellationReason
  ordinaryIssues := ordinaryIssues.insertionSort (fun a b => a.stepId ≤ b.stepId)

inductive ExportUnavailableReason where
  | failed
  | blocked
  | skipped
  | notRun
  | triggerNotSelected
  | cancelled
  deriving DecidableEq

inductive ExportValue (V : Type) where
  | available (output : V)
  | unavailable (reason : ExportUnavailableReason)
  deriving DecidableEq

abbrev ExportSet (V : Type) := BTreeMap String (ExportValue V)

inductive OrdinaryOutcome where
  | succeeded
  | failed (primaryIssue : PrimaryIssue) (laterCancellation : Option CancellationReason)
  | cancelled (reason : CancellationReason)
  deriving DecidableEq

inductive RunOutcome where
  | succeeded
  | failed (primaryIssue : PrimaryIssue) (laterCancellation : Option CancellationReason)
  | cancelled (reason : CancellationReason)
  deriving DecidableEq

inductive RunCancellationPhase where
  | ordinary
  | finalization
  deriving DecidableEq

structure ForceAbortEvidence where
  reason : CancellationReason
  phase : RunCancellationPhase
  deriving DecidableEq

structure FinalizationCancellation (D : Type) where
  reason : CancellationReason
  deadline : Option D
  deriving DecidableEq

structure FinalizerResult where
  finalizer : String
  failurePolicy : FailurePolicy
  disposition : StepState Unit
  deriving DecidableEq

structure FinalizationSummary (D : Type) where
  trigger : FinalizationTrigger
  finalizers : List FinalizerResult
  cancellation : Option (FinalizationCancellation D)
  forceAbort : Bool
  deriving DecidableEq

structure FinalizationRuntime (D : Type) where
  trigger : FinalizationTrigger
  context : SerializedContext
  ordinaryOutcome : OrdinaryOutcome
  cancellation : Option (FinalizationCancellation D)
  forceAbort : Bool
  deriving DecidableEq

structure RuntimeState (C V D : Type) where
  definition : RuntimeDefinition
  workflow : WorkflowState D
  steps : BTreeMap String (StepRuntimeState C V)
  exports : Option (ExportSet V)
  finalizationSummary : Option (FinalizationSummary D)
  finalization : Option (FinalizationRuntime D)
  forceAbort : Option ForceAbortEvidence
  lastCancellationOperation : Option CancellationOperationId
  lastTransitionSequence : TransitionSequence
  transitionCapacityExceeded : Bool

structure CancellationRequest (D : Type) where
  reason : CancellationReason
  deadline : D

/-- What the driver and the cancellation source report to the reducer. -/
inductive Occurrence (O C V D : Type) where
  | stepStarted (step : String) (action : ActionId)
  | stepStartFailed (step : String) (action : ActionId) (cause : C)
  | stepExecutionCompleted (step : String) (action : ActionId) (provisional : O)
  | stepExecutionFailed (step : String) (action : ActionId) (cause : C)
  | outputsCaptured (step : String) (action : ActionId) (outputs : OutputSet V)
  | outputCaptureFailed (step : String) (action : ActionId) (cause : C)
  | recoveryHandlerStarted (step : String) (round : RecoveryRoundNumber) (action : ActionId)
  | recoveryHandlerStartFailed (step : String) (round : RecoveryRoundNumber)
      (action : ActionId) (cause : C)
  | recoveryHandlerCompleted (step : String) (round : RecoveryRoundNumber)
      (action : ActionId) (decision : RecoveryDecision)
  | recoveryHandlerExecutionFailed (step : String) (round : RecoveryRoundNumber)
      (action : ActionId) (cause : C)
  | cancellationOperationRequested (operation : CancellationOperationId)
      (reason : CancellationReason) (deadline : D)
  | ordinaryCancellationOperationRequested (operation : CancellationOperationId)
      (reason : CancellationReason) (deadline : D)
  | forceAbortRequested (operation : CancellationOperationId) (deadline : D)
  | stepQuiesced (step : String) (action : ActionId)

inductive ActionInput (V : Type) where
  | workflowInput
  | output (value : V)
  | finalizationContext (context : SerializedContext)
  | unavailable
  deriving DecidableEq

/-- What the reducer asks the driver to do. -/
inductive Action (O C V D : Type) where
  | startStep (step : String) (executionNumber : TargetExecutionNumber)
      (inputs : BTreeMap String (ActionInput V))
  | startRecoveryHandler (step : String) (round : RecoveryRoundNumber)
      (kind : RecoveryHandlerKind) (history : List (RecoveryRoundRecord C))
  | captureOutputs (step : String) (provisional : O)
  | releaseStepResources (provisional : O)
  | cancelStep (step : String) (active : ActiveStepInvocation) (reason : CancellationReason)
      (deadline : D)
  | forceAbortStep (step : String) (active : ActiveStepInvocation)
      (reason : CancellationReason) (deadline : D)
  | finishRun (outcome : RunOutcome) (exports : ExportSet V)
  deriving DecidableEq

structure RequestedAction (O C V D : Type) where
  id : ActionId
  action : Action O C V D
  deriving DecidableEq

inductive TransitionEvent (D : Type) where
  | step (sequence : TransitionSequence) (step : String) (role : WorkflowNodeRole)
      (failurePolicy : FailurePolicy) (source target : StepStateKind)
  | workflow (sequence : TransitionSequence) (source target : WorkflowState D)
  | cancellationAccepted (sequence : TransitionSequence) (reason : CancellationReason)
      (deadline : D)
  | finalizationCancellationAccepted (sequence : TransitionSequence)
      (reason : CancellationReason) (deadline : D)
  | forceAbortAccepted (sequence : TransitionSequence) (reason : CancellationReason)
      (phase : RunCancellationPhase)
  deriving DecidableEq

/-- A state with what was committed and requested on the way to it. -/
structure Reduction (O C V D : Type) where
  state : RuntimeState C V D
  events : List (TransitionEvent D)
  actions : List (RequestedAction O C V D)
  occurrenceAccepted : Bool

/-- A cancellation that was requested before the run started. -/
inductive InitialCancellation (D : Type) where
  | graceful (request : CancellationRequest D)
      (operation : Option CancellationOperationId)
  | forceAbort (operation : CancellationOperationId) (deadline : D)

structure ExecutionStart (D : Type) where
  definition : RuntimeDefinition
  initialCancellation : Option (InitialCancellation D)

end ScherzoCloud.Workflow
