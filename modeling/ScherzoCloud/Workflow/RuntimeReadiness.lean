import ScherzoCloud.Workflow.RuntimeState

/-!
# Queries of the reducer

The read-only functions of `runtime.rs`: which prerequisites of a node are met
or can no longer be met, when a condition can be evaluated and what it evaluates
to, which nodes are ready, and what a node would be started with.
-/

namespace ScherzoCloud.Workflow

open Collections

variable {C V D : Type}

/-- Whether the outputs of a node can be read. -/
def stepDataAvailable : StepState V → Bool
  | .succeeded _ => true
  | .inherited _ .succeeded _ => true
  | _ => false

def stepOutputs : StepState V → Option (OutputSet V)
  | .succeeded outputs => some outputs
  | .inherited _ .succeeded outputs => some outputs
  | _ => none

def terminalDisposition : StepState V → Option TerminalDisposition
  | .succeeded _ => some .succeeded
  | .inherited _ _ _ => some .inherited
  | .failed _ => some .failed
  | .skipped _ => some .skipped
  | .blocked _ => some .blocked
  | .notRun _ => some .notRun
  | .cancelled _ => some .cancelled
  | .pending | .starting | .running | .capturingOutputs | .recovering _ _
  | .cancelling _ => none

variable (state : RuntimeState C V D)

/-- Whether the node exists and its state satisfies `p`. -/
def stepIs (id : String) (p : StepState V → Bool) : Bool :=
  (state.steps.get? id).any (fun runtime => p runtime.state)

variable (step : String)

def stepAccepts (expectedState : StepStateKind) (action : ActionId) : Bool :=
  (state.steps.get? step).any (fun runtime =>
    runtime.state.kind = expectedState && runtime.currentAction = some action)

def handlerAccepts (round : RecoveryRoundNumber)
    (expected : RecoveryHandlerActivity) (action : ActionId) : Bool :=
  (state.steps.get? step).any (fun runtime =>
    runtime.currentAction = some action &&
      runtime.activeInvocation = some (.recoveryHandler round) &&
      match runtime.state with
      | .recovering activeRound handler => activeRound = round && handler = expected
      | _ => false)

def cancellingStep (action : ActionId) : Option (CancellationReason × ActiveStepInvocation) :=
  match state.steps.get? step with
  | none => none
  | some runtime =>
    match runtime.state with
    | .cancelling detail =>
      if runtime.currentAction = some action then
        runtime.activeInvocation.map (fun active => (detail.code, active))
      else none
    | _ => none

def stepDeclaresOutputs : Bool :=
  (state.definition.steps.get? step).any (fun definition => !definition.declaredOutputs.isEmpty)

def outputsMatchDeclaration (outputs : OutputSet V) : Bool :=
  (state.definition.steps.get? step).any (fun definition =>
    outputs.keys = definition.declaredOutputs)

def staleOperation (operation : CancellationOperationId) : Bool :=
  state.lastCancellationOperation.any (fun last => operation ≤ last)

def latestTargetFailure : Option (ProvisionalTargetFailure C) := do
  let runtime ← state.steps.get? step
  let recovery ← runtime.recovery
  let round ← recovery.rounds.getLast?
  some round.failedExecution

def activatedRecoveryExecution : Option TargetExecutionNumber := do
  let runtime ← state.steps.get? step
  let recovery ← runtime.recovery
  if recovery.rounds.isEmpty then none else runtime.targetExecution

/-- The producer named by `outputs.producer.output`. -/
def outputReferenceProducer (reference : String) : Option String :=
  match reference.toList.splitOn '.' with
  | [outputs, producer, _] =>
    if outputs = "outputs".toList then some (String.ofList producer) else none
  | _ => none

/-- A control dependency is met by success, by a skip, by inheritance, and for
an advisory producer also by failure or blocking. -/
def ordinaryControlSatisfied (prerequisite : ResolvedDirectPrerequisite) : Bool :=
  match state.steps.get? prerequisite.producer with
  | none => false
  | some producer =>
    match producer.state with
    | .succeeded _ | .skipped _ | .inherited _ _ _ => true
    | .failed _ | .blocked _ =>
      (state.definition.steps.get? prerequisite.producer).any (fun definition =>
        definition.failurePolicy = .advisory)
    | _ => false

def ordinaryPrerequisiteSatisfied (prerequisite : ResolvedDirectPrerequisite) : Bool :=
  match state.steps.get? prerequisite.producer with
  | none => false
  | some producer =>
    (!prerequisite.control || ordinaryControlSatisfied state prerequisite) &&
      (!prerequisite.data || stepDataAvailable producer.state) &&
      (!prerequisite.dispositionControl || producer.state.isTerminal)

variable (definition : RuntimeStep)

/-- The evidence descriptors of one kind that name a producer. -/
def producerDescriptors (kind : PrerequisiteKind) (producer : String) : List Prerequisite :=
  definition.evidencePrerequisites.filter (fun descriptor =>
    descriptor.kind = kind && outputReferenceProducer descriptor.target = some producer)

/-- What one settled producer contributes to the blockers of a condition. -/
def conditionPrerequisiteBlockers (prerequisite : ResolvedDirectPrerequisite) : List Prerequisite :=
  match state.steps.get? prerequisite.producer with
  | none => []
  | some producer =>
    if !producer.state.isTerminal then []
    else
      (if definition.role = .step && prerequisite.control &&
          !ordinaryControlSatisfied state prerequisite then
        (Prerequisite.mkControl prerequisite.producer).toOption.toList
      else []) ++
      (if prerequisite.conditionData && !stepDataAvailable producer.state then
        producerDescriptors definition .condition prerequisite.producer
      else [])

/-- A settled node without readable outputs. -/
def settledWithoutData (id : String) : Bool :=
  stepIs state id (fun step => step.isTerminal && !stepDataAvailable step)

/-- What one value contributes to the blockers of a condition. -/
def conditionSourceBlockers : ResolvedValueSource → List Prerequisite
  | .output source =>
    if settledWithoutData state source.node.id then
      (Prerequisite.mkCondition source.reference).toOption.toList
    else []
  | .input _ | .finalizationContext => []

/-- Prerequisites of a condition that can no longer be met. -/
def conditionBlockers : List Prerequisite :=
  Prerequisite.sortDedup
    (definition.prerequisites.flatMap (conditionPrerequisiteBlockers state definition) ++
      definition.conditionValues.values.flatMap (conditionSourceBlockers state))

/-- What one settled producer contributes to the blockers of a body. -/
def bodyPrerequisiteBlockers (prerequisite : ResolvedDirectPrerequisite) : List Prerequisite :=
  match state.steps.get? prerequisite.producer with
  | none => []
  | some producer =>
    if !producer.state.isTerminal then []
    else
      (if prerequisite.control && !ordinaryControlSatisfied state prerequisite then
        (Prerequisite.mkControl prerequisite.producer).toOption.toList
      else []) ++
      (if prerequisite.data && !stepDataAvailable producer.state then
        producerDescriptors definition .body prerequisite.producer
      else [])

/-- While the condition is open only its own prerequisites block a step; the
prerequisites of the body are looked at afterwards. -/
def ordinaryUnsatisfiedPrerequisites (id : String) (definition : RuntimeStep) : List Prerequisite :=
  let conditionPending := definition.condition.isSome &&
    (state.steps.get? id).any (fun runtime => !runtime.conditionPassed)
  if conditionPending then conditionBlockers state definition
  else definition.prerequisites.flatMap (bodyPrerequisiteBlockers state definition)

inductive PendingDisposition where
  | blocked (detail : BlockedDetail)
  | notRun
  deriving DecidableEq

def failureStopped : Bool :=
  match state.workflow with
  | .executing (.failureStopped _) => true
  | _ => false

/-- How a pending step settles without being started. -/
def ordinaryPendingDisposition (stepId : String) : Option (String × PendingDisposition) := do
  let definition ← state.definition.steps.get? stepId
  let runtime ← state.steps.get? stepId
  if !runtime.state.isPending then none
  else
    let blockers := ordinaryUnsatisfiedPrerequisites state stepId definition
    if !blockers.isEmpty then
      (BlockedDetail.new blockers).toOption.map (fun detail => (stepId, .blocked detail))
    else if failureStopped state &&
        definition.prerequisites.all (ordinaryPrerequisiteSatisfied state) then
      some (stepId, .notRun)
    else none

def nextOrdinaryPendingDisposition : Option (String × PendingDisposition) :=
  state.definition.ordinaryIds.findSome? (ordinaryPendingDisposition state)

/-- The body references of a node whose producers have no readable outputs. -/
def unavailableReferences : List String :=
  definition.evidencePrerequisites.filterMap (fun descriptor =>
    match descriptor with
    | .body ref =>
      if (outputReferenceProducer ref).any (fun producer =>
          !stepIs state producer stepDataAvailable) then some ref
      else none
    | .control _ | .condition _ => none)

def ordinaryReady (stepId : String) (definition : RuntimeStep) : Bool :=
  stepIs state stepId StepState.isPending &&
    definition.prerequisites.all (ordinaryPrerequisiteSatisfied state)

def finalizerReady (id : String) (definition : RuntimeStep) : Bool :=
  match state.finalization with
  | none => false
  | some finalization =>
    stepIs state id StepState.isPending &&
      decide (finalization.trigger ∈ definition.when) &&
      definition.prerequisites.all (fun prerequisite =>
        stepIs state prerequisite.producer StepState.isTerminal)

/-- A ready finalizer whose body refers to outputs that are not there. -/
def finalizerInputUnavailable (id : String) : Option (String × List String) := do
  let definition ← state.definition.steps.get? id
  let runtime ← state.steps.get? id
  if !finalizerReady state id definition
      || (definition.condition.isSome && !runtime.conditionPassed) then none
  else
    let references := unavailableReferences state definition
    if references.isEmpty then none else some (id, references)

def nextInputUnavailable : Option (String × List String) :=
  state.definition.finalizerIds.findSome? (finalizerInputUnavailable state)

/-- What a node is started with. -/
def resolvedActionInput : ResolvedValueSource → ActionInput V
  | .input _ => .workflowInput
  | .finalizationContext =>
    match state.finalization with
    | some finalization => .finalizationContext finalization.context
    | none => .unavailable
  | .output source =>
    match ((state.steps.get? source.node.id).bind (fun producer =>
        stepOutputs producer.state)).bind (fun outputs => outputs.get? source.output) with
    | some value => .output value
    | none => .unavailable

def resolvedActionInputs (definition : RuntimeStep) : BTreeMap String (ActionInput V) :=
  definition.inputs.mapWithKey (fun _ source => resolvedActionInput state source)

def idsOf (definition : RuntimeDefinition) : WorkflowNodeRole → List String
  | .step => definition.ordinaryIds
  | .finalizer => definition.finalizerIds

/-- Whether a phase still starts nodes of a role. -/
def phaseGateOpen : WorkflowNodeRole → Bool
  | .step => match state.workflow with
      | .executing .open => true
      | _ => false
  | .finalizer => match state.workflow with
      | .finalizing _ .open _ => true
      | _ => false

/-- Whether a node can be started now. -/
def nodeReady (role : WorkflowNodeRole) (id : String) (definition : RuntimeStep) : Bool :=
  match role with
  | .step => ordinaryReady state id definition
  | .finalizer =>
    finalizerReady state id definition && (unavailableReferences state definition).isEmpty

def activeCount : Nat :=
  (state.steps.values.filter (fun step => step.state.isActive)).length

def availableSlots : Nat := state.definition.maximumParallelSteps - activeCount state

/-- The ready nodes of a role that fit in the free slots, with their inputs. -/
def selectedNodes (role : WorkflowNodeRole) : List (String × BTreeMap String (ActionInput V)) :=
  ((idsOf state.definition role).filterMap (fun id =>
    match state.definition.steps.get? id with
    | none => none
    | some definition =>
      if nodeReady state role id definition then
        some (id, resolvedActionInputs state definition)
      else none)).take (availableSlots state)

variable (definition : RuntimeStep)

def conditionPhaseGateOpen : Bool :=
  match state.workflow, definition.role with
  | .executing .open, .step => true
  | .finalizing trigger .open _, .finalizer => decide (trigger ∈ definition.when)
  | _, _ => false

def conditionSourceAvailable : ResolvedValueSource → Bool
  | .input name =>
    state.definition.textInputs.contains name || state.definition.jsonInputs.contains name
  | .finalizationContext => state.finalization.isSome
  | .output source => stepIs state source.node.id stepDataAvailable

def conditionSourcesAvailable : Bool :=
  definition.conditionValues.values.all (conditionSourceAvailable state)

def conditionPrerequisiteReady (prerequisite : ResolvedDirectPrerequisite) : Bool :=
  match state.steps.get? prerequisite.producer with
  | none => false
  | some producer =>
    match definition.role with
    | .step =>
      (!prerequisite.control || ordinaryControlSatisfied state prerequisite) &&
        (!prerequisite.dispositionControl || producer.state.isTerminal) &&
        (!prerequisite.conditionData || stepDataAvailable producer.state)
    | .finalizer =>
      (!(prerequisite.control || prerequisite.dispositionControl) ||
          producer.state.isTerminal) &&
        (!prerequisite.conditionData || stepDataAvailable producer.state)

/-- Whether the condition of a pending node can be evaluated now. -/
def conditionGateReady (id : String) : Bool :=
  match state.definition.steps.get? id, state.steps.get? id with
  | some definition, some runtime =>
    if definition.condition.isNone || runtime.conditionPassed || !runtime.state.isPending
        || !conditionPhaseGateOpen state definition
        || !(conditionBlockers state definition).isEmpty then false
    else
      definition.prerequisites.all (conditionPrerequisiteReady state definition) &&
        conditionSourcesAvailable state definition
  | _, _ => false

/-- A finalizer whose condition can no longer be evaluated. -/
def finalizerConditionBlock (id : String) : Option (String × BlockedDetail) := do
  let definition ← state.definition.steps.get? id
  let runtime ← state.steps.get? id
  if definition.condition.isNone || runtime.conditionPassed || !runtime.state.isPending
      || !conditionPhaseGateOpen state definition then none
  else
    (BlockedDetail.new (conditionBlockers state definition)).toOption.map
      (fun detail => (id, detail))

def nextFinalizerConditionBlock : Option (String × BlockedDetail) :=
  state.definition.finalizerIds.findSome? (finalizerConditionBlock state)

variable [ConditionOutput V]

/-- The value of a condition source, if it is there in a readable form. -/
def capturedConditionValue : ResolvedValueSource → Option CapturedConditionValue
  | .input name =>
    match state.definition.textInputs.get? name with
    | some text => some (.text text)
    | none => (state.definition.jsonInputs.get? name).map .json
  | .finalizationContext =>
    state.finalization.map (fun finalization => .json finalization.context.toJson)
  | .output source =>
    match ((state.steps.get? source.node.id).bind (fun runtime =>
        stepOutputs runtime.state)).bind (fun outputs => outputs.get? source.output) with
    | none => none
    | some output =>
      match ConditionOutput.conditionText output with
      | some text => some (.text text)
      | none => (ConditionOutput.conditionJson output).map .json

def conditionValuesOf (definition : RuntimeStep) : ConditionValues :=
  definition.conditionValues.filterMap (fun _ source => capturedConditionValue state source)

/-- The dispositions of the settled nodes, under the role each node has. -/
def conditionDispositions : ConditionDispositions := fun node =>
  match state.steps.get? node.id with
  | none => none
  | some runtime =>
    let role := ((state.definition.steps.get? node.id).map RuntimeStep.role).getD .step
    if role = node.role then terminalDisposition runtime.state else none

def evaluateCondition (definition : RuntimeStep) (predicate : ResolvedPredicate) :
    ConditionEvaluation :=
  evaluate (conditionValuesOf state definition) (conditionDispositions state) predicate

/-- All nodes of a role have settled. -/
def allSettled (role : WorkflowNodeRole) : Bool :=
  (idsOf state.definition role).all (fun id => stepIs state id StepState.isTerminal)

def ordinaryOutcome : Option OrdinaryOutcome :=
  match state.workflow with
  | .executing .open => some .succeeded
  | .executing (.failureStopped primaryIssue) => some (.failed primaryIssue none)
  | .executing (.cancelling reason (some primaryIssue)) =>
    some (.failed primaryIssue (some reason))
  | .executing (.cancelling reason none) => some (.cancelled reason)
  | .finalizing _ _ _ | .succeeded | .failed _ _ | .cancelled _ => none

def ordinaryIssues : List OrdinaryIssue :=
  state.definition.ordinaryIds.filterMap (fun id => do
    let runtime ← state.steps.get? id
    let disposition ← match runtime.state with
      | .failed _ => some OrdinaryIssueDisposition.failed
      | .blocked _ => some OrdinaryIssueDisposition.blocked
      | _ => none
    let definition ← state.definition.steps.get? id
    some ⟨id, definition.failurePolicy, disposition⟩)

/-- A settled state without its outputs. -/
def eraseOutputs : StepState V → Option (StepState Unit)
  | .succeeded _ => some (.succeeded .empty)
  | .failed detail => some (.failed detail)
  | .blocked detail => some (.blocked detail)
  | .skipped detail => some (.skipped detail)
  | .notRun detail => some (.notRun detail)
  | .cancelled detail => some (.cancelled detail)
  | .inherited _ _ _ | .pending | .starting | .running | .capturingOutputs
  | .recovering _ _ | .cancelling _ => none

def finalizationSummary (finalization : FinalizationRuntime D) : FinalizationSummary D where
  trigger := finalization.trigger
  finalizers := state.definition.finalizerPresentationOrder.filterMap (fun id => do
    let runtime ← state.steps.get? id
    let disposition ← eraseOutputs runtime.state
    let definition ← state.definition.steps.get? id
    some ⟨id, definition.failurePolicy, disposition⟩)
  cancellation := finalization.cancellation
  forceAbort := finalization.forceAbort

def composeFinalOutcome (finalization : FinalizationRuntime D) : OrdinaryOutcome :=
  let cancellation := finalization.cancellation.map FinalizationCancellation.reason
  match finalization.ordinaryOutcome with
  | .failed primaryIssue laterCancellation =>
    .failed primaryIssue (laterCancellation.or cancellation)
  | .cancelled reason => .cancelled reason
  | .succeeded =>
    match state.workflow with
    | .finalizing _ _ (some primaryIssue) => .failed primaryIssue cancellation
    | .finalizing _ (.cancelling reason _ _) none => .cancelled reason
    | _ => .succeeded

/-- What an export is worth in a settled state of its source; `none` when the
source has not settled or lacks the output. -/
def exportValue (output : String) : StepState V → Option (ExportValue V)
  | .succeeded outputs => (outputs.get? output).map .available
  | .inherited _ .succeeded outputs => (outputs.get? output).map .available
  | .inherited _ .skipped _ => some (.unavailable .skipped)
  | .failed _ => some (.unavailable .failed)
  | .blocked _ => some (.unavailable .blocked)
  | .skipped _ => some (.unavailable .skipped)
  | .notRun ⟨.finalizerTriggerNotSelected⟩ => some (.unavailable .triggerNotSelected)
  | .notRun _ => some (.unavailable .notRun)
  | .cancelled _ => some (.unavailable .cancelled)
  | .pending | .starting | .running | .capturingOutputs | .recovering _ _
  | .cancelling _ => none

def deriveExport (source : RuntimeExport) : Option (ExportValue V) :=
  (state.steps.get? source.step).bind (fun step => exportValue source.output step.state)

/-- All exports, or `none` when one of them cannot be derived. -/
def deriveExports : Option (ExportSet V) :=
  if state.definition.exports.values.all (fun source => (deriveExport state source).isSome) then
    some (state.definition.exports.filterMap (fun _ source => deriveExport state source))
  else none

end ScherzoCloud.Workflow
