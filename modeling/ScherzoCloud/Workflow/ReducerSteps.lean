import ScherzoCloud.Collections.LabelledRun
import ScherzoCloud.Workflow.RuntimeReducer

/-!
# What the reducer can do in one step

An abstract account of the reducer: a transition system on runtime states whose
steps emit the events they commit and the actions they request.  A step moves
one node, settles one node with an issue, accepts a cancellation, enters
finalization or finishes the run, and its constructor records the guard under
which the reducer takes it.  Every function of the reducer is a run of such
steps (`applyOccurrence_reaches`, `stabilize_reaches`), so a property of all
runs is proved by cases on one step.

**Granularity.**  A committed issue and the gate that it closes are one step,
and so are an acceptance event and the cancellation of all nodes of its phase:
between the two the gates do not yet say what the nodes do.
-/

namespace ScherzoCloud.Workflow

open TargetExecutionNumber (next)
open Collections

variable {O C V D : Type}

/-- What a part of a run committed and requested. -/
@[ext]
structure Emission (O C V D : Type) where
  events : List (TransitionEvent D)
  actions : List (RequestedAction O C V D)

namespace Emission

instance : Monoid (Emission O C V D) where
  one := ⟨[], []⟩
  mul m n := ⟨m.events ++ n.events, m.actions ++ n.actions⟩
  mul_assoc m n k := Emission.ext (List.append_assoc ..) (List.append_assoc ..)
  one_mul _ := rfl
  mul_one m := Emission.ext (List.append_nil _) (List.append_nil _)

variable (m n : Emission O C V D)

@[simp] theorem one_events : (1 : Emission O C V D).events = [] := rfl

@[simp] theorem one_actions : (1 : Emission O C V D).actions = [] := rfl

@[simp] theorem mul_events : (m * n).events = m.events ++ n.events := rfl

@[simp] theorem mul_actions : (m * n).actions = m.actions ++ n.actions := rfl

end Emission

namespace RuntimeState

variable (s : RuntimeState C V D)

/-- The run is in its finalization phase. -/
abbrev Finalizing : Prop :=
  ∃ trigger gate issue, s.workflow = .finalizing trigger gate issue

/-- The sequence number that the next transition gets. -/
def nextSeq : TransitionSequence := (nextSequence s).1

/-- The state after a sequence number was taken. -/
def tick : RuntimeState C V D := (nextSequence s).2

/-- The identity of an action requested by the next transition. -/
def actionId : ActionId := ActionId.forTransition s.nextSeq

def setNode (id : String) (runtime : StepRuntimeState C V) : RuntimeState C V D :=
  modifyStep s id (fun _ => runtime)

/-- Commit a new runtime state of one node. -/
def commit (id : String) (runtime : StepRuntimeState C V) : RuntimeState C V D :=
  s.tick.setNode id runtime

/-- Commit a new workflow state. -/
def advance (workflow : WorkflowState D) : RuntimeState C V D :=
  { s.tick with workflow := workflow }

@[simp] theorem tick_definition : s.tick.definition = s.definition := by
  unfold tick nextSequence; dsimp only; split <;> rfl

@[simp] theorem tick_workflow : s.tick.workflow = s.workflow := by
  unfold tick nextSequence; dsimp only; split <;> rfl

@[simp] theorem tick_steps : s.tick.steps = s.steps := by
  unfold tick nextSequence; dsimp only; split <;> rfl

@[simp] theorem tick_exports : s.tick.exports = s.exports := by
  unfold tick nextSequence; dsimp only; split <;> rfl

@[simp] theorem tick_finalizationSummary : s.tick.finalizationSummary = s.finalizationSummary := by
  unfold tick nextSequence; dsimp only; split <;> rfl

@[simp] theorem tick_finalization : s.tick.finalization = s.finalization := by
  unfold tick nextSequence; dsimp only; split <;> rfl

@[simp] theorem tick_forceAbort : s.tick.forceAbort = s.forceAbort := by
  unfold tick nextSequence; dsimp only; split <;> rfl

@[simp] theorem tick_lastCancellationOperation :
    s.tick.lastCancellationOperation = s.lastCancellationOperation := by
  unfold tick nextSequence; dsimp only; split <;> rfl

variable (id : String) (runtime : StepRuntimeState C V)

@[simp] theorem setNode_definition : (s.setNode id runtime).definition = s.definition := rfl

@[simp] theorem setNode_workflow : (s.setNode id runtime).workflow = s.workflow := rfl

@[simp] theorem setNode_finalization : (s.setNode id runtime).finalization = s.finalization := rfl

@[simp] theorem setNode_forceAbort : (s.setNode id runtime).forceAbort = s.forceAbort := rfl

@[simp] theorem setNode_keys : (s.setNode id runtime).steps.keys = s.steps.keys := by
  simp [setNode, modifyStep]

theorem setNode_get? (j : String) :
    (s.setNode id runtime).steps.get? j =
      if j = id then (s.steps.get? j).map (fun _ => runtime) else s.steps.get? j :=
  BTreeMap.get?_modify _ _ _ _

@[simp] theorem commit_definition : (s.commit id runtime).definition = s.definition := by
  simp [commit]

@[simp] theorem commit_workflow : (s.commit id runtime).workflow = s.workflow := by
  simp [commit]

@[simp] theorem commit_finalization : (s.commit id runtime).finalization = s.finalization := by
  simp [commit]

@[simp] theorem commit_forceAbort : (s.commit id runtime).forceAbort = s.forceAbort := by
  simp [commit]

@[simp] theorem commit_keys : (s.commit id runtime).steps.keys = s.steps.keys := by
  simp [commit]

theorem commit_get? (j : String) :
    (s.commit id runtime).steps.get? j =
      if j = id then (s.steps.get? j).map (fun _ => runtime) else s.steps.get? j := by
  simp [commit, setNode_get?]

variable (workflow : WorkflowState D)

@[simp] theorem advance_definition : (s.advance workflow).definition = s.definition := by
  simp [advance]

@[simp] theorem advance_workflow : (s.advance workflow).workflow = workflow := rfl

@[simp] theorem advance_steps : (s.advance workflow).steps = s.steps := by
  simp [advance]

@[simp] theorem advance_finalization : (s.advance workflow).finalization = s.finalization := by
  simp [advance]

@[simp] theorem advance_forceAbort : (s.advance workflow).forceAbort = s.forceAbort := by
  simp [advance]

end RuntimeState

/-- The handler of a round, if it is the named one, has a new outcome. -/
def RecoveryRoundRecord.noteOutcome (round : RecoveryRoundNumber)
    (outcome : RecoveryHandlerOutcome C) (record : RecoveryRoundRecord C) : RecoveryRoundRecord C :=
  if record.number = round then
    { record with handler := record.handler.map (fun handler =>
        { handler with outcome := outcome }) }
  else record

namespace StepRuntimeState

variable (rt : StepRuntimeState C V)

/-- A new target execution has been requested. -/
def started (action : ActionId) (executionNumber : TargetExecutionNumber) : StepRuntimeState C V :=
  { rt with
    state := .starting
    currentAction := some action
    targetExecution := some executionNumber
    targetInvocation := some action
    activeInvocation := some (.target executionNumber) }

/-- An execution has come to its end. -/
def settled (state : StepState V) : StepRuntimeState C V :=
  { rt with state := state, currentAction := none, activeInvocation := none }

/-- A node that was never started is settled. -/
def dropped (state : StepState V) : StepRuntimeState C V :=
  { rt with state := state, currentAction := none }

variable (action : ActionId) (n : TargetExecutionNumber) (state : StepState V)

@[simp] theorem started_state : (rt.started action n).state = .starting := rfl

@[simp] theorem started_currentAction : (rt.started action n).currentAction = some action := rfl

@[simp] theorem started_recovery : (rt.started action n).recovery = rt.recovery := rfl

@[simp] theorem started_conditionPassed :
    (rt.started action n).conditionPassed = rt.conditionPassed := rfl

@[simp] theorem settled_state : (rt.settled state).state = state := rfl

@[simp] theorem settled_currentAction : (rt.settled state).currentAction = none := rfl

@[simp] theorem settled_recovery : (rt.settled state).recovery = rt.recovery := rfl

@[simp] theorem settled_conditionPassed :
    (rt.settled state).conditionPassed = rt.conditionPassed := rfl

@[simp] theorem dropped_state : (rt.dropped state).state = state := rfl

@[simp] theorem dropped_currentAction : (rt.dropped state).currentAction = none := rfl

@[simp] theorem dropped_recovery : (rt.dropped state).recovery = rt.recovery := rfl

@[simp] theorem dropped_conditionPassed :
    (rt.dropped state).conditionPassed = rt.conditionPassed := rfl

/-- Only the recovery record differs. -/
def SameButRecovery (rt' : StepRuntimeState C V) : Prop :=
  rt' = { rt with recovery := rt'.recovery }

/-- The recovery record was annotated; no round was opened. -/
def Annotated (rt' : StepRuntimeState C V) : Prop :=
  rt.SameButRecovery rt' ∧
    rt'.recovery.map (fun r => (r.configuredRounds, r.handlerKind, r.rounds.length)) =
      rt.recovery.map (fun r => (r.configuredRounds, r.handlerKind, r.rounds.length))

/-- One of the configured rounds was opened. -/
def OpenedRound (rt' : StepRuntimeState C V) : Prop :=
  rt.SameButRecovery rt' ∧ ∃ r r', rt.recovery = some r ∧ rt'.recovery = some r' ∧
    r.rounds.length < r.configuredRounds ∧ r'.configuredRounds = r.configuredRounds ∧
    r'.handlerKind = r.handlerKind ∧ r'.rounds.length = r.rounds.length + 1

/-- The recovery record, if there is one, is updated. -/
def editRecovery (f : StepRecoveryState C → StepRecoveryState C) : StepRuntimeState C V :=
  { rt with recovery := rt.recovery.map f }

/-- The handler of the last round, if it is the named one, has a new outcome. -/
def noteOutcome (round : RecoveryRoundNumber) (outcome : RecoveryHandlerOutcome C) :
    StepRuntimeState C V :=
  rt.editRecovery (modifyLastRound (RecoveryRoundRecord.noteOutcome round outcome))

/-- The recovery has come to its end. -/
def noteDisposition (disposition : RecoveryTerminalDisposition) : StepRuntimeState C V :=
  rt.editRecovery (fun recovery => { recovery with terminalDisposition := some disposition })

def lastRound : Option (RecoveryRoundRecord C) :=
  rt.recovery.bind (fun recovery => recovery.rounds.getLast?)

/-- The failure that opened the last round. -/
def latestFailure : Option (ProvisionalTargetFailure C) :=
  rt.lastRound.map RecoveryRoundRecord.failedExecution

/-- The target execution that a recovery led to. -/
def activatedExecution : Option TargetExecutionNumber :=
  rt.lastRound.bind (fun _ => rt.targetExecution)

/-- The last execution of a recovery ends it. -/
def noteExecution (disposition : TargetExecutionNumber → RecoveryTerminalDisposition) :
    StepRuntimeState C V :=
  match rt.activatedExecution with
  | none => rt
  | some n => rt.noteDisposition (disposition n)

/-- A handler that is contained is recorded as cancelled. -/
def noteHandlerCancelled : ActiveStepInvocation → StepRuntimeState C V
  | .recoveryHandler round => rt.noteOutcome round .cancelled
  | .target _ => rt

/-- A recovery that is cancelled ends with its last round. -/
def noteCancelled (active : ActiveStepInvocation) : StepRuntimeState C V :=
  match rt.lastRound with
  | none => rt
  | some record => rt.noteDisposition (.cancelled record.number active)

/-- The current execution has failed and opens a round. -/
def Opens (recovery : StepRecoveryState C) (record : RecoveryRoundRecord C) : Prop :=
  ∃ phase detail cause, openRound rt phase detail cause = some (recovery, record)

def opened (record : RecoveryRoundRecord C) : StepRuntimeState C V :=
  rt.editRecovery (fun recovery => { recovery with rounds := recovery.rounds ++ [record] })

/-- The handler of the last round was requested. -/
def handlerStarted (action : ActionId) (round : RecoveryRoundNumber)
    (kind : RecoveryHandlerKind) : StepRuntimeState C V :=
  { rt.editRecovery (modifyLastRound (fun record =>
      { record with handler := some ⟨kind, action, .starting⟩ })) with
    state := .recovering round .starting
    currentAction := some action
    activeInvocation := some (.recoveryHandler round) }

@[simp] theorem handlerStarted_state (action : ActionId) (round : RecoveryRoundNumber)
    (kind : RecoveryHandlerKind) :
    (rt.handlerStarted action round kind).state = .recovering round .starting := rfl

/-- The node runs its target: nothing else than the target can fail now. -/
def RunsTarget : Prop :=
  rt.state = .starting ∨ rt.state = .running ∨ rt.state = .capturingOutputs

/-- How a failure becomes final, and what the recovery record then says.  A target fails
for good when no round was opened for it, or none that leads to another execution. -/
inductive FinalFailure (d : RuntimeStep) : FailureDetail → StepRuntimeState C V → Prop
  | target (detail : FailureDetail) (rt₁ : StepRuntimeState C V)
      (htarget : rt.RunsTarget)
      (hopened : rt₁ = rt ∨ ∃ recovery record, rt.Opens recovery record ∧
        next record.failedExecution.executionNumber = none ∧
        rt₁ = rt.opened record) :
      FinalFailure d detail (if d.recovery.isSome then rt₁.noteExecution .exhausted else rt₁)
  | gaveUp (round : RecoveryRoundNumber) (summary reason : String)
      (failure : ProvisionalTargetFailure C)
      (hstate : rt.state = .recovering round .running)
      (hfailure : rt.latestFailure = some failure) :
      FinalFailure d failure.detail
        ((rt.noteOutcome round (.gaveUp summary reason)).noteDisposition (.gaveUp round))
  | handlerFailed (round : RecoveryRoundNumber) (activity : RecoveryHandlerActivity)
      (phase : RecoveryHandlerFailurePhase) (cause : C)
      (failure : ProvisionalTargetFailure C)
      (hstate : rt.state = .recovering round activity)
      (hfailure : rt.latestFailure = some failure) :
      FinalFailure d failure.detail
        ((rt.noteOutcome round (.failed phase cause)).noteDisposition (.handlerFailed round phase))

end StepRuntimeState

section Moves

variable [ConditionOutput V] (o : Option (Occurrence O C V D)) (s : RuntimeState C V D)
  (id : String) (d : RuntimeStep) (rt : StepRuntimeState C V)

/-- Transitions of one node that leave the workflow state alone. -/
inductive NodeMove : StepRuntimeState C V →
    List (RequestedAction O C V D) → Prop
  | start (hselecting : o = none) (hpending : rt.state = .pending)
      (hgate : phaseGateOpen s d.role = true) (hready : nodeReady s d.role id d = true)
      (hslot : activeCount s < s.definition.maximumParallelSteps) :
      NodeMove (rt.started s.actionId 1) [⟨s.actionId, .startStep id 1 (resolvedActionInputs s d)⟩]
  | retry (n : TargetExecutionNumber) (record : RecoveryRoundRecord C)
      {recovery : StepRecoveryState C} (htarget : rt.RunsTarget)
      (hopens : rt.Opens recovery record) (hkind : recovery.handlerKind = none)
      (hnext : next record.failedExecution.executionNumber = some n) :
      NodeMove ((rt.opened record).started s.actionId n)
        [⟨s.actionId, .startStep id n (resolvedActionInputs s d)⟩]
  | recheck (n : TargetExecutionNumber) (round : RecoveryRoundNumber) (summary reason : String)
      (hstate : rt.state = .recovering round .running)
      (hnext : rt.latestFailure.bind (fun failure =>
        next failure.executionNumber) = some n) :
      NodeMove ((rt.noteOutcome round (.recheck summary reason)).started s.actionId n)
        [⟨s.actionId, .startStep id n (resolvedActionInputs s d)⟩]
  | run (hstate : rt.state = .starting) : NodeMove { rt with state := .running } []
  | capture (provisional : O) (hstate : rt.state = .running)
      (hdeclared : d.declaredOutputs ≠ []) :
      NodeMove { rt with state := .capturingOutputs, currentAction := some s.actionId }
        [⟨s.actionId, .captureOutputs id provisional⟩]
  | succeed (action : ActionId) (outputs : OutputSet V)
      (hstate : rt.state = .capturingOutputs) (haction : rt.currentAction = some action)
      (hoccurrence : o = some (.outputsCaptured id action outputs))
      (hdeclared : outputs.keys = d.declaredOutputs) :
      NodeMove ((rt.noteExecution .recovered).settled (.succeeded outputs)) []
  | recover (kind : RecoveryHandlerKind) (record : RecoveryRoundRecord C)
      {recovery : StepRecoveryState C} (htarget : rt.RunsTarget)
      (hopens : rt.Opens recovery record) (hkind : recovery.handlerKind = some kind) :
      NodeMove ((rt.opened record).handlerStarted s.actionId record.number kind)
        [⟨s.actionId, .startRecoveryHandler id record.number kind
          ((((rt.opened record).handlerStarted s.actionId record.number kind).recovery.map
            StepRecoveryState.rounds).getD [])⟩]
  | handlerRunning (round : RecoveryRoundNumber)
      (hstate : rt.state = .recovering round .starting) :
      NodeMove { rt.noteOutcome round .running with state := .recovering round .running } []
  | skip (predicate : ResolvedPredicate) (trace : List EvaluatedPredicate)
      (detail : ConditionFalseDetail) (hgate : conditionGateReady s id = true)
      (hpending : rt.state = .pending) (hcondition : d.condition = some predicate)
      (hevaluation : evaluateCondition s d predicate = .false trace)
      (hdetail : ConditionFalseDetail.new trace = .ok detail) :
      NodeMove (rt.dropped (.skipped detail)) []
  | failureStop (hpending : rt.state = .pending) (hid : id ∈ s.definition.ordinaryIds)
      (hstopped : failureStopped s = true)
      (hblockers : ordinaryUnsatisfiedPrerequisites s id d = [])
      (hsatisfied : d.prerequisites.all (ordinaryPrerequisiteSatisfied s) = true) :
      NodeMove (rt.dropped (.notRun ⟨.failureStop⟩)) []
  | notSelected (finalization : FinalizationRuntime D) (hpending : rt.state = .pending)
      (hid : id ∈ s.definition.finalizerIds) (hfinalization : s.finalization = some finalization)
      (hwhen : finalization.trigger ∉ d.when) :
      NodeMove (rt.dropped (.notRun ⟨.finalizerTriggerNotSelected⟩)) []
  | forcedCancel (hpending : rt.state = .pending) (hrole : d.role = .finalizer)
      (hphase : ∃ trigger gate issue, s.workflow = .finalizing trigger gate issue)
      (hforced : forceAbortedOrdinary s = true)
      (hselected : ∀ finalization, s.finalization = some finalization →
        finalization.trigger ∈ d.when) :
      NodeMove (rt.dropped (.cancelled ⟨.forceAbort⟩)) []
  | quiesce (detail : CancellationDetail) (reason : CancellationReason)
      (active : ActiveStepInvocation) (hstate : rt.state = .cancelling detail)
      (hactive : rt.activeInvocation = some active) :
      NodeMove ((rt.noteCancelled active).settled (.cancelled ⟨reason⟩)) []

/-- Transitions of one node into `Failed` or `Blocked`, with the issue they raise. -/
inductive IssueMove : StepRuntimeState C V → PrimaryIssue → Prop
  | fail (detail : FailureDetail) (rt' : StepRuntimeState C V)
      (hfinal : rt.FinalFailure d detail rt') :
      IssueMove (rt'.settled (.failed detail)) (.ofFailed ⟨id, d.role⟩ detail)
  | conditionFailed (predicate : ResolvedPredicate) (canonicalRef pointer : String)
      (detail : FailureDetail) (hgate : conditionGateReady s id = true)
      (hpending : rt.state = .pending) (hcondition : d.condition = some predicate)
      (hevaluation : evaluateCondition s d predicate = .failed canonicalRef pointer)
      (hdetail : FailureDetail.jsonPointerMissing canonicalRef pointer = .ok detail) :
      IssueMove (rt.settled (.failed detail)) (.ofFailed ⟨id, d.role⟩ detail)
  | blockOrdinary (detail : BlockedDetail) (hpending : rt.state = .pending)
      (hid : id ∈ s.definition.ordinaryIds)
      (hblockers : BlockedDetail.new (ordinaryUnsatisfiedPrerequisites s id d) = .ok detail) :
      IssueMove (rt.dropped (.blocked detail)) (.ofBlocked ⟨id, d.role⟩ detail)
  | blockCondition (detail : BlockedDetail) (hpending : rt.state = .pending)
      (hid : id ∈ s.definition.finalizerIds)
      (hcondition : d.condition.isSome = true) (hopen : rt.conditionPassed = false)
      (hgate : conditionPhaseGateOpen s d = true)
      (hblockers : BlockedDetail.new (conditionBlockers s d) = .ok detail) :
      IssueMove (rt.dropped (.blocked detail)) (.ofBlocked ⟨id, d.role⟩ detail)
  | blockInput (detail : BlockedDetail) (hpending : rt.state = .pending)
      (hid : id ∈ s.definition.finalizerIds)
      (hpassed : d.condition.isSome = true → rt.conditionPassed = true)
      (hready : finalizerReady s id d = true)
      (hblockers : BlockedDetail.new ((unavailableReferences s d).filterMap (fun reference =>
        (Prerequisite.mkBody reference).toOption)) = .ok detail) :
      IssueMove (rt.dropped (.blocked detail)) (.ofBlocked ⟨id, d.role⟩ detail)

end Moves

variable (reason : CancellationReason) (deadline : D) (force : Option CancellationOperationId)

/-- The identity under which a node is contained. -/
def containmentId (s : RuntimeState C V D) (index : Nat) : ActionId :=
  match force with
  | some operation => ActionId.forForceAbort operation index
  | none => s.actionId

/-- The action that contains a node. -/
def containment (s : RuntimeState C V D) (index : Nat) (id : String)
    (active : ActiveStepInvocation) : RequestedAction O C V D :=
  ⟨containmentId force s index,
    match force with
    | some _ => .forceAbortStep id active reason deadline
    | none => .cancelStep id active reason deadline⟩

/-- The event of a node that changes from one runtime state to another. -/
def nodeEvent (s : RuntimeState C V D) (id : String) (d : RuntimeStep)
    (rt rt' : StepRuntimeState C V) : TransitionEvent D :=
  .step s.nextSeq id d.role d.failurePolicy rt.state.kind rt'.state.kind

/-- What a cancellation does to one node; the number is the next containment index. -/
inductive CancelMove (index : Nat) (s : RuntimeState C V D) (id : String) :
    Nat → Emission O C V D → RuntimeState C V D → Prop
  | drop {d : RuntimeStep} {rt : StepRuntimeState C V}
      (hd : s.definition.steps.get? id = some d) (hrt : s.steps.get? id = some rt)
      (hstate : rt.state = .pending) :
      CancelMove index s id index
        ⟨[nodeEvent s id d rt (rt.dropped (.cancelled ⟨reason⟩))], []⟩
        (s.commit id (rt.dropped (.cancelled ⟨reason⟩)))
  | contain {d : RuntimeStep} {rt : StepRuntimeState C V}
      {active : ActiveStepInvocation}
      (hd : s.definition.steps.get? id = some d) (hrt : s.steps.get? id = some rt)
      (hstate : rt.RunsTarget ∨ ∃ round activity, rt.state = .recovering round activity)
      (hactive : rt.activeInvocation = some active) :
      CancelMove index s id (index + 1)
        ⟨[nodeEvent s id d rt { rt.noteHandlerCancelled active with
            state := .cancelling ⟨reason⟩ }],
          [containment reason deadline force s index id active]⟩
        (s.commit id { rt.noteHandlerCancelled active with
          state := .cancelling ⟨reason⟩
          currentAction := some (containmentId force s index) })
  | escalate {rt : StepRuntimeState C V} {detail : CancellationDetail}
      (hrt : s.steps.get? id = some rt) (hstate : rt.state = .cancelling detail)
      (hforce : force.isSome = true) :
      CancelMove index s id (index + 1)
        ⟨[], rt.activeInvocation.toList.map (containment reason deadline force s index id)⟩
        (s.setNode id { rt with currentAction := some (containmentId force s index) })
  | pass {rt : StepRuntimeState C V} (hrt : s.steps.get? id = some rt)
      (hstate : rt.state.isTerminal = true ∨
        rt.state.isActive = true ∧ rt.activeInvocation = none ∨
        (∃ detail, rt.state = .cancelling detail) ∧ force = none) :
      CancelMove index s id index 1 s

/-- A cancellation goes through the nodes of a phase. -/
inductive CancelRun : Nat → List String → RuntimeState C V D →
    Emission O C V D → RuntimeState C V D → Prop
  | nil (index : Nat) (s : RuntimeState C V D) : CancelRun index [] s 1 s
  | cons {index next : Nat} {id : String} {ids : List String}
      {s t u : RuntimeState C V D}
      {m n : Emission O C V D}
      (hmove : CancelMove reason deadline force index s id next m t)
      (hrest : CancelRun next ids t n u) : CancelRun index (id :: ids) s (m * n) u

variable (s : RuntimeState C V D)

/-- The workflow state after a required issue, when the issue decides the outcome. -/
def issueTarget (workflow : WorkflowState D) (d : RuntimeStep) (issue : PrimaryIssue) :
    Option (WorkflowState D) :=
  if d.failurePolicy = .required then
    match d.role, workflow with
    | .step, .executing .open => some (.executing (.failureStopped issue))
    | .finalizer, .finalizing .succeeded .open none =>
      some (.finalizing .succeeded .open (some issue))
    | _, _ => none
  else none

namespace RuntimeState

/-- The ordinary phase is closed by a graceful cancellation. -/
def closeOrdinary (gate : SchedulingGate) (reason : CancellationReason)
    (operation : Option CancellationOperationId) : RuntimeState C V D :=
  ({ s with
    workflow := .executing (.cancelling reason (priorIssue gate))
    lastCancellationOperation := operation.or s.lastCancellationOperation }).tick

/-- The finalization phase is closed by a graceful cancellation. -/
def closeFinalization (trigger : FinalizationTrigger) (issue : Option PrimaryIssue)
    (reason : CancellationReason) (deadline : D)
    (operation : Option CancellationOperationId) : RuntimeState C V D :=
  ({ s with
    workflow := .finalizing trigger (.cancelling reason (some deadline) false) issue
    finalization := s.finalization.map (fun (finalization : FinalizationRuntime D) =>
      { finalization with cancellation := some ⟨reason, some deadline⟩ })
    lastCancellationOperation := operation.or s.lastCancellationOperation }).tick

/-- The ordinary phase is closed by a force abort. -/
def forceOrdinary (gate : SchedulingGate) (operation : CancellationOperationId) :
    RuntimeState C V D :=
  ({ s with
    forceAbort := some ⟨.forceAbort, .ordinary⟩
    lastCancellationOperation := some operation
    workflow := .executing (forcedGate gate) }).tick

/-- The finalization phase is closed by a force abort. -/
def forceFinalization (trigger : FinalizationTrigger) (gate : FinalizationGate D)
    (issue : Option PrimaryIssue) (operation : CancellationOperationId) : RuntimeState C V D :=
  ({ s with
    forceAbort := some ⟨.forceAbort, .finalization⟩
    lastCancellationOperation := some operation
    workflow := .finalizing trigger (forcedFinalizationGate gate) issue
    finalization := s.finalization.map (fun (finalization : FinalizationRuntime D) =>
      { finalization with
        forceAbort := true
        cancellation := finalization.cancellation.or (some ⟨.forceAbort, none⟩) }) }).tick

variable (gate : SchedulingGate) (reason : CancellationReason) (trigger : FinalizationTrigger)
  (finalizationGate : FinalizationGate D) (issue : Option PrimaryIssue) (deadline : D)
  (graceful : Option CancellationOperationId) (operation : CancellationOperationId)

@[simp] theorem closeOrdinary_definition :
    (s.closeOrdinary gate reason graceful).definition = s.definition := tick_definition _

@[simp] theorem closeFinalization_definition :
    (s.closeFinalization trigger issue reason deadline graceful).definition = s.definition :=
  tick_definition _

@[simp] theorem forceOrdinary_definition :
    (s.forceOrdinary gate operation).definition = s.definition := tick_definition _

@[simp] theorem forceFinalization_definition :
    (s.forceFinalization trigger finalizationGate issue operation).definition = s.definition :=
  tick_definition _

/-- The gate with which finalization is entered. -/
def entryGate : FinalizationGate D :=
  if forceAbortedOrdinary s then .cancelling .forceAbort none true else .open

/-- What is kept of the ordinary phase when finalization is entered. -/
def entryRuntime (outcome : OrdinaryOutcome) : FinalizationRuntime D where
  trigger := outcome.trigger
  context := serializeContext outcome.trigger
    (outcome.primaryIssue.map (fun issue => issue.node.id)) outcome.cancellation
    (ordinaryIssues s)
  ordinaryOutcome := outcome
  cancellation := if forceAbortedOrdinary s then some ⟨.forceAbort, none⟩ else none
  forceAbort := forceAbortedOrdinary s

end RuntimeState

/-- The outcome a run can be finished with, and the summary that goes with it. -/
inductive FinishReady : OrdinaryOutcome → Option (FinalizationSummary D) → Prop
  | ordinary {outcome : OrdinaryOutcome} (hsettled : allSettled s .step = true)
      (houtcome : ordinaryOutcome s = some outcome)
      (hfinalizers : s.definition.finalizerIds = []) : FinishReady outcome none
  | finalization {finalization : FinalizationRuntime D}
      (hphase : ∃ trigger gate issue, s.workflow = .finalizing trigger gate issue)
      (hsettled : allSettled s .finalizer = true)
      (hfinalization : s.finalization = some finalization) :
      FinishReady (composeFinalOutcome s finalization) (some (finalizationSummary s finalization))

/-- The ordinary phase can still be cancelled. -/
def ordinaryCancellable : WorkflowState D → Bool
  | .executing .open | .executing (.failureStopped _) => true
  | _ => false

/-- The phase that the run is in can still be cancelled. -/
def gracefullyCancellable : WorkflowState D → Bool
  | .finalizing _ .open _ => true
  | workflow => ordinaryCancellable workflow

/-- An occurrence asks for a cancellation or an abort that the state accepts. -/
def closesGate : Occurrence O C V D → Bool
  | .cancellationOperationRequested operation reason _ =>
    reason ≠ .forceAbort && !staleOperation s operation && gracefullyCancellable s.workflow
  | .ordinaryCancellationOperationRequested operation reason _ =>
    reason ≠ .forceAbort && !staleOperation s operation && ordinaryCancellable s.workflow
  | .forceAbortRequested operation _ =>
    !staleOperation s operation && s.forceAbort.isNone && !s.workflow.isTerminal
  | _ => false

/-- The occurrence that is applied, if any, closes a gate: an initial cancellation applies none. -/
abbrev Requested (o : Option (Occurrence O C V D)) : Prop :=
  ∀ occurrence, o = some occurrence → closesGate s occurrence = true

theorem requested_none : Requested (O := O) s none := by
  rintro _ ⟨⟩

variable [ConditionOutput V]

/-- One step of the reducer.  The occurrence is the one being applied, if any: outputs are
committed while their occurrence is applied; a first start is requested and a phase is left
only while the reducer stabilizes; only a request cancels or aborts.  A `note` is left behind by
a handler that reports when its node has no further execution. -/
inductive ReducerStep (o : Option (Occurrence O C V D))
    (s : RuntimeState C V D) :
    Emission O C V D → RuntimeState C V D → Prop
  | node {id : String} {d : RuntimeStep} {rt rt' : StepRuntimeState C V}
      {actions : List (RequestedAction O C V D)}
      (hd : s.definition.steps.get? id = some d) (hrt : s.steps.get? id = some rt)
      (hmove : NodeMove o s id d rt rt' actions) :
      ReducerStep o s ⟨[nodeEvent s id d rt rt'], actions⟩ (s.commit id rt')
  | complete {id : String} {d : RuntimeStep} {rt : StepRuntimeState C V}
      (hd : s.definition.steps.get? id = some d) (hrt : s.steps.get? id = some rt)
      (hstate : rt.state = .running) (hdeclared : d.declaredOutputs = []) :
      ReducerStep o s
        ⟨[nodeEvent s id d rt (rt.dropped .capturingOutputs),
          nodeEvent (s.commit id (rt.dropped .capturingOutputs)) id d
            (rt.dropped .capturingOutputs)
            ((rt.noteExecution .recovered).settled (.succeeded .empty))], []⟩
        ((s.commit id (rt.dropped .capturingOutputs)).commit id
          ((rt.noteExecution .recovered).settled (.succeeded .empty)))
  | issue {id : String} {d : RuntimeStep} {rt rt' : StepRuntimeState C V}
      {issue : PrimaryIssue}
      (hd : s.definition.steps.get? id = some d) (hrt : s.steps.get? id = some rt)
      (hmove : IssueMove s id d rt rt' issue) (hsilent : issueTarget s.workflow d issue = none) :
      ReducerStep o s ⟨[nodeEvent s id d rt rt'], []⟩ (s.commit id rt')
  | primaryIssue {id : String} {d : RuntimeStep} {rt rt' : StepRuntimeState C V}
      {issue : PrimaryIssue} {workflow : WorkflowState D}
      (hd : s.definition.steps.get? id = some d) (hrt : s.steps.get? id = some rt)
      (hmove : IssueMove s id d rt rt' issue)
      (htarget : issueTarget s.workflow d issue = some workflow) :
      ReducerStep o s
        ⟨[nodeEvent s id d rt rt', .workflow (s.commit id rt').nextSeq s.workflow workflow], []⟩
        ((s.commit id rt').advance workflow)
  | note {id : String} {rt rt' : StepRuntimeState C V}
      (hrt : s.steps.get? id = some rt) (hnote : rt.Annotated rt')
      (hstate : ∃ round activity, rt.state = .recovering round activity)
      (hlost : rt.latestFailure.bind (fun failure =>
        next failure.executionNumber) = none) :
      ReducerStep o s 1 (s.setNode id rt')
  | passed {id : String} {d : RuntimeStep} {rt : StepRuntimeState C V}
      {predicate : ResolvedPredicate}
      (hd : s.definition.steps.get? id = some d) (hrt : s.steps.get? id = some rt)
      (hgate : conditionGateReady s id = true) (hcondition : d.condition = some predicate)
      (hevaluation : evaluateCondition s d predicate = .passed) :
      ReducerStep o s 1 (s.setNode id { rt with conditionPassed := true })
  | release (action : ActionId) (provisional : O) :
      ReducerStep o s ⟨[], [⟨action, .releaseStepResources provisional⟩]⟩ s
  | operation (operation : CancellationOperationId) :
      ReducerStep o s 1 { s with lastCancellationOperation := some operation }
  | cancelOrdinary {gate : SchedulingGate} {reason : CancellationReason} {deadline : D}
      {operation : Option CancellationOperationId}
      {m : Emission O C V D} {t : RuntimeState C V D}
      (hphase : s.workflow = .executing gate)
      (hgate : ∀ earlier issue, gate ≠ .cancelling earlier issue)
      (hcancel : CancelRun reason deadline none 1 ((nodesOfRole s .step).map Prod.fst)
        (s.closeOrdinary gate reason operation) m t)
      (hrequested : Requested s o) :
      ReducerStep o s (⟨[.cancellationAccepted s.nextSeq reason deadline], []⟩ * m) t
  | cancelFinalization {trigger : FinalizationTrigger} {issue : Option PrimaryIssue}
      {reason : CancellationReason} {deadline : D}
      {operation : Option CancellationOperationId}
      {m : Emission O C V D} {t : RuntimeState C V D}
      (hphase : s.workflow = .finalizing trigger .open issue)
      (hcancel : CancelRun reason deadline none 1 ((nodesOfRole s .finalizer).map Prod.fst)
        (s.closeFinalization trigger issue reason deadline operation) m t)
      (hrequested : Requested s o) :
      ReducerStep o s (⟨[.finalizationCancellationAccepted s.nextSeq reason deadline], []⟩ * m) t
  | forceOrdinary {gate : SchedulingGate} {deadline : D}
      {operation : CancellationOperationId}
      {m : Emission O C V D} {t : RuntimeState C V D}
      (hphase : s.workflow = .executing gate) (hfirst : s.forceAbort = none)
      (hcancel : CancelRun .forceAbort deadline (some operation) 1
        ((nodesOfRole s .step).map Prod.fst) (s.forceOrdinary gate operation) m t)
      (hrequested : Requested s o) :
      ReducerStep o s (⟨[.forceAbortAccepted s.nextSeq .forceAbort .ordinary], []⟩ * m) t
  | forceFinalization {trigger : FinalizationTrigger} {gate : FinalizationGate D}
      {issue : Option PrimaryIssue} {deadline : D} {operation : CancellationOperationId}
      {m : Emission O C V D} {t : RuntimeState C V D}
      (hphase : s.workflow = .finalizing trigger gate issue) (hfirst : s.forceAbort = none)
      (hcancel : CancelRun .forceAbort deadline (some operation) 1
        ((nodesOfRole s .finalizer).map Prod.fst)
        (s.forceFinalization trigger gate issue operation) m t)
      (hrequested : Requested s o) :
      ReducerStep o s (⟨[.forceAbortAccepted s.nextSeq .forceAbort .finalization], []⟩ * m) t
  | enter {outcome : OrdinaryOutcome} (hsettled : allSettled s .step = true)
      (houtcome : ordinaryOutcome s = some outcome)
      (hfinalizers : s.definition.finalizerIds ≠ []) (hstabilizing : o = none) :
      ReducerStep o s
        ⟨[.workflow s.nextSeq s.workflow
          (.finalizing outcome.trigger s.entryGate outcome.primaryIssue)], []⟩
        { s.advance (.finalizing outcome.trigger s.entryGate outcome.primaryIssue) with
          finalization := some (s.entryRuntime outcome) }
  | finish {outcome : OrdinaryOutcome} {summary : Option (FinalizationSummary D)}
      {exports : ExportSet V} (hready : FinishReady s outcome summary)
      (hexports : deriveExports s = some exports) (hstabilizing : o = none) :
      ReducerStep o s
        ⟨[.workflow s.nextSeq s.workflow outcome.workflowState],
          [⟨s.actionId, .finishRun outcome.runOutcome exports⟩]⟩
        { s.advance outcome.workflowState with
          exports := some exports
          finalizationSummary := summary }

end ScherzoCloud.Workflow
