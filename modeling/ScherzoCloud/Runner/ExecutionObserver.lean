import ScherzoCloud.Runner.Outbox
import ScherzoCloud.Workflow.Observation
import ScherzoCloud.Workflow.RecoverySummary

/-!
# The execution observer of the runner

The runner follows a run through the transitions that its observer gets.  For every step
that is being recovered the observer rebuilds, from the kind of a transition and from the
state after the reduction, which invocation has come to its end, and keeps a record of it.

What the observer asks of the machine (the clock, the logs of an invocation, the outbox,
the fence) is a parameter, `ObserverEnvironment`; an answer may differ from one transition
to the next, so every question has the moment of the transition as an argument.  The
request for a cancellation that some transitions lead to is not part of the state of the
observer and left out.
-/

namespace ScherzoCloud.Runner

open Collections Workflow

variable {D : Type}

/-- A reading of the clocks.  The monotonic clock counts milliseconds since it was started. -/
structure RunnerExecutionInstant where
  monotonic : Nat
  utc : Nat
  inRange : monotonic < 2 ^ 64
  deriving DecidableEq

inductive ObserverFault where
  | transitionCapacityExceeded
  | sequenceExhausted
  | duplicateTerminal
  | invocationSettlementFailed
  | ambiguousAgentInvocation
  | agentInvocationTimingMissing
  | invocationEvidenceInvalid
  | outbox (failure : OutboxFailure)
  | duplicateCancellation
  deriving DecidableEq

structure RunnerActiveInvocation where
  id : ActionId
  role : ActiveStepInvocation
  startedAt : RunnerExecutionInstant
  deriving DecidableEq

structure RunnerStepTiming where
  startedAt : RunnerExecutionInstant
  finishedAt : Option RunnerExecutionInstant
  deriving DecidableEq

structure ObserverState (D : Type) where
  transitionCount : Nat
  lastSequence : Nat
  terminalSequence : Option Nat
  terminalState : Option (WorkflowState D)
  forceAbort : Option ForceAbortEvidence
  cancellation : Option (CancellationReason × D)
  stepTimings : BTreeMap String RunnerStepTiming
  activeInvocations : BTreeMap String RunnerActiveInvocation
  settledInvocations : BTreeMap Nat (String × RecoveryInvocationV1)
  fault : Option ObserverFault

def ObserverState.initial {D : Type} : ObserverState D where
  transitionCount := 0
  lastSequence := 0
  terminalSequence := none
  terminalState := none
  forceAbort := none
  cancellation := none
  stepTimings := .empty
  activeInvocations := .empty
  settledInvocations := .empty
  fault := none

/-- What the observer asks of the machine, by the moment of the transition. -/
structure ObserverEnvironment where
  now : Nat → RunnerExecutionInstant
  formatUtc : Nat → String
  /-- The retained output of an invocation, if it can be published. -/
  diagnostic : Nat → String → ActionId → Option CommandOutputV1
  invocationIds : Nat → String → List ActionId
  usage : Nat → ActionId → Option RecoveryInvocationUsageV1
  /-- The diagnostic identity of the native session of an invocation. -/
  nativeSession : Nat → ActionId → Option String
  agentSteps : String → Bool
  recoveryAgentSteps : String → Bool
  fenced : Nat → Bool
  enqueue : Nat → Option OutboxFailure
  transitionBudget : Nat

variable (env : ObserverEnvironment) (moment : Nat)

/-- The two streams of an invocation, as they are published. -/
def invocationDiagnostics (agent : Bool) (id : ActionId) (output : CommandOutputV1) :
    List RecoveryInvocationDiagnosticV1 :=
  let directory := "runner/invocations/" ++ toString id.transitionSequence
  [⟨if agent then .agentHarnessStdout else .commandStdout, directory ++ "/stdout", output.stdout⟩,
    ⟨if agent then .agentHarnessStderr else .commandStderr, directory ++ "/stderr", output.stderr⟩]

def invocationEvidence (step : String) (invocation : RunnerActiveInvocation)
    (finishedAt : RunnerExecutionInstant) (cancelled : Bool) : Option RecoveryInvocationV1 :=
  let usage := (env.usage moment invocation.id).getD ⟨0, 0⟩
  let native := env.nativeSession moment invocation.id
  let configuredAgent := match invocation.role with
    | .target _ => env.agentSteps step
    | .recoveryHandler _ => env.recoveryAgentSteps step
  let diagnostics := ((env.diagnostic moment step invocation.id).map
    (invocationDiagnostics (configuredAgent || native.isSome) invocation.id)).getD []
  let (role, targetExecution, recoveryRound) := match invocation.role with
    | .target executionNumber =>
      (RecoveryInvocationRoleV1.target, some executionNumber, none)
    | .recoveryHandler round => (.recoveryHandler, none, some round)
  let duration := finishedAt.monotonic - invocation.startedAt.monotonic
  if duration < 2 ^ 64 then
    some {
      invocationId := invocation.id.transitionSequence
      role := role
      targetExecution := targetExecution
      recoveryRound := recoveryRound
      state := if cancelled then .cancelled else .settled
      startedAt := env.formatUtc invocation.startedAt.utc
      finishedAt := env.formatUtc finishedAt.utc
      durationMilliseconds := duration
      usage := usage
      diagnostics := diagnostics
      diagnosticReference := native.map (fun session => "runner/native-sessions/" ++ session) }
  else none

variable (state : ObserverState D)

/-- File a record under its identity. -/
def ObserverState.file (step : String) (record : RecoveryInvocationV1) : ObserverState D :=
  { state with
    settledInvocations := state.settledInvocations.insert record.invocationId (step, record) }

/-- The step has no active invocation any more. -/
def ObserverState.release (step : String) : ObserverState D :=
  { state with activeInvocations := state.activeInvocations.erase step }

def ObserverState.register (step : String)
    (invocation : RunnerActiveInvocation) : ObserverState D :=
  { state with activeInvocations := state.activeInvocations.insert step invocation }

/-- The observer stops with a fault. -/
def ObserverState.stop (fault : ObserverFault) : ObserverState D :=
  { state with fault := some fault }

/-- Settle an invocation.  An error is the state in which the observer stopped. -/
def settleRunnerInvocation (step : String)
    (invocation : RunnerActiveInvocation) (finishedAt : RunnerExecutionInstant) (cancelled : Bool)
    (evidence : Option RecoveryInvocationV1) :
    Except (ObserverState D) (Option RecoveryInvocationV1 × ObserverState D) :=
  match invocationEvidence env moment step invocation finishedAt cancelled with
  | none => .error (state.stop .invocationSettlementFailed)
  | some settled =>
    match state.settledInvocations.get? settled.invocationId with
    | some (knownStep, known) =>
      if knownStep = step ∧ known = settled then .ok (evidence, state)
      else .error (state.stop .invocationSettlementFailed)
    | none =>
      if evidence.isSome then .error (state.stop .invocationSettlementFailed)
      else .ok (some settled, state.file step settled)

/-- Settle the invocation that was active before, unless it still is. -/
def settlePrevious (step : String) (activeInvocationId : ActionId) :
    Except (ObserverState D) (Option RecoveryInvocationV1 × ObserverState D) :=
  match state.activeInvocations.get? step with
  | some previous =>
    if previous.id ≠ activeInvocationId then
      settleRunnerInvocation env moment (state.release step) step previous (env.now moment) false
        none
    else .ok (none, state)
  | none => .ok (none, state)

/-- Settle the invocation that the transition reports, unless it is known. -/
def settleReported (step : String) (settledInvocation : Option (ActionId × ActiveStepInvocation))
    (evidence : Option RecoveryInvocationV1) :
    Except (ObserverState D) (Option RecoveryInvocationV1 × ObserverState D) :=
  match settledInvocation with
  | some (id, role) =>
    if (state.settledInvocations.get? id.transitionSequence).isSome then .ok (evidence, state)
    else
      let startedAt := ((state.stepTimings.get? step).map RunnerStepTiming.startedAt).getD
        (env.now moment)
      settleRunnerInvocation env moment state step ⟨id, role, startedAt⟩ (env.now moment) false
        evidence
  | none => .ok (evidence, state)

def registerActive (step : String)
    (active : ActiveStepInvocation) (activeInvocationId : ActionId) : ObserverState D :=
  match state.activeInvocations.get? step with
  | some _ => state
  | none => state.register step ⟨activeInvocationId, active, env.now moment⟩

/-- A transition of a step that is being recovered: settle the invocation that was active
before and the one that the transition reports, and register the one that is active now. -/
def observeRecovery (step : String) (active : ActiveStepInvocation) (activeInvocationId : ActionId)
    (settledInvocation : Option (ActionId × ActiveStepInvocation)) :
    Except (ObserverState D) (Option RecoveryInvocationV1 × ObserverState D) := do
  let (evidence, state) ← settlePrevious env moment state step activeInvocationId
  let (evidence, state) ← settleReported env moment state step settledInvocation evidence
  .ok (evidence, registerActive env moment state step active activeInvocationId)

/-- A step has ended: settle its active invocation. -/
def observeEnd (step : String) (target : StepStateKind) (evidence : Option RecoveryInvocationV1) :
    Except (ObserverState D) (Option RecoveryInvocationV1 × ObserverState D) :=
  if target.endsExecution then
    match state.activeInvocations.get? step with
    | none => .ok (evidence, state)
    | some active =>
      settleRunnerInvocation env moment (state.release step) step active (env.now moment)
        (target = .cancelled) evidence
  else .ok (evidence, state)

/-- An agent step has ended without evidence: its only execution is found in the log. -/
def observeAgent (step : String) (target : StepStateKind) (evidence : Option RecoveryInvocationV1) :
    Except (ObserverState D) (Option RecoveryInvocationV1 × ObserverState D) :=
  if target.endsExecution ∧ env.agentSteps step = true ∧ evidence = none ∧
      state.settledInvocations.values.all (fun settled => settled.1 ≠ step) then
    match env.invocationIds moment step with
    | [] => .ok (evidence, state)
    | [id] =>
      match state.stepTimings.get? step with
      | none => .error (state.stop .agentInvocationTimingMissing)
      | some timing =>
        match invocationEvidence env moment step ⟨id, .target 1, timing.startedAt⟩
            (env.now moment) (target = .cancelled) with
        | none => .error (state.stop .invocationEvidenceInvalid)
        | some record => .ok (some record, state.file step record)
    | _ :: _ :: _ => .error (state.stop .ambiguousAgentInvocation)
  else .ok (evidence, state)

/-- The summary of the step in a transition: only a recovery changes the invocations. -/
def observeSummary (step : String) (summary : Option ObservedStepTransition) :
    Except (ObserverState D) (Option RecoveryInvocationV1 × ObserverState D) :=
  match summary with
  | some (.recovery active activeInvocationId settledInvocation _ _ _ _) =>
    observeRecovery env moment state step active activeInvocationId settledInvocation
  | _ => .ok (none, state)

/-- What a transition of a step does to the invocations. -/
def observeInvocations (transition : TransitionObservation D) :
    Except (ObserverState D) (Option RecoveryInvocationV1 × ObserverState D) :=
  match transition.event with
  | .step _ step _ _ _ target => do
    let (evidence, state) ← observeSummary env moment state step transition.step
    let (evidence, state) ← observeEnd env moment state step target evidence
    observeAgent env moment state step target evidence
  | _ => .ok (none, state)

def isLeaseLossTerminalTransition (transition : TransitionObservation D) : Bool :=
  match transition.event with
  | .workflow _ _ (.cancelled .executionLeaseExpired) => true
  | _ => false

/-- The end of the run that an event reports. -/
def reportedEnd : TransitionEvent D → Option (WorkflowState D)
  | .workflow _ _ target => if target.isTerminal then some target else none
  | _ => none

/-- The times of a step: its first start and its first end. -/
def ObserverState.noteTiming : TransitionEvent D → BTreeMap String RunnerStepTiming
  | .step _ step _ _ _ target =>
    match target with
    | .starting =>
      match state.stepTimings.get? step with
      | some _ => state.stepTimings
      | none => state.stepTimings.insert step ⟨env.now moment, none⟩
    | .succeeded | .failed | .blocked | .notRun | .cancelled =>
      state.stepTimings.modify step (fun timing =>
        { timing with finishedAt := timing.finishedAt.or (some (env.now moment)) })
    | _ => state.stepTimings
  | _ => state.stepTimings

/-- The transition was enqueued: count it. -/
def ObserverState.note (event : TransitionEvent D) : ObserverState D :=
  let sequence := state.lastSequence + 1
  let state := { state with
    stepTimings := state.noteTiming env moment event
    transitionCount := state.transitionCount + 1
    lastSequence := sequence
    terminalSequence := (reportedEnd event).elim state.terminalSequence (fun _ => some sequence)
    terminalState := (reportedEnd event).or state.terminalState }
  match event with
  | .cancellationAccepted _ reason deadline =>
    let noted := { state with cancellation := some (reason, deadline) }
    if state.cancellation.isSome then noted.stop .duplicateCancellation else noted
  | _ => state

def ObserverState.noteForceAbort : TransitionEvent D → ObserverState D
  | .forceAbortAccepted _ reason phase => { state with forceAbort := some ⟨reason, phase⟩ }
  | _ => state

def observe (transition : TransitionObservation D) : ObserverState D :=
  if env.fenced moment = true ∧ isLeaseLossTerminalTransition transition = false then state
  else if state.fault.isSome then state
  else if state.transitionCount = env.transitionBudget then
    state.stop .transitionCapacityExceeded
  else if 2 ^ 64 ≤ state.lastSequence + 1 then state.stop .sequenceExhausted
  else if (reportedEnd transition.event).isSome ∧ state.terminalSequence.isSome then
    state.stop .duplicateTerminal
  else
    match observeInvocations env moment state transition with
    | .error stopped => stopped
    | .ok (_, state) =>
      let state := state.noteForceAbort transition.event
      match env.enqueue moment with
      | some failure => state.stop (.outbox failure)
      | none => state.note env moment transition.event

/-- The observer after a list of transitions, the first of them at a moment. -/
def observeFrom (env : ObserverEnvironment) :
    Nat → ObserverState D → List (TransitionObservation D) → ObserverState D
  | _, state, [] => state
  | moment, state, transition :: transitions =>
    observeFrom env (moment + 1) (observe env moment state transition) transitions

def observeAll (env : ObserverEnvironment) (transitions : List (TransitionObservation D)) :
    ObserverState D :=
  observeFrom env 0 .initial transitions

def ObserverState.invocationsForStep (step : String) : List RecoveryInvocationV1 :=
  state.settledInvocations.values.filterMap (fun settled =>
    if settled.1 = step then some settled.2 else none)

theorem observeFrom_append (transitions later : List (TransitionObservation D)) :
    observeFrom env moment state (transitions ++ later) =
      observeFrom env (moment + transitions.length) (observeFrom env moment state transitions)
        later := by
  induction transitions generalizing moment state with
  | nil => rfl
  | cons transition transitions ih =>
    rw [List.cons_append, observeFrom, observeFrom, ih, List.length_cons, Nat.add_right_comm,
      Nat.add_assoc]

end ScherzoCloud.Runner
