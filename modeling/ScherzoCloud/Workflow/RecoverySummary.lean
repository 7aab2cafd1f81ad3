import ScherzoCloud.Workflow.Capacity
import ScherzoCloud.Workflow.FailureCauses
import ScherzoCloud.Workflow.RuntimeState
import ScherzoCloud.Workflow.SourcePaths

/-!
# Recovery summaries in a result

A published result has, for every step that was recovered, a summary of the recovery and
a record of every invocation (`publication.rs`).  The two are written by different parts
of the program, and a result is loaded only when they agree (`validate_step_recovery`).

Enumerations of the published format that only rename another one are that other one.
What the checks need to know about texts (timestamps, base64, paths) is a parameter,
`ResultFormats`.  The checks have one error without data, so they are Boolean, and the
loop over the invocations, which fails on the first bad one, is a conjunction.
-/

namespace ScherzoCloud.Workflow

structure DiagnosticStreamV1 where
  encoding : String
  data : String
  retainedBytes : Nat
  discardedBytes : Nat
  truncated : Bool
  fullyDrained : Bool
  deriving DecidableEq

structure CommandOutputV1 where
  stdout : DiagnosticStreamV1
  stderr : DiagnosticStreamV1
  deriving DecidableEq

/-- The texts that a result may contain. -/
structure ResultFormats where
  canonicalTimestamp : String → Bool
  /-- The number of bytes that a canonical base64 text stands for. -/
  base64Length : String → Option Nat

/-- `Path::components` skips empty pieces and dots, so a path is spelled by normal
components only when each piece between separators is a name. -/
def isCanonicalRelativePath (value : String) : Bool :=
  (value.toList.splitOn '/').all (fun piece => isFileName (String.ofList piece))

def validStream (formats : ResultFormats) (stream : DiagnosticStreamV1)
    (maximumStreamBytes : Nat) : Bool :=
  stream.encoding = "base64" && decide (stream.retainedBytes ≤ maximumStreamBytes) &&
    stream.truncated = decide (stream.discardedBytes ≠ 0) &&
    (stream.discardedBytes = 0 || stream.retainedBytes = maximumStreamBytes) &&
    formats.base64Length stream.data = some stream.retainedBytes

inductive RecoveryInvocationRoleV1 where
  | target
  | recoveryHandler
  deriving DecidableEq

inductive RecoveryInvocationStateV1 where
  | settled
  | cancelled
  deriving DecidableEq

inductive RecoveryDiagnosticKindV1 where
  | commandStdout
  | commandStderr
  | agentHarnessStdout
  | agentHarnessStderr
  deriving DecidableEq

structure RecoveryInvocationDiagnosticV1 where
  kind : RecoveryDiagnosticKindV1
  reference : String
  stream : DiagnosticStreamV1
  deriving DecidableEq

structure RecoveryInvocationUsageV1 where
  inputTokens : Nat
  outputTokens : Nat
  deriving DecidableEq

structure RecoveryInvocationV1 where
  invocationId : Nat
  role : RecoveryInvocationRoleV1
  targetExecution : Option Nat
  recoveryRound : Option Nat
  state : RecoveryInvocationStateV1
  startedAt : String
  finishedAt : String
  durationMilliseconds : Nat
  usage : RecoveryInvocationUsageV1
  diagnostics : List RecoveryInvocationDiagnosticV1
  diagnosticReference : Option String
  deriving DecidableEq

inductive RecoveryHandlerFailureCodeV1 where
  | contextUnavailable
  | handlerUnavailable
  | workingDirectoryUnavailable
  | commandPreparationFailed
  | commandLaunchFailed
  | commandWaitFailed
  | commandExitFailed
  | processQuiescenceFailed
  | resultMissing
  | resultSymbolicLink
  | resultNotRegular
  | resultUnavailable
  | resultTooLarge
  | decisionInvalid
  | agentInputFailed
  | agentFailed
  | agentResultMissing
  | agentResultInvalid
  | settlementFailed
  deriving DecidableEq

structure RecoveryHandlerFailureCauseV1 where
  code : RecoveryHandlerFailureCodeV1
  exitCode : Option Int
  decisionRejection : Option RecoveryDecisionFailureKind
  deriving DecidableEq

structure RecoveryHandlerFailureV1 where
  phase : RecoveryHandlerFailurePhase
  cause : RecoveryHandlerFailureCauseV1
  deriving DecidableEq

inductive RecoveryHandlerOutcomeV1 where
  | recheck
  | gaveUp
  | failed
  | cancelled
  deriving DecidableEq

structure RecoveryHandlerSummaryV1 where
  kind : RecoveryHandlerKind
  invocationId : Nat
  outcome : RecoveryHandlerOutcomeV1
  summary : Option String
  reason : Option String
  failure : Option RecoveryHandlerFailureV1
  deriving DecidableEq

structure RecoveryFailedExecutionV1 where
  executionNumber : Nat
  invocationId : Nat
  failure : FailureV1
  deriving DecidableEq

structure RecoveryRoundSummaryV1 where
  number : Nat
  failedExecution : RecoveryFailedExecutionV1
  handler : Option RecoveryHandlerSummaryV1
  deriving DecidableEq

inductive RecoveryTerminationV1 where
  | recovered (executionNumber : Nat)
  | exhausted (executionNumber : Nat)
  | gaveUp (round : Nat)
  | handlerFailed (round : Nat) (handlerFailure : RecoveryHandlerFailureV1)
  | cancelled (round : Nat) (activeRole : RecoveryInvocationRoleV1)
      (executionNumber : Option Nat)
  deriving DecidableEq

structure StepRecoverySummaryV1 where
  schemaVersion : Nat
  configuredRetries : Nat
  handlerKind : Option RecoveryHandlerKind
  rounds : List RecoveryRoundSummaryV1
  termination : RecoveryTerminationV1
  deriving DecidableEq

section Building

def RecoveryHandlerFailure.causeV1 : RecoveryHandlerFailure → RecoveryHandlerFailureCauseV1
  | .contextUnavailable => ⟨.contextUnavailable, none, none⟩
  | .handlerUnavailable => ⟨.handlerUnavailable, none, none⟩
  | .workingDirectoryUnavailable => ⟨.workingDirectoryUnavailable, none, none⟩
  | .commandPreparationFailed => ⟨.commandPreparationFailed, none, none⟩
  | .commandLaunchFailed => ⟨.commandLaunchFailed, none, none⟩
  | .commandWaitFailed => ⟨.commandWaitFailed, none, none⟩
  | .commandExitFailed code => ⟨.commandExitFailed, code, none⟩
  | .processQuiescenceFailed => ⟨.processQuiescenceFailed, none, none⟩
  | .resultMissing => ⟨.resultMissing, none, none⟩
  | .resultSymbolicLink => ⟨.resultSymbolicLink, none, none⟩
  | .resultNotRegular => ⟨.resultNotRegular, none, none⟩
  | .resultUnavailable => ⟨.resultUnavailable, none, none⟩
  | .resultTooLarge => ⟨.resultTooLarge, none, none⟩
  | .decisionInvalid rejection => ⟨.decisionInvalid, none, some rejection⟩
  | .agentInputFailed => ⟨.agentInputFailed, none, none⟩
  | .agentFailed => ⟨.agentFailed, none, none⟩
  | .agentResultMissing => ⟨.agentResultMissing, none, none⟩
  | .agentResultInvalid rejection => ⟨.agentResultInvalid, none, some rejection⟩
  | .settlementFailed => ⟨.settlementFailed, none, none⟩

def recoveryHandlerFailureV1 (phase : RecoveryHandlerFailurePhase) :
    StepFailureCause → Except RunResultInvariant RecoveryHandlerFailureV1
  | .recoveryHandler cause => .ok ⟨phase, cause.causeV1⟩
  | .start _ | .execution _ | .outputCapture _ => .error .recovery

/-- What is published about a handler.  One that has not reported is left out, unless the
handlers have to be settled. -/
def handlerSummaryV1 (requireSettledHandlers : Bool)
    (handler : RecoveryHandlerRecord StepFailureCause) :
    Except RunResultInvariant (Option RecoveryHandlerSummaryV1) :=
  let summary := fun outcome summary reason failure =>
    (⟨handler.kind, handler.invocation.transitionSequence, outcome, summary, reason, failure⟩ :
      RecoveryHandlerSummaryV1)
  match handler.outcome with
  | .recheck text reason => .ok (some (summary .recheck (some text) (some reason) none))
  | .gaveUp text reason => .ok (some (summary .gaveUp (some text) (some reason) none))
  | .failed phase cause => do
    let failure ← recoveryHandlerFailureV1 phase cause
    .ok (some (summary .failed none none (some failure)))
  | .cancelled => .ok (some (summary .cancelled none none none))
  | .starting | .running => if requireSettledHandlers then .error .recovery else .ok none

def roundSummaryV1 (requireSettledHandlers : Bool) (round : RecoveryRoundRecord StepFailureCause) :
    Except RunResultInvariant RecoveryRoundSummaryV1 := do
  let handler ← match round.handler with
    | none => Except.ok none
    | some handler => handlerSummaryV1 requireSettledHandlers handler
  let failure ← failureV1 round.failedExecution.phase round.failedExecution.cause
  .ok ⟨round.number, ⟨round.failedExecution.executionNumber,
    round.failedExecution.invocation.transitionSequence, failure⟩, handler⟩

variable (recovery : StepRecoveryState StepFailureCause)

def recoveryRoundSummariesV1
    (requireSettledHandlers : Bool) : Except RunResultInvariant (List RecoveryRoundSummaryV1) :=
  recovery.rounds.mapM (roundSummaryV1 requireSettledHandlers)

/-- The failure of the handler that ended a recovery. -/
def endingHandlerFailure (round : RecoveryRoundNumber) (phase : RecoveryHandlerFailurePhase) :
    Option StepFailureCause :=
  ((recovery.rounds.find? (fun candidate => candidate.number = round)).bind
    RecoveryRoundRecord.handler).bind (fun handler =>
      match handler.outcome with
      | .failed retained cause => if retained = phase then some cause else none
      | _ => none)

def terminationV1 : RecoveryTerminalDisposition → Except RunResultInvariant RecoveryTerminationV1
  | .recovered executionNumber => .ok (.recovered executionNumber)
  | .exhausted executionNumber => .ok (.exhausted executionNumber)
  | .gaveUp round => .ok (.gaveUp round)
  | .handlerFailed round phase =>
    match endingHandlerFailure recovery round phase with
    | none => .error .recovery
    | some cause => (recoveryHandlerFailureV1 phase cause).map (.handlerFailed round)
  | .cancelled round (.target executionNumber) =>
    .ok (.cancelled round .target (some executionNumber))
  | .cancelled round (.recoveryHandler _) => .ok (.cancelled round .recoveryHandler none)

def stepRecoverySummaryV1 : Option (StepRecoveryState StepFailureCause) →
      Except RunResultInvariant (Option StepRecoverySummaryV1)
  | none => .ok none
  | some recovery =>
    if recovery.rounds.isEmpty then
      if recovery.terminalDisposition.isNone then .ok none else .error .recovery
    else do
      let rounds ← recoveryRoundSummariesV1 recovery true
      let disposition ← match recovery.terminalDisposition with
        | none => Except.error .recovery
        | some disposition => .ok disposition
      let termination ← terminationV1 recovery disposition
      .ok (some ⟨1, recovery.configuredRounds, recovery.handlerKind, rounds, termination⟩)

end Building

inductive NodeDetail where
  | failed (detail : FailureDetail)
  | blocked (detail : BlockedDetail)
  | skipped (detail : ConditionFalseDetail)
  | notRun (detail : NonExecutionDetail)
  | cancellation (detail : CancellationDetail)
  | inherited (detail : InheritedDetail)
  deriving DecidableEq

inductive WorkflowStepStateV1 where
  | succeeded
  | inherited
  | failed
  | blocked
  | skipped
  | notRun
  | cancelled
  deriving DecidableEq

structure WorkflowStepV1 where
  id : String
  role : WorkflowNodeRole
  kind : String
  failurePolicy : FailurePolicy
  state : WorkflowStepStateV1
  recovery : Option StepRecoverySummaryV1
  invocations : List RecoveryInvocationV1
  startedAt : Option String
  durationMilliseconds : Option Nat
  detail : Option NodeDetail
  commandOutput : Option CommandOutputV1

/-- The state of a step and its detail, once the step has come to its end. -/
def stepStateV1 {V : Type} :
    StepState V → Except RunResultInvariant (WorkflowStepStateV1 × Option NodeDetail)
  | .succeeded _ => .ok (.succeeded, none)
  | .inherited detail _ _ => .ok (.inherited, some (.inherited detail))
  | .failed detail => .ok (.failed, some (.failed detail))
  | .blocked detail => .ok (.blocked, some (.blocked detail))
  | .skipped detail => .ok (.skipped, some (.skipped detail))
  | .notRun detail => .ok (.notRun, some (.notRun detail))
  | .cancelled detail => .ok (.cancelled, some (.cancellation detail))
  | .pending | .starting | .running | .capturingOutputs | .recovering _ _ | .cancelling _ =>
    .error .stepMetadata

/-- The state of a step that has come to its end can be published. -/
theorem stepStateV1_ok {V : Type} {state : StepState V} (h : state.isTerminal = true) :
    ∃ published, stepStateV1 state = .ok published := by
  cases state <;> first | exact ⟨_, rfl⟩ | cases h

variable (formats : ResultFormats) (maximumStreamBytes : Nat)

def validInvocation (invocation : RecoveryInvocationV1) : Bool :=
  invocation.invocationId ≠ 0 &&
    invocation.targetExecution.isSome ≠ invocation.recoveryRound.isSome &&
    decide (invocation.role = .target) = invocation.targetExecution.isSome &&
    formats.canonicalTimestamp invocation.startedAt &&
    formats.canonicalTimestamp invocation.finishedAt &&
    invocation.diagnosticReference.all isCanonicalRelativePath &&
    invocation.diagnostics.all (fun diagnostic =>
      isCanonicalRelativePath diagnostic.reference &&
        validStream formats diagnostic.stream maximumStreamBytes)

variable (invocations : List RecoveryInvocationV1)

def recordedExecutions : List Nat :=
  invocations.filterMap (fun invocation =>
    match invocation.role with
    | .target => invocation.targetExecution
    | .recoveryHandler => none)

def recordedRounds : List Nat :=
  invocations.filterMap (fun invocation =>
    match invocation.role with
    | .target => none
    | .recoveryHandler => invocation.recoveryRound)

def retainedDiagnosticBytes (invocation : RecoveryInvocationV1) : Nat :=
  (invocation.diagnostics.map (fun diagnostic => diagnostic.stream.retainedBytes)).sum

/-- The invocations alone: ascending identities, no execution or round twice. -/
def validInvocations : Bool :=
  invocations.all (validInvocation formats maximumStreamBytes) &&
    decide ((invocations.map RecoveryInvocationV1.invocationId).Pairwise (· < ·)) &&
    decide (recordedExecutions invocations).Nodup && decide (recordedRounds invocations).Nodup &&
    decide ((invocations.map retainedDiagnosticBytes).sum ≤ maximumRetainedStreamBytesPerRun)

def maximumRecoveryDecisionTextCodePoints : Nat := 4 * 1024

/-- A text that a recovery decision may contain. -/
def validDecisionText (text : String) : Bool :=
  text ≠ "" && decide (text.length ≤ maximumRecoveryDecisionTextCodePoints)

def validHandlerFailure (failure : RecoveryHandlerFailureV1) : Bool :=
  let decision := failure.cause.decisionRejection.isSome
  let exit := failure.cause.exitCode.isSome
  match failure.cause.code with
  | .commandExitFailed => !decision
  | .decisionInvalid | .agentResultInvalid => decision && !exit
  | _ => !decision && !exit

def validateHandlerSummary (handler : RecoveryHandlerSummaryV1) : Bool :=
  match handler.outcome with
  | .recheck | .gaveUp =>
    handler.summary.any validDecisionText && handler.reason.any validDecisionText &&
      handler.failure.isNone
  | .failed =>
    handler.failure.any validHandlerFailure && handler.summary.isNone && handler.reason.isNone
  | .cancelled => handler.summary.isNone && handler.reason.isNone && handler.failure.isNone

/-- What the handler of a round has to have ended with when the recovery ended in that
round. -/
def terminalHandlerOutcome (termination : RecoveryTerminationV1) (expectedRound : Nat) :
    Option RecoveryHandlerOutcomeV1 :=
  match termination with
  | .gaveUp round => if round = expectedRound then some .gaveUp else none
  | .handlerFailed round _ => if round = expectedRound then some .failed else none
  | .cancelled round .recoveryHandler _ => if round = expectedRound then some .cancelled else none
  | .cancelled _ .target _ | .recovered _ | .exhausted _ => none

/-- The handler of a round and its invocation; the identity of that invocation, if the
round has a handler. -/
def checkRoundHandler
    (recovery : StepRecoverySummaryV1) (expectedRound : Nat) (round : RecoveryRoundSummaryV1) :
    Option (Option Nat) :=
  match recovery.handlerKind, round.handler with
  | none, none => some none
  | some kind, some handler =>
    let outcome := (terminalHandlerOutcome recovery.termination expectedRound).getD .recheck
    let state := if handler.outcome = .cancelled then .cancelled else .settled
    if kind = handler.kind ∧ round.failedExecution.invocationId < handler.invocationId ∧
        handler.outcome = outcome ∧ validateHandlerSummary handler = true ∧
        (invocations.find? (fun invocation =>
          invocation.invocationId = handler.invocationId)).any (fun invocation =>
            invocation.role = .recoveryHandler &&
              invocation.recoveryRound = some expectedRound && invocation.state = state) then
      some (some handler.invocationId)
    else none
  | _, _ => none

def checkRound (recovery : StepRecoverySummaryV1)
    (expectedRound : Nat) (round : RecoveryRoundSummaryV1) : Bool :=
  round.number = expectedRound && round.failedExecution.executionNumber = expectedRound &&
    validateFailure round.failedExecution.failure &&
    invocations.any (fun invocation =>
      invocation.invocationId = round.failedExecution.invocationId &&
        invocation.role = .target && invocation.targetExecution = some expectedRound &&
        invocation.state = .settled) &&
    match checkRoundHandler invocations recovery expectedRound round with
    | none => false
    | some handlerInvocationId =>
      (terminalHandlerOutcome recovery.termination expectedRound).isSome ||
        (invocations.find? (fun invocation =>
          invocation.role = .target &&
            invocation.targetExecution = some (expectedRound + 1))).any (fun nextTarget =>
              decide (handlerInvocationId.getD round.failedExecution.invocationId <
                nextTarget.invocationId))

def checkRounds (invocations : List RecoveryInvocationV1) (recovery : StepRecoverySummaryV1) :
    Nat → List RecoveryRoundSummaryV1 → Bool
  | _, [] => true
  | expectedRound, round :: rounds =>
    checkRound invocations recovery expectedRound round &&
      checkRounds invocations recovery (expectedRound + 1) rounds

def terminalFailureDetail (step : WorkflowStepV1) : Option FailureDetail :=
  match step.detail with
  | some (.failed detail) => some detail
  | _ => none

/-- The end of a recovery goes with the state of its step and with the last invocations. -/
def checkTermination (step : WorkflowStepV1) (recovery : StepRecoverySummaryV1)
    (maximumTarget : Nat) : Bool :=
  let lastRound := recovery.rounds.length
  let lastHandler := recovery.rounds.getLast?.bind RecoveryRoundSummaryV1.handler
  let lastFailure := recovery.rounds.getLast?.bind (fun round =>
    detailFromRecovery round.failedExecution.failure)
  match recovery.termination with
  | .recovered executionNumber =>
    step.state = .succeeded && executionNumber = lastRound + 1 && maximumTarget = executionNumber
  | .exhausted executionNumber =>
    step.state = .failed && lastRound = recovery.configuredRetries &&
      executionNumber = lastRound + 1 && maximumTarget = executionNumber
  | .gaveUp round =>
    step.state = .failed && round = lastRound && maximumTarget = round &&
      lastHandler.any (fun handler => handler.outcome = .gaveUp) &&
      terminalFailureDetail step = lastFailure
  | .handlerFailed round handlerFailure =>
    step.state = .failed && round = lastRound && maximumTarget = round &&
      lastHandler.any (fun handler =>
        handler.outcome = .failed && handler.failure = some handlerFailure) &&
      terminalFailureDetail step = lastFailure
  | .cancelled round activeRole executionNumber =>
    step.state = .cancelled && round = lastRound &&
      (activeRole = .target && executionNumber = some maximumTarget ||
        activeRole = .recoveryHandler && executionNumber.isNone) &&
      step.invocations.any (fun invocation =>
        invocation.role = activeRole && invocation.state = .cancelled &&
          (executionNumber.isNone || invocation.targetExecution = executionNumber))

/-- The numbers of the executions and of the rounds have no gaps. -/
def checkNumbers (recovery : StepRecoverySummaryV1) (maximumTarget : Nat) : Bool :=
  (recordedExecutions invocations).insertionSort (· ≤ ·) = List.range' 1 maximumTarget &&
    match recovery.handlerKind with
    | none => (recordedRounds invocations).isEmpty
    | some _ =>
      (recordedRounds invocations).insertionSort (· ≤ ·) = List.range' 1 recovery.rounds.length

def validateStepRecovery (step : WorkflowStepV1) : Bool :=
  validInvocations formats maximumStreamBytes step.invocations &&
    match step.recovery with
    | none =>
      step.invocations.isEmpty ||
        step.kind = "agent" && step.invocations.length = 1 && step.startedAt.isSome &&
          step.invocations.all (fun invocation =>
            invocation.role = .target && invocation.targetExecution = some 1)
    | some recovery =>
      step.role = .step && recovery.schemaVersion = 1 &&
        decide (1 ≤ recovery.configuredRetries ∧ recovery.configuredRetries ≤ 10) &&
        !recovery.rounds.isEmpty &&
        decide (recovery.rounds.length ≤ recovery.configuredRetries) &&
        !step.invocations.isEmpty &&
        checkRounds step.invocations recovery 1 recovery.rounds &&
        match (recordedExecutions step.invocations).max? with
        | none => false
        | some maximumTarget =>
          checkNumbers step.invocations recovery maximumTarget &&
            checkTermination step recovery maximumTarget

end ScherzoCloud.Workflow
