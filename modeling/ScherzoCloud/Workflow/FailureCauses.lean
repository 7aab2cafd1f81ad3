import ScherzoCloud.Workflow.Evidence

/-!
# Failure causes and what is published about them

The driver reports why an invocation failed as a `StepFailureCause`.  Two parts of the
program translate it: `evidence.rs` into the `FailureDetail` that the reducer commits, and
`publication.rs` into the `FailureV1` of a recovery summary.  The second translation is
checked against the first one when a result is loaded.

`FailureCodeV1` lists the codes of `FailureCode` under the same names, without
`json_pointer_missing`; both are `FailureCode` here.  Payloads that neither translation
reads are left out.
-/

namespace ScherzoCloud.Workflow

open FailureDetail (ofCode)

inductive InputPreparationFailureKind where
  | invalidInputName
  | valueCountLimitExceeded
  | valueSizeLimitExceeded
  | totalSizeLimitExceeded
  | collectionOrdinalLimitExceeded
  | valueTypeMismatch
  | sourceUnavailable
  | stagingUnavailable
  | liveLimitExceeded
  deriving DecidableEq

/-- A name is reported as invalid only when it is not an identifier, and then without a
position in a collection. -/
structure InputPreparationFailure where
  inputIdentity : Option String
  collectionIndex : Option Nat
  kind : InputPreparationFailureKind
  named : kind = .invalidInputName →
    (∃ name, inputIdentity = some name ∧ isIdentifier name = false) ∧ collectionIndex = none
  deriving DecidableEq

inductive WorkingDirectoryFailure where
  | executionRootRebound
  | unavailable
  | escapesExecutionRoot
  | notDirectory
  deriving DecidableEq

inductive AgentInputStartFailure where
  | stepUnavailable
  | agentAdmissionUnavailable
  | inputsUnavailable
  | missingUpstreamValue
  | valueTypeMismatch
  | retainedSourceUnavailable
  | invalidRetainedText
  | resultSchemaUnavailable
  | invalidValueMode
  | attachmentCountLimitExceeded
  | attachmentBytesLimitExceeded
  | workingDirectory (failure : WorkingDirectoryFailure)
  | artifactStagingMismatch
  | agentStagingMismatch
  | stagingUnavailable
  | diagnosticSessionUnavailable
  deriving DecidableEq

inductive AgentFailureCause where
  | harnessStartFailed
  | harnessSetupFailed
  | harnessSetupRejected
  | harnessInputTooLarge
  | harnessFailed
  | harnessProtocolFailed
  | missingResponse
  | missingResult
  | resultValidationLimitExceeded
  | capturedValueTooLarge
  | resultSettlementFailed
  deriving DecidableEq

inductive CommandPreparationFailure where
  | invalidArgv
  | pathNotConfigured
  | executableNotFound
  | executableUnavailable
  deriving DecidableEq

inductive CommandLaunchFailure where
  | notFound
  | permissionDenied
  | invalidInput
  | other
  deriving DecidableEq

inductive StepStartFailure where
  | stepUnavailable
  | preparationTaskUnavailable
  | inputsUnavailable
  | inputPreparation (failure : InputPreparationFailure)
  | agentInput (failure : AgentInputStartFailure)
  | agent (failure : AgentFailureCause)
  | agentRuntimeUnavailable
  | outputsUnsupported
  | workingDirectory (failure : WorkingDirectoryFailure)
  | commandPreparation (failure : CommandPreparationFailure)
  | commandLaunch (failure : CommandLaunchFailure)
  deriving DecidableEq

inductive CommandExecutionFailure where
  | unsuccessfulExit (code : Option Int)
  | wait
  deriving DecidableEq

inductive StepExecutionFailure where
  | command (failure : CommandExecutionFailure)
  | agent (failure : AgentFailureCause)
  | taskUnavailable
  deriving DecidableEq

inductive CaptureFailureKind where
  | absolutePath
  | lexicalEscape
  | emptyPath
  | missing
  | symbolicLink
  | notDirectory
  | notRegularFile
  | sourceUnavailable
  | invalidTextEncoding
  | invalidJson
  | duplicateJsonMember
  | jsonSchemaMismatch
  | fileCountLimitExceeded
  | fileSizeLimitExceeded
  | totalSizeLimitExceeded
  | gitCarrierCountLimitExceeded
  | gitCarrierSizeLimitExceeded
  | totalGitCarrierSizeLimitExceeded
  | carrierProducerUnavailable
  | stagingUnavailable
  deriving DecidableEq

inductive GitCaptureFailure where
  | cancelled
  | executionRootRebound
  | stagingMismatch
  | headUnavailable
  | baselineNotAncestor
  | cleanlinessUnavailable
  | workspaceDirty
  | treeUnavailable
  | requiredObjectsUnavailable
  | sourceAuthorityChanged
  | gitStructureLimitExceeded
  | commandTimedOut
  | bundleGenerationFailed
  | bundleProfileInvalid
  | bundleVerificationFailed
  | workspaceChanged
  | temporaryStorageUnavailable
  | artifact
  deriving DecidableEq

inductive OutputCaptureFailure where
  | stepUnavailable
  | unsupportedOutput
  | capture (outputIdentity : String) (kind : CaptureFailureKind)
  | git (output : String) (failure : GitCaptureFailure)
  | taskUnavailable
  deriving DecidableEq

inductive RecoveryDecisionFailureKind where
  | inputTooLarge
  | invalidUtf8
  | invalidJson
  | duplicateKey
  | unknownField
  | unsupportedSchemaVersion
  | unknownDecision
  | emptySummary
  | summaryTooLong
  | emptyReason
  | reasonTooLong
  deriving DecidableEq

inductive RecoveryHandlerFailure where
  | contextUnavailable
  | handlerUnavailable
  | workingDirectoryUnavailable
  | commandPreparationFailed
  | commandLaunchFailed
  | commandWaitFailed
  | commandExitFailed (code : Option Int)
  | processQuiescenceFailed
  | resultMissing
  | resultSymbolicLink
  | resultNotRegular
  | resultUnavailable
  | resultTooLarge
  | decisionInvalid (rejection : RecoveryDecisionFailureKind)
  | agentInputFailed
  | agentFailed
  | agentResultMissing
  | agentResultInvalid (rejection : RecoveryDecisionFailureKind)
  | settlementFailed
  deriving DecidableEq

inductive StepFailureCause where
  | start (failure : StepStartFailure)
  | execution (failure : StepExecutionFailure)
  | outputCapture (failure : OutputCaptureFailure)
  | recoveryHandler (failure : RecoveryHandlerFailure)
  deriving DecidableEq

/-! The codes of single failures.  Both translations contain each of these tables. -/

def InputPreparationFailureKind.code : InputPreparationFailureKind → FailureCode
  | .invalidInputName => .inputInvalidName
  | .valueCountLimitExceeded => .inputValueCountLimit
  | .valueSizeLimitExceeded => .inputValueSizeLimit
  | .totalSizeLimitExceeded => .inputTotalSizeLimit
  | .collectionOrdinalLimitExceeded => .inputCollectionOrdinalLimit
  | .valueTypeMismatch => .inputTypeMismatch
  | .sourceUnavailable => .inputSourceUnavailable
  | .stagingUnavailable => .inputStagingUnavailable
  | .liveLimitExceeded => .inputLiveLimit

def WorkingDirectoryFailure.code : WorkingDirectoryFailure → FailureCode
  | .executionRootRebound => .executionRootRebound
  | .unavailable => .workingDirectoryUnavailable
  | .escapesExecutionRoot => .workingDirectoryEscape
  | .notDirectory => .workingDirectoryNotDirectory

def AgentInputStartFailure.code : AgentInputStartFailure → FailureCode
  | .stepUnavailable => .agentStepUnavailable
  | .agentAdmissionUnavailable => .agentAdmissionUnavailable
  | .inputsUnavailable => .agentInputsUnavailable
  | .missingUpstreamValue => .agentInputMissingUpstream
  | .valueTypeMismatch => .agentInputTypeMismatch
  | .retainedSourceUnavailable => .agentSourceUnavailable
  | .invalidRetainedText => .agentSourceTextInvalid
  | .resultSchemaUnavailable => .agentResultSchemaUnavailable
  | .invalidValueMode => .agentValueModeInvalid
  | .attachmentCountLimitExceeded => .agentAttachmentCountLimit
  | .attachmentBytesLimitExceeded => .agentAttachmentBytesLimit
  | .workingDirectory failure => failure.code
  | .artifactStagingMismatch => .artifactStagingMismatch
  | .agentStagingMismatch => .agentStagingMismatch
  | .stagingUnavailable | .diagnosticSessionUnavailable => .agentInputStagingUnavailable

def AgentFailureCause.code : AgentFailureCause → FailureCode
  | .harnessStartFailed | .harnessSetupFailed | .harnessSetupRejected => .harnessStartFailed
  | .harnessInputTooLarge => .harnessInputTooLarge
  | .harnessFailed => .harnessFailed
  | .harnessProtocolFailed => .harnessProtocolFailed
  | .missingResponse => .missingResponse
  | .missingResult => .missingResult
  | .resultValidationLimitExceeded => .resultValidationLimitExceeded
  | .capturedValueTooLarge => .capturedValueTooLarge
  | .resultSettlementFailed => .resultSettlementFailed

def CommandPreparationFailure.code : CommandPreparationFailure → FailureCode
  | .invalidArgv => .commandArgvInvalid
  | .pathNotConfigured => .commandPathUnconfigured
  | .executableNotFound => .executableNotFound
  | .executableUnavailable => .executableUnavailable

def CommandLaunchFailure.code : CommandLaunchFailure → FailureCode
  | .notFound => .commandLaunchNotFound
  | .permissionDenied => .commandLaunchPermissionDenied
  | .invalidInput => .commandLaunchInvalidInput
  | .other => .commandLaunchFailed

def CaptureFailureKind.code : CaptureFailureKind → FailureCode
  | .absolutePath => .outputPathAbsolute
  | .lexicalEscape => .outputPathEscape
  | .emptyPath => .outputPathEmpty
  | .missing => .outputMissing
  | .symbolicLink => .outputSymbolicLink
  | .notDirectory => .outputParentNotDirectory
  | .notRegularFile => .outputNotRegularFile
  | .sourceUnavailable => .outputSourceUnavailable
  | .invalidTextEncoding => .outputInvalidUtf8
  | .invalidJson => .outputInvalidJson
  | .duplicateJsonMember => .outputDuplicateJsonMember
  | .jsonSchemaMismatch => .outputJsonSchemaMismatch
  | .fileCountLimitExceeded => .capturedFileCountLimit
  | .fileSizeLimitExceeded => .capturedFileSizeLimit
  | .totalSizeLimitExceeded => .capturedTotalSizeLimit
  | .gitCarrierCountLimitExceeded => .capturedGitCarrierCountLimit
  | .gitCarrierSizeLimitExceeded => .capturedGitCarrierSizeLimit
  | .totalGitCarrierSizeLimitExceeded => .capturedTotalGitCarrierSizeLimit
  | .carrierProducerUnavailable => .gitBundleGenerationFailed
  | .stagingUnavailable => .outputStagingUnavailable

def GitCaptureFailure.code : GitCaptureFailure → FailureCode
  | .cancelled | .artifact | .stagingMismatch => .outputStagingUnavailable
  | .executionRootRebound => .gitExecutionRootRebound
  | .headUnavailable => .gitHeadUnavailable
  | .baselineNotAncestor => .gitBaselineNotAncestor
  | .cleanlinessUnavailable => .gitCleanlinessUnavailable
  | .workspaceDirty => .gitWorkspaceDirty
  | .treeUnavailable => .gitTreeUnavailable
  | .requiredObjectsUnavailable => .gitRequiredObjectsUnavailable
  | .sourceAuthorityChanged => .gitSourceAuthorityChanged
  | .gitStructureLimitExceeded => .gitStructureLimitExceeded
  | .commandTimedOut => .gitCommandTimedOut
  | .bundleGenerationFailed => .gitBundleGenerationFailed
  | .bundleProfileInvalid => .gitBundleProfileInvalid
  | .bundleVerificationFailed => .gitBundleVerificationFailed
  | .workspaceChanged => .gitWorkspaceChanged
  | .temporaryStorageUnavailable => .gitTemporaryStorageUnavailable

def startFailureDetail : StepStartFailure → FailureDetail
  | .stepUnavailable => .ofCode .start .stepUnavailable
  | .preparationTaskUnavailable => .ofCode .start .preparationTaskUnavailable
  | .inputsUnavailable => .ofCode .start .inputsUnavailable
  | .inputPreparation failure =>
    { ofCode .start failure.kind.code with
      input := failure.inputIdentity
      collectionIndex := failure.collectionIndex }
  | .agentInput failure => .ofCode .start failure.code
  | .agent failure => .ofCode .start failure.code
  | .agentRuntimeUnavailable => .ofCode .start .agentRuntimeUnavailable
  | .outputsUnsupported => .ofCode .start .outputsUnsupported
  | .workingDirectory failure => .ofCode .start failure.code
  | .commandPreparation failure => .ofCode .start failure.code
  | .commandLaunch failure => .ofCode .start failure.code

def executionFailureDetail : StepExecutionFailure → FailureDetail
  | .command (.unsuccessfulExit code) =>
    { ofCode .execution .commandExit with exitCode := code }
  | .command .wait => .ofCode .execution .commandWaitFailed
  | .agent failure => .ofCode .execution failure.code
  | .taskUnavailable => .ofCode .execution .executionTaskUnavailable

def outputCaptureFailureDetail : OutputCaptureFailure → FailureDetail
  | .stepUnavailable => .ofCode .outputCapture .stepUnavailable
  | .unsupportedOutput => .ofCode .outputCapture .outputUnsupported
  | .taskUnavailable => .ofCode .outputCapture .captureTaskUnavailable
  | .capture outputIdentity kind =>
    { ofCode .outputCapture kind.code with output := some outputIdentity }
  | .git output failure =>
    { ofCode .outputCapture failure.code with output := some output }

/-- The detail of a cause in the phase it belongs to, before it is checked. -/
def rawDetail : FailurePhase → StepFailureCause → Option FailureDetail
  | .start, .start failure => some (startFailureDetail failure)
  | .execution, .execution failure => some (executionFailureDetail failure)
  | .outputCapture, .outputCapture failure => some (outputCaptureFailureDetail failure)
  | _, _ => none

def failureDetail (phase : FailurePhase) (source : StepFailureCause) :
    Except EvidenceError FailureDetail :=
  match rawDetail phase source with
  | none => .error .failureCause
  | some detail => detail.validate.map (fun _ => detail)

instance : NodeFailureSource StepFailureCause where
  nodeFailureDetail source phase := failureDetail phase source

/-- What a failed check of a run result is about. -/
inductive RunResultInvariant where
  | attemptMetadata
  | continuation
  | workflowMetadata
  | executionMetadata
  | resultStructure
  | stepMetadata
  | finalizationMetadata
  | outcomeMetadata
  | exportMetadata
  | exportSources
  | exportValues
  | gitBranch
  | diagnosticStream
  | recovery
  | failure
  | retainedPath
  | timing
  deriving DecidableEq

structure FailureCauseV1 where
  code : FailureCode
  input : Option String
  collectionIndex : Option Nat
  output : Option String
  exitCode : Option Int
  deriving DecidableEq

def FailureCauseV1.ofCode (code : FailureCode) : FailureCauseV1 := ⟨code, none, none, none, none⟩

inductive FailurePhaseV1 where
  | start
  | execution
  | outputCapture
  deriving DecidableEq

structure FailureV1 where
  phase : FailurePhaseV1
  cause : FailureCauseV1
  deriving DecidableEq

def startFailureCause : StepStartFailure → FailureCauseV1
  | .stepUnavailable => .ofCode .stepUnavailable
  | .preparationTaskUnavailable => .ofCode .preparationTaskUnavailable
  | .inputsUnavailable => .ofCode .inputsUnavailable
  | .inputPreparation failure =>
    { FailureCauseV1.ofCode failure.kind.code with
      input := failure.inputIdentity
      collectionIndex := failure.collectionIndex }
  | .agentInput failure => .ofCode failure.code
  | .agentRuntimeUnavailable => .ofCode .agentRuntimeUnavailable
  | .agent failure => .ofCode failure.code
  | .outputsUnsupported => .ofCode .outputsUnsupported
  | .workingDirectory failure => .ofCode failure.code
  | .commandPreparation failure => .ofCode failure.code
  | .commandLaunch failure => .ofCode failure.code

def executionFailureCause : StepExecutionFailure → FailureCauseV1
  | .command (.unsuccessfulExit code) =>
    { FailureCauseV1.ofCode .commandExit with exitCode := code }
  | .command .wait => .ofCode .commandWaitFailed
  | .agent failure => .ofCode failure.code
  | .taskUnavailable => .ofCode .executionTaskUnavailable

def outputCaptureFailureCause : OutputCaptureFailure → FailureCauseV1
  | .stepUnavailable => .ofCode .stepUnavailable
  | .unsupportedOutput => .ofCode .outputUnsupported
  | .taskUnavailable => .ofCode .captureTaskUnavailable
  | .capture outputIdentity kind =>
    { FailureCauseV1.ofCode kind.code with output := some outputIdentity }
  | .git output failure => { FailureCauseV1.ofCode failure.code with output := some output }

def failureV1 : FailurePhase → StepFailureCause → Except RunResultInvariant FailureV1
  | .start, .start cause => .ok ⟨.start, startFailureCause cause⟩
  | .execution, .execution cause => .ok ⟨.execution, executionFailureCause cause⟩
  | .outputCapture, .outputCapture cause => .ok ⟨.outputCapture, outputCaptureFailureCause cause⟩
  | _, _ => .error .failure

def isInputFailureCode : FailureCode → Bool
  | .inputInvalidName | .inputValueCountLimit | .inputValueSizeLimit | .inputTotalSizeLimit
  | .inputCollectionOrdinalLimit | .inputTypeMismatch | .inputSourceUnavailable
  | .inputStagingUnavailable | .inputLiveLimit => true
  | _ => false

def isOutputFailureCode : FailureCode → Bool
  | .outputPathAbsolute | .outputPathEscape | .outputPathEmpty | .outputMissing
  | .outputSymbolicLink | .outputParentNotDirectory | .outputNotRegularFile
  | .outputSourceUnavailable | .outputInvalidUtf8 | .outputInvalidJson
  | .outputDuplicateJsonMember | .outputJsonSchemaMismatch | .capturedFileCountLimit
  | .capturedFileSizeLimit | .capturedTotalSizeLimit | .capturedGitCarrierCountLimit
  | .capturedGitCarrierSizeLimit | .capturedTotalGitCarrierSizeLimit | .gitExecutionRootRebound
  | .gitHeadUnavailable | .gitBaselineNotAncestor | .gitCleanlinessUnavailable
  | .gitWorkspaceDirty | .gitTreeUnavailable | .gitRequiredObjectsUnavailable
  | .gitSourceAuthorityChanged | .gitStructureLimitExceeded | .gitCommandTimedOut
  | .gitBundleGenerationFailed | .gitBundleProfileInvalid | .gitBundleVerificationFailed
  | .gitWorkspaceChanged | .gitTemporaryStorageUnavailable | .outputStagingUnavailable => true
  | _ => false

/-- The phases of the codes that carry nothing else; the other codes have none here. -/
def simpleFailurePhase (code : FailureCode) (phase : FailurePhaseV1) : Bool :=
  match code with
  | .stepUnavailable => phase = .start || phase = .outputCapture
  | .harnessStartFailed | .harnessInputTooLarge | .harnessFailed | .harnessProtocolFailed
  | .missingResponse | .missingResult | .resultValidationLimitExceeded | .capturedValueTooLarge
  | .resultSettlementFailed => phase = .start || phase = .execution
  | .commandWaitFailed | .executionTaskUnavailable => phase = .execution
  | .outputUnsupported | .captureTaskUnavailable => phase = .outputCapture
  | .commandExit => false
  | code => if isInputFailureCode code || isOutputFailureCode code then false else phase = .start

def validateFailure (failure : FailureV1) : Bool :=
  let cause := failure.cause
  if isInputFailureCode cause.code then
    failure.phase = .start && cause.output.isNone && cause.exitCode.isNone &&
      (if cause.code = .inputInvalidName then
        cause.collectionIndex.isNone && cause.input.any (fun input => !isIdentifier input)
      else cause.input.all isIdentifier)
  else if isOutputFailureCode cause.code then
    failure.phase = .outputCapture && cause.input.isNone && cause.collectionIndex.isNone &&
      cause.exitCode.isNone && cause.output.any isIdentifier
  else if cause.code = .commandExit then
    failure.phase = .execution && cause.input.isNone && cause.collectionIndex.isNone &&
      cause.output.isNone && decide (cause.exitCode ≠ some 0)
  else
    cause.input.isNone && cause.collectionIndex.isNone && cause.output.isNone &&
      cause.exitCode.isNone && simpleFailurePhase cause.code failure.phase

def FailurePhaseV1.phase : FailurePhaseV1 → FailurePhase
  | .start => .start
  | .execution => .execution
  | .outputCapture => .outputCapture

/-- The fields of a published failure under the names of a detail. -/
def FailureV1.asDetail (failure : FailureV1) : FailureDetail :=
  { ofCode failure.phase.phase failure.cause.code with
    input := failure.cause.input
    collectionIndex := failure.cause.collectionIndex
    output := failure.cause.output
    exitCode := failure.cause.exitCode }

/-- `failure_detail_from_recovery`: the published failure, read as a detail. -/
def detailFromRecovery (failure : FailureV1) : Option FailureDetail :=
  match failure.asDetail.validate with
  | .ok () => some failure.asDetail
  | .error _ => none

variable {phase : FailurePhase} {cause : StepFailureCause} {detail : FailureDetail}

theorem isWorkflowValueIdentifier_eq (value : String) :
    isWorkflowValueIdentifier value.toList = isIdentifier value := by
  unfold isWorkflowValueIdentifier isIdentifier
  cases value.toList with
  | nil => rfl
  | cons first rest =>
    dsimp only
    rw [Bool.and_assoc, Bool.and_assoc, Bool.and_comm (decide (rest.length < 64))]

theorem failureDetail_eq_ok (h : failureDetail phase cause = .ok detail) :
    rawDetail phase cause = some detail ∧ detail.validate = .ok () := by
  unfold failureDetail at h
  split at h
  · cases h
  · rename_i detail' hraw
    cases hvalid : detail'.validate with
    | error => rw [hvalid] at h; cases h
    | ok =>
      rw [hvalid] at h
      cases h
      exact ⟨hraw, hvalid⟩

/-- Both translations keep the same fields. -/
theorem rawDetail_eq (h : rawDetail phase cause = some detail) :
    ∃ failure, failureV1 phase cause = .ok failure ∧ failure.asDetail = detail := by
  cases phase <;> cases cause <;> cases h
  · rename_i failure
    exact ⟨_, rfl, by cases failure <;> rfl⟩
  · rename_i failure
    refine ⟨_, rfl, ?_⟩
    cases failure with
    | command failure => cases failure <;> rfl
    | _ => rfl
  · rename_i failure
    exact ⟨_, rfl, by cases failure <;> rfl⟩

theorem failureV1_of_detail (h : failureDetail phase cause = .ok detail) :
    ∃ failure, failureV1 phase cause = .ok failure ∧ failure.asDetail = detail :=
  rawDetail_eq (failureDetail_eq_ok h).1

theorem detailFromRecovery_of_detail {failure : FailureV1}
    (h : failureDetail phase cause = .ok detail) (hfailure : failureV1 phase cause = .ok failure) :
    detailFromRecovery failure = some detail := by
  obtain ⟨failure', hfailure', rfl⟩ := failureV1_of_detail h
  cases hfailure.symm.trans hfailure'
  rw [detailFromRecovery, (failureDetail_eq_ok h).2]

/-- The parts of the check of a detail that the loader makes again. -/
theorem FailureDetail.validate_parts (h : detail.validate = .ok ()) : detail.inputValid = true ∧
      (isOutputFailure detail.phase detail.code = true →
        detail.output.any (fun output => isWorkflowValueIdentifier output.toList) = true) ∧
      detail.exitCode ≠ some 0 := by
  unfold FailureDetail.validate at h
  split_ifs at h with hphase hparts
  simp only [Bool.or_eq_true, not_or, Bool.not_eq_true', Bool.and_eq_true, not_and,
    Bool.not_eq_false, decide_eq_true_eq] at hparts
  obtain ⟨⟨⟨⟨⟨⟨hinput, -⟩, houtput⟩, -⟩, hexit⟩, -⟩, -⟩ := hparts
  refine ⟨hinput, houtput, fun hzero => ?_⟩
  exact (hexit (by rw [hzero]; rfl)).2 hzero

theorem validateFailure_start (failure : StepStartFailure)
    (h : (startFailureDetail failure).validate = .ok ()) :
    validateFailure ⟨.start, startFailureCause failure⟩ = true := by
  cases failure with
  | inputPreparation failure =>
    obtain ⟨input, index, kind, named⟩ := failure
    have hinput := (FailureDetail.validate_parts h).1
    cases kind with
    | invalidInputName =>
      obtain ⟨⟨name, rfl, hname⟩, rfl⟩ := named rfl
      simp [validateFailure, startFailureCause, InputPreparationFailureKind.code,
        FailureCauseV1.ofCode, isInputFailureCode, hname]
    | _ =>
      cases input with
      | none => rfl
      | some =>
        simpa [validateFailure, startFailureCause, InputPreparationFailureKind.code,
          FailureCauseV1.ofCode, isInputFailureCode, FailureDetail.inputValid,
          startFailureDetail, ofCode, FailureDetail.isInputPreparation,
          isWorkflowValueIdentifier_eq] using hinput
  | agentInput failure =>
    cases failure with
    | workingDirectory failure => cases failure <;> rfl
    | _ => rfl
  | agent failure | workingDirectory failure | commandPreparation failure | commandLaunch failure =>
    cases failure <;> rfl
  | _ => rfl

theorem validateFailure_execution (failure : StepExecutionFailure)
    (h : (executionFailureDetail failure).validate = .ok ()) :
    validateFailure ⟨.execution, executionFailureCause failure⟩ = true := by
  cases failure with
  | command failure =>
    cases failure with
    | unsuccessfulExit code =>
      have hexit : code ≠ some 0 := (FailureDetail.validate_parts h).2.2
      simp [validateFailure, executionFailureCause, FailureCauseV1.ofCode, isInputFailureCode,
        isOutputFailureCode, hexit]
    | wait => rfl
  | agent failure => cases failure <;> rfl
  | taskUnavailable => rfl

theorem validateFailure_outputCapture (failure : OutputCaptureFailure)
    (h : (outputCaptureFailureDetail failure).validate = .ok ()) :
    validateFailure ⟨.outputCapture, outputCaptureFailureCause failure⟩ = true := by
  have houtput := (FailureDetail.validate_parts h).2.1
  -- a code of an output, in its phase: what is left is the name of the output
  have hnamed : ∀ output code, isOutputFailureCode code = true → isInputFailureCode code = false →
      isIdentifier output = true → validateFailure
        ⟨.outputCapture, { FailureCauseV1.ofCode code with output := some output }⟩ = true := by
    intro output code hcode hother hidentifier
    simp [validateFailure, FailureCauseV1.ofCode, hcode, hother, hidentifier]
  cases failure with
  | capture output kind =>
    refine hnamed output kind.code (by cases kind <;> rfl) (by cases kind <;> rfl) ?_
    rw [← isWorkflowValueIdentifier_eq]
    exact houtput (by cases kind <;> rfl)
  | git output failure =>
    refine hnamed output failure.code (by cases failure <;> rfl) (by cases failure <;> rfl) ?_
    rw [← isWorkflowValueIdentifier_eq]
    exact houtput (by cases failure <;> rfl)
  | _ => rfl

/-- A failure that the reducer accepted is published as one that the loader accepts. -/
theorem validateFailure_of_detail {failure : FailureV1} (h : failureDetail phase cause = .ok detail)
    (hfailure : failureV1 phase cause = .ok failure) : validateFailure failure = true := by
  obtain ⟨hraw, hvalid⟩ := failureDetail_eq_ok h
  cases phase <;> cases cause <;> cases hraw <;> cases hfailure
  · exact validateFailure_start _ hvalid
  · exact validateFailure_execution _ hvalid
  · exact validateFailure_outputCapture _ hvalid

end ScherzoCloud.Workflow
