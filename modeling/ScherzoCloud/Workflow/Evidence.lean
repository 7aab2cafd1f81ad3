import ScherzoCloud.Workflow.Condition
import Mathlib.Data.Prod.Lex

/-!
# Node evidence

The evidence a settled node carries (`evidence.rs`): why it failed, which
prerequisites blocked it, which predicates made its condition false, why it was
not run, why it was cancelled, and the primary issue of a failed run.  Every
detail is built by a constructor that refuses malformed evidence, and the
reducer has to cope with a refusal.

The translation of the engine's driver failures into `FailureDetail` is the
type class `NodeFailureSource`; the reducer is generic in the failure cause.
-/

namespace ScherzoCloud.Workflow

def maximumPrerequisites : Nat := 1024

inductive CancellationReason where
  | userRequest
  | terminationRequest
  | callerOutputFailure
  | runnerShutdown
  | executionLeaseExpired
  | forceAbort
  deriving DecidableEq

namespace CancellationReason

def asStr : CancellationReason → String
  | userRequest => "user_request"
  | terminationRequest => "termination_request"
  | callerOutputFailure => "caller_output_failure"
  | runnerShutdown => "runner_shutdown"
  | executionLeaseExpired => "execution_lease_expired"
  | forceAbort => "force_abort"

end CancellationReason

inductive EvidenceError where
  | failureCause
  | failureDetail
  | prerequisite
  | prerequisiteCount
  | invalidConditionFalseDetail
  deriving DecidableEq

/-- `is_workflow_node_identifier` on the characters of a segment. -/
def isWorkflowNodeIdentifier : List Char → Bool
  | [] => false
  | first :: rest =>
    first.isAlpha && decide (rest.length < 64) &&
      rest.all (fun c => c.isAlphanum || c = '_' || c = '-')

/-- `is_workflow_value_identifier` on the characters of a segment. -/
def isWorkflowValueIdentifier : List Char → Bool
  | [] => false
  | first :: rest =>
    first.isLower && decide (rest.length < 64) && rest.all Char.isAlphanum

/-- Exactly `outputs.node.output` with well-formed segments. -/
def isOutputReference (value : String) : Bool :=
  match value.toList.splitOn '.' with
  | [outputs, node, output] =>
    outputs = "outputs".toList && isWorkflowNodeIdentifier node && isWorkflowValueIdentifier output
  | _ => false

/-- Where a condition may apply a pointer, as far as failure evidence admits it.
An input reference is not among them. -/
def isConditionJsonReference (value : String) : Bool :=
  value = "finalization.context" || isOutputReference value

/-- Every `~` of a token starts `~0` or `~1`. -/
def validPointerToken : List Char → Bool
  | [] => true
  | c :: rest =>
    if c = '~' then
      match rest with
      | [] => false
      | escape :: rest' => (escape = '0' || escape = '1') && validPointerToken rest'
    else validPointerToken rest

def validJsonPointer (value : String) : Bool :=
  match value.toList with
  | [] => true
  | c :: rest => c = '/' && (rest.splitOn '/').all validPointerToken

inductive FailurePhase where
  | start
  | condition
  | execution
  | outputCapture
  deriving DecidableEq

inductive FailureCode where
  | stepUnavailable
  | preparationTaskUnavailable
  | inputsUnavailable
  | outputsUnsupported
  | agentRuntimeUnavailable
  | agentStepUnavailable
  | agentAdmissionUnavailable
  | agentInputsUnavailable
  | agentInputMissingUpstream
  | agentInputTypeMismatch
  | agentSourceUnavailable
  | agentSourceTextInvalid
  | agentResultSchemaUnavailable
  | agentValueModeInvalid
  | agentAttachmentCountLimit
  | agentAttachmentBytesLimit
  | artifactStagingMismatch
  | agentStagingMismatch
  | agentInputStagingUnavailable
  | harnessStartFailed
  | harnessInputTooLarge
  | harnessFailed
  | harnessProtocolFailed
  | missingResponse
  | missingResult
  | resultValidationLimitExceeded
  | capturedValueTooLarge
  | resultSettlementFailed
  | inputInvalidName
  | inputValueCountLimit
  | inputValueSizeLimit
  | inputTotalSizeLimit
  | inputCollectionOrdinalLimit
  | inputTypeMismatch
  | inputSourceUnavailable
  | inputStagingUnavailable
  | inputLiveLimit
  | executionRootRebound
  | workingDirectoryUnavailable
  | workingDirectoryEscape
  | workingDirectoryNotDirectory
  | commandArgvInvalid
  | commandPathUnconfigured
  | executableNotFound
  | executableUnavailable
  | commandLaunchNotFound
  | commandLaunchPermissionDenied
  | commandLaunchInvalidInput
  | commandLaunchFailed
  | jsonPointerMissing
  | commandExit
  | commandWaitFailed
  | executionTaskUnavailable
  | outputUnsupported
  | captureTaskUnavailable
  | outputPathAbsolute
  | outputPathEscape
  | outputPathEmpty
  | outputMissing
  | outputSymbolicLink
  | outputParentNotDirectory
  | outputNotRegularFile
  | outputSourceUnavailable
  | outputInvalidUtf8
  | outputInvalidJson
  | outputDuplicateJsonMember
  | outputJsonSchemaMismatch
  | capturedFileCountLimit
  | capturedFileSizeLimit
  | capturedTotalSizeLimit
  | capturedGitCarrierCountLimit
  | capturedGitCarrierSizeLimit
  | capturedTotalGitCarrierSizeLimit
  | gitExecutionRootRebound
  | gitHeadUnavailable
  | gitBaselineNotAncestor
  | gitCleanlinessUnavailable
  | gitWorkspaceDirty
  | gitTreeUnavailable
  | gitRequiredObjectsUnavailable
  | gitSourceAuthorityChanged
  | gitStructureLimitExceeded
  | gitCommandTimedOut
  | gitBundleGenerationFailed
  | gitBundleProfileInvalid
  | gitBundleVerificationFailed
  | gitWorkspaceChanged
  | gitTemporaryStorageUnavailable
  | outputStagingUnavailable
  deriving DecidableEq

structure FailureDetail where
  phase : FailurePhase
  code : FailureCode
  input : Option String
  collectionIndex : Option Nat
  output : Option String
  exitCode : Option Int
  ref : Option String
  pointer : Option String
  deriving DecidableEq

namespace FailureDetail

/-- Detail without auxiliary fields. -/
def ofCode (phase : FailurePhase) (code : FailureCode) : FailureDetail :=
  ⟨phase, code, none, none, none, none, none, none⟩

/-- The phases in which a code may occur. -/
def phaseValid (phase : FailurePhase) : FailureCode → Bool
  | .jsonPointerMissing => phase = .condition
  | .stepUnavailable => phase = .start || phase = .outputCapture
  | .harnessStartFailed | .harnessInputTooLarge | .harnessFailed | .harnessProtocolFailed
  | .missingResponse | .missingResult | .resultValidationLimitExceeded | .capturedValueTooLarge
  | .resultSettlementFailed =>
    phase = .start || phase = .execution
  | .commandExit | .commandWaitFailed | .executionTaskUnavailable => phase = .execution
  | .outputUnsupported | .captureTaskUnavailable | .outputPathAbsolute | .outputPathEscape
  | .outputPathEmpty | .outputMissing | .outputSymbolicLink | .outputParentNotDirectory
  | .outputNotRegularFile | .outputSourceUnavailable | .outputInvalidUtf8 | .outputInvalidJson
  | .outputDuplicateJsonMember | .outputJsonSchemaMismatch | .capturedFileCountLimit
  | .capturedFileSizeLimit | .capturedTotalSizeLimit | .capturedGitCarrierCountLimit
  | .capturedGitCarrierSizeLimit | .capturedTotalGitCarrierSizeLimit | .gitExecutionRootRebound
  | .gitHeadUnavailable | .gitBaselineNotAncestor | .gitCleanlinessUnavailable
  | .gitWorkspaceDirty | .gitTreeUnavailable | .gitRequiredObjectsUnavailable
  | .gitSourceAuthorityChanged | .gitStructureLimitExceeded | .gitCommandTimedOut
  | .gitBundleGenerationFailed | .gitBundleProfileInvalid | .gitBundleVerificationFailed
  | .gitWorkspaceChanged | .gitTemporaryStorageUnavailable | .outputStagingUnavailable =>
    phase = .outputCapture
  | _ => phase = .start

/-- The codes that may name the input they are about. -/
def isInputPreparation : FailureCode → Bool
  | .inputValueCountLimit | .inputValueSizeLimit | .inputTotalSizeLimit
  | .inputCollectionOrdinalLimit | .inputTypeMismatch | .inputSourceUnavailable
  | .inputStagingUnavailable | .inputLiveLimit => true
  | _ => false

/-- Capture failures that must name the output they are about. -/
def isOutputFailure (phase : FailurePhase) (code : FailureCode) : Bool :=
  phase = .outputCapture &&
    !(code = .stepUnavailable || code = .outputUnsupported || code = .captureTaskUnavailable)

def inputValid (self : FailureDetail) : Bool :=
  match self.input with
  | none => self.code ≠ .inputInvalidName
  | some input =>
    if self.code = .inputInvalidName then
      input ≠ "" && decide (input.utf8ByteSize ≤ 4096)
    else isInputPreparation self.code && isWorkflowValueIdentifier input.toList

def conditionFailure (self : FailureDetail) : Bool :=
  self.phase = .condition && self.code = .jsonPointerMissing &&
    self.ref.any isConditionJsonReference && self.pointer.any validJsonPointer

/-- The consistency check behind every `FailureDetail`. -/
def validate (self : FailureDetail) : Except EvidenceError Unit :=
  if !phaseValid self.phase self.code then .error .failureDetail
  else if !self.inputValid
      || (self.collectionIndex.isSome && !isInputPreparation self.code)
      || (isOutputFailure self.phase self.code &&
          !self.output.any (fun output => isWorkflowValueIdentifier output.toList))
      || (!isOutputFailure self.phase self.code && self.output.isSome)
      || (self.exitCode.isSome && (self.code ≠ .commandExit || self.exitCode = some 0))
      || (self.phase = .condition && !self.conditionFailure)
      || (self.phase ≠ .condition && (self.ref.isSome || self.pointer.isSome)) then
    .error .failureDetail
  else .ok ()

def jsonPointerMissing (reference pointer : String) : Except EvidenceError FailureDetail :=
  let detail : FailureDetail :=
    { ofCode .condition .jsonPointerMissing with ref := some reference, pointer := some pointer }
  detail.validate.map (fun _ => detail)

end FailureDetail

/-- A failure cause of the driver, with the evidence it stands for. -/
class NodeFailureSource (C : Type) where
  nodeFailureDetail : C → FailurePhase → Except EvidenceError FailureDetail

inductive PrerequisiteKind where
  | control
  | condition
  | body
  deriving DecidableEq

/-- What a blocked node was waiting for. -/
inductive Prerequisite where
  | control (node : String)
  | condition (ref : String)
  | body (ref : String)
  deriving DecidableEq

namespace Prerequisite

/-- `Prerequisite::control`: refused for an empty node name. -/
def mkControl (node : String) : Except EvidenceError Prerequisite :=
  if node ≠ "" then .ok (.control node) else .error .prerequisite

/-- `Prerequisite::condition`: refused unless the reference names an output. -/
def mkCondition (reference : String) : Except EvidenceError Prerequisite :=
  if isOutputReference reference then .ok (.condition reference) else .error .prerequisite

/-- `Prerequisite::body`: refused unless the reference names an output. -/
def mkBody (reference : String) : Except EvidenceError Prerequisite :=
  if isOutputReference reference then .ok (.body reference) else .error .prerequisite

def kind : Prerequisite → PrerequisiteKind
  | control _ => .control
  | condition _ => .condition
  | body _ => .body

def target : Prerequisite → String
  | control node => node
  | condition ref => ref
  | body ref => ref

/-- Prerequisites are ordered by kind, then by target. -/
def orderKey (self : Prerequisite) : Nat ×ₗ String :=
  match self with
  | control node => toLex (0, node)
  | condition ref => toLex (1, ref)
  | body ref => toLex (2, ref)

theorem orderKey_injective : Function.Injective orderKey := by
  intro a b h
  cases a <;> cases b <;> simp_all [orderKey]

instance : LinearOrder Prerequisite := LinearOrder.lift' orderKey orderKey_injective

/-- Sort, then drop repetitions. -/
def sortDedup (prerequisites : List Prerequisite) : List Prerequisite :=
  (prerequisites.insertionSort (· ≤ ·)).dedup

end Prerequisite

inductive BlockedCode where
  | prerequisitesUnsatisfied
  deriving DecidableEq

structure BlockedDetail where
  code : BlockedCode
  prerequisites : List Prerequisite
  deriving DecidableEq

/-- Sorted distinct prerequisites, at least one and at most 1024. -/
def BlockedDetail.new (prerequisites : List Prerequisite) : Except EvidenceError BlockedDetail :=
  let prerequisites := Prerequisite.sortDedup prerequisites
  if prerequisites.isEmpty || decide (maximumPrerequisites < prerequisites.length) then
    .error .prerequisiteCount
  else if prerequisites.any (fun prerequisite =>
      prerequisite.target = "" ||
        (prerequisite.kind ≠ .control && !isOutputReference prerequisite.target)) then
    .error .prerequisite
  else .ok ⟨.prerequisitesUnsatisfied, prerequisites⟩

inductive NonExecutionCode where
  | failureStop
  | finalizerTriggerNotSelected
  deriving DecidableEq

structure NonExecutionDetail where
  code : NonExecutionCode
  deriving DecidableEq

structure CancellationDetail where
  code : CancellationReason
  deriving DecidableEq

inductive SkippedCode where
  | conditionFalse
  deriving DecidableEq

structure ConditionFalseDetail where
  code : SkippedCode
  evaluatedPredicates : List EvaluatedPredicate
  deriving DecidableEq

/-- A trace is evidence when it ends in the false root, every path is a valid
pointer, and no path occurs twice. -/
def ConditionFalseDetail.new (evaluatedPredicates : List EvaluatedPredicate) :
    Except EvidenceError ConditionFalseDetail :=
  if evaluatedPredicates.isEmpty
      || decide (256 < evaluatedPredicates.length)
      || evaluatedPredicates.getLast?.all (fun entry => entry.path ≠ "" || entry.result)
      || evaluatedPredicates.any (fun entry => !validJsonPointer entry.path)
      || !decide (evaluatedPredicates.map EvaluatedPredicate.path).Nodup then
    .error .invalidConditionFalseDetail
  else .ok ⟨.conditionFalse, evaluatedPredicates⟩

inductive InheritedPriorState where
  | succeeded
  | skipped
  | inherited
  deriving DecidableEq

structure InheritedDetail where
  priorAttemptId : String
  priorAttemptNumber : Nat
  priorState : InheritedPriorState
  definitionChanged : Bool
  deriving DecidableEq

inductive PrimaryIssueDetail where
  | failed (detail : FailureDetail)
  | blocked (detail : BlockedDetail)
  deriving DecidableEq

inductive PrimaryIssueState where
  | failed
  | blocked
  deriving DecidableEq

/-- The issue that decides the outcome of a failed run. -/
structure PrimaryIssue where
  node : WorkflowNode
  state : PrimaryIssueState
  detail : PrimaryIssueDetail
  deriving DecidableEq

namespace PrimaryIssue

def ofFailed (node : WorkflowNode) (detail : FailureDetail) : PrimaryIssue :=
  ⟨node, .failed, .failed detail⟩

def ofBlocked (node : WorkflowNode) (detail : BlockedDetail) : PrimaryIssue :=
  ⟨node, .blocked, .blocked detail⟩

end PrimaryIssue

end ScherzoCloud.Workflow
