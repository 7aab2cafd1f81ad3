import ScherzoCloud.Workflow.Validated

/-!
# Capacity requirements of a workflow

The transition ceilings of `capacity.rs` and the byte requirements that are
computed with them.  All arithmetic is `u64` with checked operations, so every
sum and product has an overflow exit.
-/

namespace ScherzoCloud.Workflow

open Collections

inductive CapacityCalculationFailure where
  | arithmeticOverflow
  | generalTransitionCapacityExceeded
  | cloudTransitionCapacityExceeded
  | conditionEvidenceCapacityExceeded
  deriving DecidableEq

inductive ConditionCapacityFailure where
  | arithmeticOverflow
  | sourceClosureCapacityExceeded
  | conditionTransitionCapacityExceeded
  | terminalResultStructureCapacityExceeded
  | portableResultCapacityExceeded
  | outboxEntryCapacityExceeded
  deriving DecidableEq

/-- `checked_add` on `u64`. -/
def checkedAdd (left right : Nat) : Except CapacityCalculationFailure Nat :=
  if left + right < 2 ^ 64 then .ok (left + right) else .error .arithmeticOverflow

/-- `checked_mul` on `u64`. -/
def checkedProduct (left right : Nat) : Except CapacityCalculationFailure Nat :=
  if left * right < 2 ^ 64 then .ok (left * right) else .error .arithmeticOverflow

/-- A `u64` of the calculation for conditions, if it is one. -/
def conditionChecked (value : Nat) : Except ConditionCapacityFailure Nat :=
  if value < 2 ^ 64 then .ok value else .error .arithmeticOverflow

/-- `checked_add` of the calculation for conditions. -/
def conditionCheckedAdd (left right : Nat) : Except ConditionCapacityFailure Nat :=
  conditionChecked (left + right)

/-- `checked_mul` of the calculation for conditions. -/
def conditionCheckedProduct (left right : Nat) : Except ConditionCapacityFailure Nat :=
  conditionChecked (left * right)

/-- `checked_sub` of the calculation for conditions. -/
def conditionCheckedSub (failure : ConditionCapacityFailure) (left right : Nat) :
    Except ConditionCapacityFailure Nat :=
  if right ≤ left then .ok (left - right) else .error failure

theorem checkedAdd_ok {left right sum : Nat} (h : checkedAdd left right = .ok sum) :
    sum = left + right ∧ sum < 2 ^ 64 := by
  unfold checkedAdd at h
  split_ifs at h with hlt
  cases h
  exact ⟨rfl, hlt⟩

theorem checkedProduct_ok {left right product : Nat} (h : checkedProduct left right = .ok product) :
    product = left * right ∧ product < 2 ^ 64 := by
  unfold checkedProduct at h
  split_ifs at h with hlt
  cases h
  exact ⟨rfl, hlt⟩

def generalMaximumTransitionsWithoutFinalizers : Nat := 1283
def generalMaximumTransitionsWithFinalizers : Nat := 1286
def cloudMaximumTransitionsWithoutFinalizers : Nat := 1027
def cloudMaximumTransitionsWithFinalizers : Nat := 1030
def runnerObservationReserve : Nat := 64
def runnerOrdinaryFrameBytes : Nat := 262144
def runnerTerminalFrameBytes : Nat := 67108864
def ordinaryPortableResultBytes : Nat := 202027692
def maximumRetainedBytesPerStream : Nat := 4 * 1024 * 1024
def runLogByteBudget : Nat := 64 * 1024 * 1024
def maximumEncodedOutboxBytes : Nat := 1024720896
def maximumConditionTransitionCount : Nat := 256
def maximumConditionTransitionBytes : Nat := 256 * 1024 * 1024
def maximumTerminalResultStructureBytes : Nat := 512 * 1024 * 1024
def maximumPortableResultBytes : Nat := 901080408
def jsonEscapedPointerSourceMultiplier : Nat := 3
def maximumConditionPredicateNodes : Nat := 256
def maximumConditionPredicateDepth : Nat := 16
def maximumSourceClosureBytes : Nat := 64 * 1024 * 1024
def maximumExports : Nat := 4096
def maximumExportMediaTypeJsonBytes : Nat := maximumExports * 128 * 12
def maximumRetainedStreamBytesPerRun : Nat := 2 * runLogByteBudget

/-- Both streams of a run in base64, each step with a padded quartet per stream. -/
def maximumEncodedRetainedStreamBytes : Nat :=
  2 * ((maximumRetainedStreamBytesPerRun + 2) / 3 * 4 + 2 * 256 * 4)

def maximumPredicatePathSegment : String := "/all/63"
def conditionFalseTransitionPrefix : String :=
  "\x7b\"state\":\"skipped\",\"detail\":\x7b\"code\":\"condition_false\",\"evaluatedPredicates\":["
def conditionFalseEntryPrefix : String := "\x7b\"path\":\""
def conditionFalseEntrySuffix : String := "\",\"result\":false\x7d"
def conditionFalseTransitionSuffix : String := "]\x7d\x7d"

structure CapacityCounts where
  steps : Nat
  finalizers : Nat
  recoveryRounds : Nat
  handlerRounds : Nat
  deriving DecidableEq

structure ComputedWorkflowCapacity where
  generalMaximumTransitions : Nat
  cloudMaximumTransitions : Nat
  maximumInvocations : Nat
  maximumRetainedBytesPerInvocation : Nat
  diagnosticRetentionBytes : Nat
  nativeSessionRetentionBytes : Nat
  aggregateRetentionBytes : Nat
  conditionTransitionCount : Nat
  aggregateConditionTransitionBytes : Nat
  terminalResultStructureBytes : Nat
  portableResultBytes : Nat
  encodedOutboxBytes : Nat
  deriving DecidableEq

/-- Add the rounds of one recovery to the rounds so far. -/
def addRecoveryRounds (rounds : Nat × Nat) (recovery : Option ValidatedStepRecovery) :
    Except CapacityCalculationFailure (Nat × Nat) :=
  match recovery with
  | none => .ok rounds
  | some recovery => do
    let recoveryRounds ← checkedAdd rounds.1 recovery.retries
    let handlerRounds ←
      if recovery.handler.isSome then checkedAdd rounds.2 recovery.retries else .ok rounds.2
    .ok (recoveryRounds, handlerRounds)

/-- The counts with which `resolve_workflow_capacity` asks for a capacity. -/
def capacityCounts (workflow : ValidatedWorkflow) :
    Except CapacityCalculationFailure CapacityCounts := do
  let (recoveryRounds, handlerRounds) ← workflow.recoveries.values.foldlM addRecoveryRounds (0, 0)
  .ok ⟨workflow.steps.size, workflow.finalizers.size, recoveryRounds, handlerRounds⟩

def weightedBound (weightedNodes finalizers weight : Nat) :
    Except CapacityCalculationFailure Nat := do
  let product ← checkedProduct weightedNodes weight
  checkedAdd product (if finalizers = 0 then 3 else 6)

def transitionBounds (counts : CapacityCounts) :
    Except CapacityCalculationFailure (Nat × Nat × Nat) := do
  let nodes ← checkedAdd counts.steps counts.finalizers
  let weightedNodes ← checkedAdd nodes counts.recoveryRounds
  let general ← weightedBound weightedNodes counts.finalizers 5
  let cloud ← weightedBound weightedNodes counts.finalizers 4
  let cloud ← checkedAdd cloud counts.handlerRounds
  .ok (weightedNodes, general, cloud)

def validateGeneralTransitionBound (maximum finalizers : Nat) :
    Except CapacityCalculationFailure Unit :=
  let cap := if finalizers = 0 then generalMaximumTransitionsWithoutFinalizers
    else generalMaximumTransitionsWithFinalizers
  if cap < maximum then .error .generalTransitionCapacityExceeded else .ok ()

def validateCloudTransitionBound (maximum finalizers : Nat) :
    Except CapacityCalculationFailure Unit :=
  let cap := if finalizers = 0 then cloudMaximumTransitionsWithoutFinalizers
    else cloudMaximumTransitionsWithFinalizers
  if cap < maximum then .error .cloudTransitionCapacityExceeded else .ok ()

def calculateCapacity (counts : CapacityCounts) :
    Except CapacityCalculationFailure ComputedWorkflowCapacity := do
  let (weightedNodes, generalMaximumTransitions, cloudMaximumTransitions) ← transitionBounds counts
  validateGeneralTransitionBound generalMaximumTransitions counts.finalizers
  validateCloudTransitionBound cloudMaximumTransitions counts.finalizers
  let maximumInvocations ← checkedAdd weightedNodes counts.handlerRounds
  if maximumInvocations = 0 then .error .arithmeticOverflow
  else
    let retainedBytesPerInvocation :=
      min (runLogByteBudget / maximumInvocations) maximumRetainedBytesPerStream
    let nativeSessionRetentionBytes ← checkedProduct maximumInvocations retainedBytesPerInvocation
    let diagnosticRetentionBytes ← checkedProduct nativeSessionRetentionBytes 2
    let aggregateRetentionBytes ← checkedAdd diagnosticRetentionBytes nativeSessionRetentionBytes
    let encodedOutboxEntries ← checkedAdd cloudMaximumTransitions runnerObservationReserve
    let ordinaryBytes ← checkedProduct encodedOutboxEntries runnerOrdinaryFrameBytes
    let encodedOutboxBytes ←
      checkedAdd ordinaryBytes (runnerTerminalFrameBytes - runnerOrdinaryFrameBytes)
    .ok {
      generalMaximumTransitions := generalMaximumTransitions
      cloudMaximumTransitions := cloudMaximumTransitions
      maximumInvocations := maximumInvocations
      maximumRetainedBytesPerInvocation := retainedBytesPerInvocation
      diagnosticRetentionBytes := diagnosticRetentionBytes
      nativeSessionRetentionBytes := nativeSessionRetentionBytes
      aggregateRetentionBytes := aggregateRetentionBytes
      conditionTransitionCount := 0
      aggregateConditionTransitionBytes := 0
      terminalResultStructureBytes := runnerTerminalFrameBytes
      portableResultBytes := ordinaryPortableResultBytes
      encodedOutboxBytes := encodedOutboxBytes }

structure ConditionEvidenceCapacity where
  maximumJsonEscapedPointerBytes : Nat
  conditionTransitionBytes : Nat
  terminalResultStructureBytes : Nat
  portableResultBytes : Nat
  deriving DecidableEq

def conditionEncodedBytes (value : String) : Except ConditionCapacityFailure Nat :=
  conditionChecked value.utf8ByteSize

/-- The largest transition of a condition that is false: every predicate is traced, each with the
longest path. -/
def conditionFalseTransitionBound : Except ConditionCapacityFailure Nat := do
  let segments ← conditionCheckedSub .arithmeticOverflow maximumConditionPredicateDepth 1
  let segmentBytes ← conditionEncodedBytes maximumPredicatePathSegment
  let maximumPathBytes ← conditionCheckedProduct segments segmentBytes
  let entryPrefixBytes ← conditionEncodedBytes conditionFalseEntryPrefix
  let entrySuffixBytes ← conditionEncodedBytes conditionFalseEntrySuffix
  let bytes ← conditionCheckedAdd entryPrefixBytes maximumPathBytes
  let maximumEntryBytes ← conditionCheckedAdd bytes entrySuffixBytes
  let entries ← conditionCheckedProduct maximumConditionPredicateNodes maximumEntryBytes
  let separators ← conditionCheckedSub .arithmeticOverflow maximumConditionPredicateNodes 1
  let entriesBytes ← conditionCheckedAdd entries separators
  let transitionPrefixBytes ← conditionEncodedBytes conditionFalseTransitionPrefix
  let transitionSuffixBytes ← conditionEncodedBytes conditionFalseTransitionSuffix
  let bytes ← conditionCheckedAdd transitionPrefixBytes entriesBytes
  conditionCheckedAdd bytes transitionSuffixBytes

def portableResultBound (terminalResultStructureBytes : Nat) :
    Except ConditionCapacityFailure Nat := do
  let bytes ← conditionCheckedAdd terminalResultStructureBytes maximumEncodedRetainedStreamBytes
  conditionCheckedAdd bytes maximumExportMediaTypeJsonBytes

def calculateConditionEvidenceCapacity (sourceClosureBytes : Nat) :
    Except ConditionCapacityFailure ConditionEvidenceCapacity := do
  let maximumJsonEscapedPointerBytes ←
    conditionCheckedProduct sourceClosureBytes jsonEscapedPointerSourceMultiplier
  let pointerFailureTransitionBytes ←
    conditionCheckedAdd maximumJsonEscapedPointerBytes sourceClosureBytes
  let falseBound ← conditionFalseTransitionBound
  let conditionTransitionBytes := max pointerFailureTransitionBytes falseBound
  let terminalResultStructureBytes ← conditionCheckedProduct conditionTransitionBytes 2
  let portableResultBytes ← portableResultBound terminalResultStructureBytes
  if maximumSourceClosureBytes < sourceClosureBytes then .error .sourceClosureCapacityExceeded
  else if maximumConditionTransitionBytes < conditionTransitionBytes then
    .error .conditionTransitionCapacityExceeded
  else if maximumTerminalResultStructureBytes < terminalResultStructureBytes then
    .error .terminalResultStructureCapacityExceeded
  else if maximumPortableResultBytes < portableResultBytes then
    .error .portableResultCapacityExceeded
  else .ok ⟨maximumJsonEscapedPointerBytes, conditionTransitionBytes,
    terminalResultStructureBytes, portableResultBytes⟩

/-- The outbox holds the large entries of the conditions and of the result, and ordinary frames. -/
def calculateConditionOutboxReservation (cloudMaximumTransitions conditionTransitionCount
    aggregateConditionTransitionBytes terminalResultStructureBytes : Nat) :
    Except ConditionCapacityFailure Nat := do
  let entries ← conditionCheckedAdd cloudMaximumTransitions runnerObservationReserve
  let classifiedLargeEntries ← conditionCheckedAdd conditionTransitionCount 1
  let ordinaryEntries ←
    conditionCheckedSub .outboxEntryCapacityExceeded entries classifiedLargeEntries
  let ordinaryBytes ← conditionCheckedProduct ordinaryEntries runnerOrdinaryFrameBytes
  let bytes ← conditionCheckedAdd ordinaryBytes aggregateConditionTransitionBytes
  conditionCheckedAdd bytes terminalResultStructureBytes

/-- What portable results and the runner check about the capacity of conditions. -/
structure ConditionCapacityBounds where
  selectedMaximumTransitions : Nat
  conditionTransitionCount : Nat
  aggregateConditionTransitionBytes : Nat
  terminalResultStructureBytes : Nat
  portableResultBytes : Nat
  encodedOutboxBytes : Nat
  deriving DecidableEq

def validConditionCapacity (capacity : ConditionCapacityBounds) : Bool :=
  let expectedOutbox := (calculateConditionOutboxReservation capacity.selectedMaximumTransitions
    capacity.conditionTransitionCount capacity.aggregateConditionTransitionBytes
    capacity.terminalResultStructureBytes).toOption
  if capacity.conditionTransitionCount = 0 then
    capacity.aggregateConditionTransitionBytes = 0
      && capacity.terminalResultStructureBytes = runnerTerminalFrameBytes
      && capacity.portableResultBytes = ordinaryPortableResultBytes
      && expectedOutbox = some capacity.encodedOutboxBytes
  else
    capacity.conditionTransitionCount ≤ maximumConditionTransitionCount
      && 1 ≤ capacity.aggregateConditionTransitionBytes
      && capacity.aggregateConditionTransitionBytes ≤ maximumConditionTransitionBytes
      && (conditionCheckedProduct capacity.aggregateConditionTransitionBytes 2).toOption =
        some capacity.terminalResultStructureBytes
      && capacity.terminalResultStructureBytes ≤ maximumTerminalResultStructureBytes
      && (conditionCheckedAdd capacity.terminalResultStructureBytes
        (maximumEncodedRetainedStreamBytes + maximumExportMediaTypeJsonBytes)).toOption =
        some capacity.portableResultBytes
      && capacity.portableResultBytes ≤ maximumPortableResultBytes
      && expectedOutbox = some capacity.encodedOutboxBytes
      && capacity.encodedOutboxBytes ≤ maximumEncodedOutboxBytes

inductive ContentDigestAlgorithm where
  | sha256
  deriving DecidableEq

structure WorkflowContentDigest where
  algorithm : ContentDigestAlgorithm
  value : String
  deriving DecidableEq

structure WorkflowCapacity where
  sourceClosureDigest : WorkflowContentDigest
  requirements : ComputedWorkflowCapacity
  deriving DecidableEq

/-- The number of nodes with a condition. -/
def conditionalNodes (workflow : ValidatedWorkflow) : Nat :=
  (workflow.steps.values ++ workflow.finalizers.values.map ValidatedFinalizer.body).countP
    (fun step => (commonStep step).condition.isSome)

/-- The requirements of a workflow with conditions. -/
def withConditionEvidence (requirements : ComputedWorkflowCapacity)
    (conditionTransitionCount sourceClosureBytes : Nat) :
    Except ConditionCapacityFailure ComputedWorkflowCapacity := do
  let evidence ← calculateConditionEvidenceCapacity sourceClosureBytes
  let encodedOutboxBytes ← calculateConditionOutboxReservation requirements.cloudMaximumTransitions
    conditionTransitionCount evidence.conditionTransitionBytes
    evidence.terminalResultStructureBytes
  .ok { requirements with
    conditionTransitionCount := conditionTransitionCount
    aggregateConditionTransitionBytes := evidence.conditionTransitionBytes
    terminalResultStructureBytes := evidence.terminalResultStructureBytes
    portableResultBytes := evidence.portableResultBytes
    encodedOutboxBytes := encodedOutboxBytes }

def resolveWorkflowCapacity (workflow : ValidatedWorkflow)
    (sourceClosureDigest : WorkflowContentDigest) (sourceClosureBytes : Nat) :
    Except CapacityCalculationFailure WorkflowCapacity := do
  let counts ← capacityCounts workflow
  let requirements ← calculateCapacity counts
  if conditionalNodes workflow = 0 then .ok ⟨sourceClosureDigest, requirements⟩
  else
    let requirements ← (withConditionEvidence requirements (conditionalNodes workflow)
      sourceClosureBytes).mapError (fun _ => .conditionEvidenceCapacityExceeded)
    .ok ⟨sourceClosureDigest, requirements⟩

end ScherzoCloud.Workflow
