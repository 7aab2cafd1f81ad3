import ScherzoCloud.Workflow.TransitionCeiling

/-!
# Agreement on the capacity of a workflow

`resolve_workflow_capacity` computes what a workflow requires.  Admission compares
the requirements with a budget, and the runner compares the capacity that an
execution spec carries with limits of its own.  Both accept every requirement that
was computed, with one exception: the outbox of a workflow with conditions is
reserved without a limit, and both checks have one.
-/

namespace ScherzoCloud.Workflow

open Collections

structure WorkflowCapacityBudget where
  maximumInvocations : Nat
  diagnosticRetentionBytes : Nat
  nativeSessionRetentionBytes : Nat
  aggregateRetentionBytes : Nat
  encodedOutboxBytes : Nat
  deriving DecidableEq

def WorkflowCapacityBudget.supportedMaximum : WorkflowCapacityBudget where
  maximumInvocations := 488
  diagnosticRetentionBytes := 134217728
  nativeSessionRetentionBytes := 67108864
  aggregateRetentionBytes := 201326592
  encodedOutboxBytes := 1024720896

inductive WorkflowExecutionContract where
  | general
  | workflowV1CloudInputsArtifactsV1
  deriving DecidableEq

/-- The failures that concern the capacity. -/
inductive CapacityAdmissionFailureKind where
  | capacitySourceBindingMismatch
  | invocationCapacityUnavailable
  | diagnosticRetentionCapacityUnavailable
  | nativeSessionRetentionCapacityUnavailable
  | aggregateRetentionCapacityUnavailable
  | encodedOutboxCapacityUnavailable
  deriving DecidableEq

inductive CapacityAdmissionLocation where
  | capacitySourceBinding
  | maximumInvocations
  | diagnosticRetention
  | nativeSessionRetention
  | aggregateRetention
  | encodedOutbox
  deriving DecidableEq

structure CapacityAdmissionFailure where
  kind : CapacityAdmissionFailureKind
  location : CapacityAdmissionLocation
  deriving DecidableEq

/-- What admission reads of a resolved workflow to bind its capacity to its sources. -/
structure ResolvedWorkflowCapacity where
  sourceClosureDigest : Option WorkflowContentDigest
  contentDigest : WorkflowContentDigest
  capacity : WorkflowCapacity
  deriving DecidableEq

structure AdmittedWorkflowCapacity where
  resolved : WorkflowCapacity
  executionContract : WorkflowExecutionContract
  maximumTransitions : Nat
  deriving DecidableEq

def WorkflowCapacity.isBoundTo (self : WorkflowCapacity) (digest : WorkflowContentDigest) : Bool :=
  self.sourceClosureDigest = digest

def ResolvedWorkflowCapacity.capacityIsBoundToSourceClosure (self : ResolvedWorkflowCapacity) :
    Bool :=
  self.sourceClosureDigest.any (fun digest =>
    digest = self.contentDigest && self.capacity.isBoundTo digest)

/-- One comparison of a requirement with the budget. -/
structure CapacityComparison where
  available : Nat
  required : Nat
  failure : CapacityAdmissionFailure

def capacityComparisons (budget : WorkflowCapacityBudget)
    (requirements : ComputedWorkflowCapacity) : List CapacityComparison :=
  [⟨budget.maximumInvocations, requirements.maximumInvocations,
      ⟨.invocationCapacityUnavailable, .maximumInvocations⟩⟩,
    ⟨budget.diagnosticRetentionBytes, requirements.diagnosticRetentionBytes,
      ⟨.diagnosticRetentionCapacityUnavailable, .diagnosticRetention⟩⟩,
    ⟨budget.nativeSessionRetentionBytes, requirements.nativeSessionRetentionBytes,
      ⟨.nativeSessionRetentionCapacityUnavailable, .nativeSessionRetention⟩⟩,
    ⟨budget.aggregateRetentionBytes, requirements.aggregateRetentionBytes,
      ⟨.aggregateRetentionCapacityUnavailable, .aggregateRetention⟩⟩]

def admitCapacity (workflow : ResolvedWorkflowCapacity) (budget : WorkflowCapacityBudget)
    (executionContract : WorkflowExecutionContract) :
    Except CapacityAdmissionFailure AdmittedWorkflowCapacity :=
  let requirements := workflow.capacity.requirements
  if !workflow.capacityIsBoundToSourceClosure then
    .error ⟨.capacitySourceBindingMismatch, .capacitySourceBinding⟩
  else match (capacityComparisons budget requirements).find?
      (fun comparison => comparison.available < comparison.required) with
  | some comparison => .error comparison.failure
  | none =>
    -- only a Cloud run has an outbox
    if executionContract = .workflowV1CloudInputsArtifactsV1
        && budget.encodedOutboxBytes < requirements.encodedOutboxBytes then
      .error ⟨.encodedOutboxCapacityUnavailable, .encodedOutbox⟩
    else .ok ⟨workflow.capacity, executionContract,
      match executionContract with
      | .general => requirements.generalMaximumTransitions
      | .workflowV1CloudInputsArtifactsV1 => requirements.cloudMaximumTransitions⟩

def maximumGeneralTransitions : Nat := 1286
def maximumSelectedTransitions : Nat := 1030
def maximumInvocations : Nat := 488
def maximumRetainedBytesPerInvocation : Nat := 4194304
def maximumDiagnosticRetentionBytes : Nat := 134217728
def maximumNativeSessionRetentionBytes : Nat := 67108864
def maximumAggregateRetentionBytes : Nat := 201326592

def ContentDigestAlgorithm.asStr : ContentDigestAlgorithm → String
  | .sha256 => "sha256"

structure WorkflowSourceClosureDigestProjection where
  algorithm : String
  value : String
  deriving DecidableEq

/-- The capacity that an execution spec carries. -/
structure ExecutionCapacityProjection where
  executionContract : String
  sourceClosureDigest : WorkflowSourceClosureDigestProjection
  generalMaximumTransitions : Nat
  selectedMaximumTransitions : Nat
  maximumInvocations : Nat
  maximumRetainedBytesPerInvocation : Nat
  diagnosticRetentionBytes : Nat
  nativeSessionRetentionBytes : Nat
  aggregateRetentionBytes : Nat
  conditionTransitionCount : Nat
  aggregateConditionTransitionBytes : Nat
  terminalResultStructureBytes : Nat
  portableResultBytes : Nat
  encodedOutboxBytes : Nat

def ExecutionCapacityProjection.conditionBounds (self : ExecutionCapacityProjection) :
    ConditionCapacityBounds :=
  ⟨self.selectedMaximumTransitions, self.conditionTransitionCount,
    self.aggregateConditionTransitionBytes, self.terminalResultStructureBytes,
    self.portableResultBytes, self.encodedOutboxBytes⟩

/-- The part of `validate_execution_spec` that is about the capacity. -/
def validExecutionSpecCapacity (workflowSourceClosureDigest : WorkflowSourceClosureDigestProjection)
    (capacity : ExecutionCapacityProjection) : Bool :=
  capacity.executionContract = "workflow_v1_cloud_inputs_artifacts@1"
    && capacity.sourceClosureDigest = workflowSourceClosureDigest
    && capacity.generalMaximumTransitions ≠ 0
    && capacity.generalMaximumTransitions ≤ maximumGeneralTransitions
    && capacity.selectedMaximumTransitions ≠ 0
    && capacity.selectedMaximumTransitions ≤ maximumSelectedTransitions
    && capacity.maximumInvocations ≠ 0
    && capacity.maximumInvocations ≤ maximumInvocations
    && capacity.maximumRetainedBytesPerInvocation ≠ 0
    && capacity.maximumRetainedBytesPerInvocation ≤ maximumRetainedBytesPerInvocation
    && capacity.maximumRetainedBytesPerInvocation ≤ capacity.diagnosticRetentionBytes
    && capacity.diagnosticRetentionBytes ≤ maximumDiagnosticRetentionBytes
    && capacity.maximumRetainedBytesPerInvocation ≤ capacity.nativeSessionRetentionBytes
    && capacity.nativeSessionRetentionBytes ≤ maximumNativeSessionRetentionBytes
    && (checkedAdd capacity.diagnosticRetentionBytes
      capacity.nativeSessionRetentionBytes).toOption = some capacity.aggregateRetentionBytes
    && capacity.aggregateRetentionBytes ≤ maximumAggregateRetentionBytes
    && validConditionCapacity capacity.conditionBounds

/-- The digest as an execution spec carries it. -/
def WorkflowContentDigest.project (self : WorkflowContentDigest) :
    WorkflowSourceClosureDigestProjection :=
  ⟨self.algorithm.asStr, self.value⟩

/-- The capacity as an execution spec carries it: what `validate_carried_capacity` compares the
carried capacity with. -/
def WorkflowCapacity.project (self : WorkflowCapacity) : ExecutionCapacityProjection where
  executionContract := "workflow_v1_cloud_inputs_artifacts@1"
  sourceClosureDigest := self.sourceClosureDigest.project
  generalMaximumTransitions := self.requirements.generalMaximumTransitions
  selectedMaximumTransitions := self.requirements.cloudMaximumTransitions
  maximumInvocations := self.requirements.maximumInvocations
  maximumRetainedBytesPerInvocation := self.requirements.maximumRetainedBytesPerInvocation
  diagnosticRetentionBytes := self.requirements.diagnosticRetentionBytes
  nativeSessionRetentionBytes := self.requirements.nativeSessionRetentionBytes
  aggregateRetentionBytes := self.requirements.aggregateRetentionBytes
  conditionTransitionCount := self.requirements.conditionTransitionCount
  aggregateConditionTransitionBytes := self.requirements.aggregateConditionTransitionBytes
  terminalResultStructureBytes := self.requirements.terminalResultStructureBytes
  portableResultBytes := self.requirements.portableResultBytes
  encodedOutboxBytes := self.requirements.encodedOutboxBytes

section Requirements

variable {counts : CapacityCounts} {requirements : ComputedWorkflowCapacity}

variable (h : BasicRequirements counts requirements)
include h

/-- With at most one handler for each round, the cloud ceiling limits the invocations. -/
theorem BasicRequirements.invocations_le
    (hhandlers : counts.handlerRounds ≤ counts.recoveryRounds) :
    requirements.maximumInvocations ≤ 488 := by
  have hcloud := h.cloud
  have hcap := h.cloud_le
  rw [h.invocations]
  split_ifs at hcloud <;> omega

/-- The retained bytes of all invocations share the budget of a run. -/
theorem BasicRequirements.native_le : requirements.nativeSessionRetentionBytes ≤ 67108864 := by
  rw [h.native, h.retained]
  calc requirements.maximumInvocations *
        min (runLogByteBudget / requirements.maximumInvocations) maximumRetainedBytesPerStream
      ≤ requirements.maximumInvocations * (runLogByteBudget / requirements.maximumInvocations) :=
        Nat.mul_le_mul_left _ (Nat.min_le_left _ _)
    _ ≤ runLogByteBudget := Nat.mul_div_le _ _

theorem BasicRequirements.retained_pos (hinvocations : requirements.maximumInvocations ≤ 488) :
    0 < requirements.maximumRetainedBytesPerInvocation := by
  rw [h.retained, Nat.lt_min]
  refine ⟨Nat.div_pos (hinvocations.trans (by decide)) h.invocations_pos, by decide⟩

theorem BasicRequirements.retained_le :
    requirements.maximumRetainedBytesPerInvocation ≤ requirements.nativeSessionRetentionBytes := by
  rw [h.native]
  exact Nat.le_mul_of_pos_left _ h.invocations_pos

end Requirements

theorem conditionChecked_ok {value result : Nat} (h : conditionChecked value = .ok result) :
    result = value ∧ value < 2 ^ 64 := by
  unfold conditionChecked at h
  split_ifs at h with hlt
  cases h
  exact ⟨rfl, hlt⟩

theorem conditionChecked_of_lt {value : Nat} (h : value < 2 ^ 64) :
    conditionChecked value = .ok value := if_pos h

theorem conditionCheckedSub_ok {failure : ConditionCapacityFailure} {left right result : Nat}
    (h : conditionCheckedSub failure left right = .ok result) :
    right ≤ left ∧ result = left - right := by
  unfold conditionCheckedSub at h
  split_ifs at h with hle
  cases h
  exact ⟨hle, rfl⟩

/-- The largest trace of a false condition in bytes. -/
theorem conditionFalseTransitionBound_eq : conditionFalseTransitionBound = .ok 33871 := by
  decide

theorem portableResultBound_ok {terminal portable : Nat}
    (h : portableResultBound terminal = .ok portable) : portable = terminal +
      (maximumEncodedRetainedStreamBytes + maximumExportMediaTypeJsonBytes) := by
  obtain ⟨bytes, hbytes, h⟩ := bind_eq_ok_iff.mp h
  rw [(conditionChecked_ok h).1, (conditionChecked_ok hbytes).1, Nat.add_assoc]

theorem calculateConditionEvidenceCapacity_ok {bytes : Nat} {evidence : ConditionEvidenceCapacity}
    (h : calculateConditionEvidenceCapacity bytes = .ok evidence) :
    evidence.conditionTransitionBytes = max (4 * bytes) 33871 ∧
      evidence.terminalResultStructureBytes = evidence.conditionTransitionBytes * 2 ∧
      evidence.portableResultBytes = evidence.terminalResultStructureBytes +
        (maximumEncodedRetainedStreamBytes + maximumExportMediaTypeJsonBytes) ∧
      evidence.conditionTransitionBytes ≤ maximumConditionTransitionBytes ∧
      evidence.terminalResultStructureBytes ≤ maximumTerminalResultStructureBytes ∧
      evidence.portableResultBytes ≤ maximumPortableResultBytes := by
  obtain ⟨pointer, hpointer, h⟩ := bind_eq_ok_iff.mp h
  obtain ⟨failure, hfailure, h⟩ := bind_eq_ok_iff.mp h
  obtain ⟨bound, hbound, h⟩ := bind_eq_ok_iff.mp h
  obtain ⟨terminal, hterminal, h⟩ := bind_eq_ok_iff.mp h
  obtain ⟨portable, hportable, h⟩ := bind_eq_ok_iff.mp h
  rw [conditionFalseTransitionBound_eq] at hbound
  cases hbound
  split_ifs at h with hclosure hcondition hstructure hresult
  cases h
  refine ⟨?_, (conditionChecked_ok hterminal).1, portableResultBound_ok hportable,
    Nat.le_of_not_lt hcondition, Nat.le_of_not_lt hstructure, Nat.le_of_not_lt hresult⟩
  have hsum := (conditionChecked_ok hfailure).1
  rw [(conditionChecked_ok hpointer).1] at hsum
  have hfour : failure = 4 * bytes := by
    unfold jsonEscapedPointerSourceMultiplier at hsum
    omega
  rw [← hfour]

theorem calculateConditionOutboxReservation_ok {cloud count condition terminal outbox : Nat}
    (h : calculateConditionOutboxReservation cloud count condition terminal = .ok outbox) :
    outbox = (cloud + runnerObservationReserve - (count + 1)) * runnerOrdinaryFrameBytes +
      condition + terminal := by
  obtain ⟨entries, hentries, h⟩ := bind_eq_ok_iff.mp h
  obtain ⟨large, hlarge, h⟩ := bind_eq_ok_iff.mp h
  obtain ⟨ordinary, hordinary, h⟩ := bind_eq_ok_iff.mp h
  obtain ⟨bytes, hbytes, h⟩ := bind_eq_ok_iff.mp h
  obtain ⟨sum, hsum, h⟩ := bind_eq_ok_iff.mp h
  rw [(conditionChecked_ok h).1, (conditionChecked_ok hsum).1, (conditionChecked_ok hbytes).1,
    (conditionCheckedSub_ok hordinary).2, (conditionChecked_ok hentries).1,
    (conditionChecked_ok hlarge).1]

/-- The reservation within the numbers. -/
theorem calculateConditionOutboxReservation_eq {cloud count condition terminal : Nat}
    (hentries : cloud + runnerObservationReserve < 2 ^ 64)
    (hcount : count + 1 ≤ cloud + runnerObservationReserve)
    (hbytes : (cloud + runnerObservationReserve - (count + 1)) * runnerOrdinaryFrameBytes +
      condition + terminal < 2 ^ 64) :
    calculateConditionOutboxReservation cloud count condition terminal =
      .ok ((cloud + runnerObservationReserve - (count + 1)) * runnerOrdinaryFrameBytes +
        condition + terminal) := by
  have hlarge : count + 1 < 2 ^ 64 := Nat.lt_of_le_of_lt hcount hentries
  have hsum : (cloud + runnerObservationReserve - (count + 1)) * runnerOrdinaryFrameBytes +
      condition < 2 ^ 64 := Nat.lt_of_le_of_lt (Nat.le_add_right _ _) hbytes
  have hordinary : (cloud + runnerObservationReserve - (count + 1)) * runnerOrdinaryFrameBytes <
      2 ^ 64 := Nat.lt_of_le_of_lt (Nat.le_add_right _ _) hsum
  refine bind_eq_ok_iff.mpr ⟨_, conditionChecked_of_lt hentries, ?_⟩
  refine bind_eq_ok_iff.mpr ⟨_, conditionChecked_of_lt hlarge, ?_⟩
  refine bind_eq_ok_iff.mpr ⟨_, if_pos hcount, ?_⟩
  refine bind_eq_ok_iff.mpr ⟨_, conditionChecked_of_lt hordinary, ?_⟩
  refine bind_eq_ok_iff.mpr ⟨_, conditionChecked_of_lt hsum, ?_⟩
  exact conditionChecked_of_lt hbytes

variable {workflow : ValidatedWorkflow} {digest : WorkflowContentDigest} {bytes : Nat}
  {capacity : WorkflowCapacity}

/-- What the conditions of a workflow add to its requirements. -/
inductive ConditionRequirements (count bytes : Nat) (requirements : ComputedWorkflowCapacity) :
    Prop
  | none (hcount : count = 0) (hnone : requirements.conditionTransitionCount = 0)
      (hcondition : requirements.aggregateConditionTransitionBytes = 0)
      (hterminal : requirements.terminalResultStructureBytes = runnerTerminalFrameBytes)
      (hportable : requirements.portableResultBytes = ordinaryPortableResultBytes)
      (houtbox : requirements.encodedOutboxBytes =
        (requirements.cloudMaximumTransitions + runnerObservationReserve) *
          runnerOrdinaryFrameBytes + (runnerTerminalFrameBytes - runnerOrdinaryFrameBytes))
  | some (hcount : count ≠ 0) (hnone : requirements.conditionTransitionCount = count)
      (evidence : ConditionEvidenceCapacity)
      (hevidence : calculateConditionEvidenceCapacity bytes = .ok evidence)
      (hcondition :
        requirements.aggregateConditionTransitionBytes = evidence.conditionTransitionBytes)
      (hterminal :
        requirements.terminalResultStructureBytes = evidence.terminalResultStructureBytes)
      (hportable : requirements.portableResultBytes = evidence.portableResultBytes)
      (houtbox : calculateConditionOutboxReservation requirements.cloudMaximumTransitions count
        evidence.conditionTransitionBytes evidence.terminalResultStructureBytes =
          .ok requirements.encodedOutboxBytes)

theorem resolveWorkflowCapacity_ok
    (h : resolveWorkflowCapacity workflow digest bytes = .ok capacity) :
    capacity.sourceClosureDigest = digest ∧
      ConditionRequirements (conditionalNodes workflow) bytes capacity.requirements ∧
      BasicRequirements ⟨workflow.steps.size, workflow.finalizers.size,
        (workflow.recoveries.values.map recoveryRounds).sum,
        (workflow.recoveries.values.map handlerRounds).sum⟩ capacity.requirements := by
  obtain ⟨counts, hcounts, h⟩ := bind_eq_ok_iff.mp h
  obtain ⟨requirements, hrequirements, h⟩ := bind_eq_ok_iff.mp h
  obtain ⟨hbasic, hcount, hcondition, hterminal, hportable, houtbox⟩ :=
    calculateCapacity_ok hrequirements
  rw [capacityCounts_ok hcounts] at hbasic
  split at h
  · rename_i hnone
    cases h
    exact ⟨rfl, .none hnone hcount hcondition hterminal hportable houtbox, hbasic⟩
  · rename_i hsome
    obtain ⟨conditional, hconditional, h⟩ := bind_eq_ok_iff.mp h
    cases h
    have hevidence : withConditionEvidence requirements (conditionalNodes workflow) bytes =
        .ok conditional := by
      cases heq : withConditionEvidence requirements (conditionalNodes workflow) bytes with
      | error =>
        rw [heq] at hconditional
        cases hconditional
      | ok =>
        rw [heq] at hconditional
        cases hconditional
        rfl
    obtain ⟨evidence, hcapacity, hevidence⟩ := bind_eq_ok_iff.mp hevidence
    obtain ⟨outbox, hreservation, hevidence⟩ := bind_eq_ok_iff.mp hevidence
    cases hevidence
    exact ⟨rfl, .some hsome rfl evidence hcapacity rfl rfl rfl hreservation,
      ⟨hbasic.general, hbasic.cloud, hbasic.general_le, hbasic.cloud_le, hbasic.invocations,
        hbasic.invocations_pos, hbasic.retained, hbasic.native, hbasic.diagnostic,
        hbasic.aggregate⟩⟩

theorem handlerRounds_le (recovery : Option ValidatedStepRecovery) :
    handlerRounds recovery ≤ recoveryRounds recovery := by
  cases recovery with
  | none => exact Nat.le_refl 0
  | some =>
    simp only [handlerRounds, recoveryRounds, Option.map_some, Option.getD_some]
    split_ifs <;> omega

theorem resolveWorkflowCapacity_invocations
    (h : resolveWorkflowCapacity workflow digest bytes = .ok capacity) :
    capacity.requirements.maximumInvocations ≤ 488 :=
  (resolveWorkflowCapacity_ok h).2.2.invocations_le
    (List.sum_le_sum (fun recovery _ => handlerRounds_le recovery))

/-- The outbox that a workflow with conditions requires is within the limit. -/
def conditionOutboxFits (workflow : ValidatedWorkflow) (sourceClosureBytes : Nat) : Prop :=
  conditionalNodes workflow = 0 ∨
    ((workflow.steps.size + workflow.finalizers.size +
            (workflow.recoveries.values.map recoveryRounds).sum) * 4 +
          (if workflow.finalizers.size = 0 then 3 else 6) +
          (workflow.recoveries.values.map handlerRounds).sum + 63 - conditionalNodes workflow) *
        runnerOrdinaryFrameBytes +
      3 * max (4 * sourceClosureBytes) 33871 ≤ maximumEncodedOutboxBytes

theorem encodedOutboxBytes_le_iff
    (h : resolveWorkflowCapacity workflow digest bytes = .ok capacity) :
    capacity.requirements.encodedOutboxBytes ≤ maximumEncodedOutboxBytes ↔
      conditionOutboxFits workflow bytes := by
  obtain ⟨-, hconditions, hbasic⟩ := resolveWorkflowCapacity_ok h
  cases hconditions with
  | none hcount _ _ _ _ houtbox =>
    refine iff_of_true ?_ (Or.inl hcount)
    have hcap := hbasic.cloud_le
    rw [houtbox]
    unfold runnerObservationReserve runnerOrdinaryFrameBytes runnerTerminalFrameBytes
      maximumEncodedOutboxBytes
    omega
  | some hcount _ _ hevidence _ _ _ houtbox =>
    obtain ⟨hcondition, hterminal, -⟩ := calculateConditionEvidenceCapacity_ok hevidence
    rw [calculateConditionOutboxReservation_ok houtbox, hterminal, hcondition, hbasic.cloud,
      conditionOutboxFits, or_iff_right hcount]
    have hentries : ∀ n : Nat, n + runnerObservationReserve - (conditionalNodes workflow + 1) =
        n + 63 - conditionalNodes workflow := by
      intro n
      unfold runnerObservationReserve
      omega
    have hevidence : ∀ a b : Nat, a + b + b * 2 = a + 3 * b := by omega
    rw [hentries, hevidence]

/-- Without conditions the reservation is the one of an ordinary outbox. -/
theorem calculateConditionOutboxReservation_ordinary {cloud : Nat} (h : cloud ≤ 1030) :
    calculateConditionOutboxReservation cloud 0 0 runnerTerminalFrameBytes =
      .ok ((cloud + runnerObservationReserve) * runnerOrdinaryFrameBytes +
        (runnerTerminalFrameBytes - runnerOrdinaryFrameBytes)) := by
  have hsame : (cloud + runnerObservationReserve - (0 + 1)) * runnerOrdinaryFrameBytes + 0 +
      runnerTerminalFrameBytes = (cloud + runnerObservationReserve) * runnerOrdinaryFrameBytes +
        (runnerTerminalFrameBytes - runnerOrdinaryFrameBytes) := by
    unfold runnerObservationReserve runnerOrdinaryFrameBytes runnerTerminalFrameBytes
    omega
  have hbytes : (cloud + runnerObservationReserve) * runnerOrdinaryFrameBytes +
      (runnerTerminalFrameBytes - runnerOrdinaryFrameBytes) < 2 ^ 64 := by
    unfold runnerObservationReserve runnerOrdinaryFrameBytes runnerTerminalFrameBytes
    omega
  have hentries : cloud + runnerObservationReserve < 2 ^ 64 := by
    unfold runnerObservationReserve
    omega
  have hone : 0 + 1 ≤ cloud + runnerObservationReserve := Nat.le_add_left _ _
  rw [calculateConditionOutboxReservation_eq hentries hone (by rw [hsame]; exact hbytes), hsame]

section

variable (h : resolveWorkflowCapacity workflow digest bytes = .ok capacity)
include h

/-- The validator of both boundaries accepts what was computed exactly if the outbox fits. -/
theorem validConditionCapacity_iff :
    validConditionCapacity capacity.project.conditionBounds = true ↔
      conditionOutboxFits workflow bytes := by
  obtain ⟨-, hconditions, hbasic⟩ := resolveWorkflowCapacity_ok h
  unfold validConditionCapacity ExecutionCapacityProjection.conditionBounds WorkflowCapacity.project
  dsimp only
  cases hconditions with
  | none hcount hnone hcondition hterminal hportable houtbox =>
    refine iff_of_true ?_ (Or.inl hcount)
    rw [if_pos hnone]
    simp only [Bool.and_eq_true, decide_eq_true_eq]
    refine ⟨⟨⟨hcondition, hterminal⟩, hportable⟩, ?_⟩
    rw [hnone, hcondition, hterminal,
      calculateConditionOutboxReservation_ordinary hbasic.cloud_le, houtbox]
    rfl
  | some hcount hsome evidence hevidence hcondition hterminal hportable houtbox =>
    obtain ⟨hbytes, hdouble, hsum, hconditionCap, hterminalCap, hportableCap⟩ :=
      calculateConditionEvidenceCapacity_ok hevidence
    have hnodes : conditionalNodes workflow ≤ maximumConditionTransitionCount := by
      have hle : conditionalNodes workflow ≤ workflow.steps.size + workflow.finalizers.size :=
        List.countP_le_length.trans (by simp [BTreeMap.values, BTreeMap.size])
      have hgeneral := hbasic.general
      have hcap := hbasic.general_le
      unfold maximumConditionTransitionCount
      dsimp only at hgeneral
      split_ifs at hgeneral <;> omega
    have hpos : 1 ≤ evidence.conditionTransitionBytes := by
      rw [hbytes]
      omega
    have hproduct : conditionCheckedProduct evidence.conditionTransitionBytes 2 =
        .ok evidence.terminalResultStructureBytes := by
      rw [hdouble] at hterminalCap ⊢
      exact conditionChecked_of_lt (Nat.lt_of_le_of_lt hterminalCap (by decide))
    have hportableSum : conditionCheckedAdd evidence.terminalResultStructureBytes
        (maximumEncodedRetainedStreamBytes + maximumExportMediaTypeJsonBytes) =
        .ok evidence.portableResultBytes := by
      rw [hsum] at hportableCap ⊢
      exact conditionChecked_of_lt (Nat.lt_of_le_of_lt hportableCap (by decide))
    rw [← encodedOutboxBytes_le_iff h, if_neg (hsome ▸ hcount), hsome, hcondition, hterminal,
      hportable, houtbox, hproduct, hportableSum]
    simp [Except.toOption, hnodes, hpos, hconditionCap, hterminalCap, hportableCap]

/-- The retention totals are within the supported maximum. -/
theorem resolveWorkflowCapacity_retention :
    capacity.requirements.nativeSessionRetentionBytes ≤ 67108864 ∧
      capacity.requirements.diagnosticRetentionBytes ≤ 134217728 ∧
      capacity.requirements.aggregateRetentionBytes ≤ 201326592 := by
  obtain ⟨-, -, hbasic⟩ := resolveWorkflowCapacity_ok h
  have hnative := hbasic.native_le
  have hdiagnostic := hbasic.diagnostic
  have haggregate := hbasic.aggregate
  omega

/-- Admission with the supported maximum accepts a general run of what was computed, and a Cloud
run exactly if the outbox fits. -/
theorem admitCapacity_supported (contract : WorkflowExecutionContract) :
    (∃ admitted, admitCapacity ⟨some digest, digest, capacity⟩ .supportedMaximum contract =
        .ok admitted) ↔ contract = .general ∨ conditionOutboxFits workflow bytes := by
  obtain ⟨hnative, hdiagnostic, haggregate⟩ := resolveWorkflowCapacity_retention h
  have hinvocations := resolveWorkflowCapacity_invocations h
  obtain ⟨hdigest, -⟩ := resolveWorkflowCapacity_ok h
  have hnone : (capacityComparisons .supportedMaximum capacity.requirements).find?
      (fun comparison => comparison.available < comparison.required) = none := by
    simp only [capacityComparisons, WorkflowCapacityBudget.supportedMaximum,
      List.find?_eq_none, List.forall_mem_cons, decide_eq_true_eq, Nat.not_lt]
    exact ⟨hinvocations, hdiagnostic, hnative, haggregate, List.forall_mem_nil _⟩
  rw [← encodedOutboxBytes_le_iff h]
  simp only [admitCapacity, ResolvedWorkflowCapacity.capacityIsBoundToSourceClosure,
    WorkflowCapacity.isBoundTo, hdigest, Option.any_some, decide_true, Bool.and_self, Bool.not_true,
    Bool.false_eq_true, if_false, hnone]
  cases contract with
  | general => simp
  | workflowV1CloudInputsArtifactsV1 =>
    simp only [decide_true, Bool.true_and, decide_eq_true_eq, reduceCtorEq, false_or]
    split_ifs with hlt
    · exact iff_of_false (fun ⟨_, heq⟩ => by cases heq) (Nat.not_le_of_lt hlt)
    · exact iff_of_true ⟨_, rfl⟩ (Nat.le_of_not_lt hlt)

/-- The runner accepts an execution spec that carries what was computed exactly if the outbox
fits. -/
theorem validExecutionSpecCapacity_iff :
    validExecutionSpecCapacity digest.project capacity.project = true ↔
      conditionOutboxFits workflow bytes := by
  rw [← validConditionCapacity_iff h]
  obtain ⟨hnative, hdiagnostic, haggregate⟩ := resolveWorkflowCapacity_retention h
  have hinvocations := resolveWorkflowCapacity_invocations h
  obtain ⟨hdigest, -, hbasic⟩ := resolveWorkflowCapacity_ok h
  have hgeneral : capacity.requirements.generalMaximumTransitions ≠ 0 := by
    rw [hbasic.general]
    split_ifs <;> omega
  have hcloud : capacity.requirements.cloudMaximumTransitions ≠ 0 := by
    rw [hbasic.cloud]
    split_ifs <;> omega
  have hretained := hbasic.retained_pos hinvocations
  have hretainedCap : capacity.requirements.maximumRetainedBytesPerInvocation ≤ 4194304 := by
    rw [hbasic.retained]
    exact Nat.min_le_right _ _
  have hle := hbasic.retained_le
  have hdouble := hbasic.diagnostic
  have hsum : checkedAdd capacity.requirements.diagnosticRetentionBytes
      capacity.requirements.nativeSessionRetentionBytes =
        .ok capacity.requirements.aggregateRetentionBytes := by
    rw [hbasic.aggregate]
    exact if_pos (by omega)
  have hdiagnosticLe : capacity.requirements.maximumRetainedBytesPerInvocation ≤
      capacity.requirements.diagnosticRetentionBytes := by omega
  have hbounds := And.intro hbasic.general_le hbasic.cloud_le
  simp only [validExecutionSpecCapacity, WorkflowCapacity.project, hdigest, hsum, Except.toOption,
    Bool.and_eq_true, decide_eq_true_eq, maximumGeneralTransitions, maximumSelectedTransitions,
    maximumInvocations, maximumRetainedBytesPerInvocation, maximumDiagnosticRetentionBytes,
    maximumNativeSessionRetentionBytes, maximumAggregateRetentionBytes, hgeneral, hcloud, hbounds,
    hbasic.invocations_pos.ne', hinvocations, hretained.ne', hretainedCap, hdiagnosticLe,
    hdiagnostic, hle, hnative, haggregate, ne_eq, not_false_eq_true, true_and]

end

/-- What was computed fits the supported maximum, is accepted by the validator, is admitted and is
accepted by the runner, all but the first exactly if the outbox fits. -/
theorem capacity_agreement_iff (h : resolveWorkflowCapacity workflow digest bytes = .ok capacity) :
    (capacity.requirements.maximumInvocations ≤ 488 ∧
      capacity.requirements.nativeSessionRetentionBytes ≤ 67108864 ∧
      capacity.requirements.diagnosticRetentionBytes ≤ 134217728 ∧
      capacity.requirements.aggregateRetentionBytes ≤ 201326592 ∧
      ∃ admitted, admitCapacity ⟨some digest, digest, capacity⟩ .supportedMaximum .general =
        .ok admitted) ∧
      (capacity.requirements.encodedOutboxBytes ≤ 1024720896 ↔ conditionOutboxFits workflow bytes) ∧
      (validConditionCapacity capacity.project.conditionBounds = true ↔
        conditionOutboxFits workflow bytes) ∧
      ((∃ admitted, admitCapacity ⟨some digest, digest, capacity⟩ .supportedMaximum
          .workflowV1CloudInputsArtifactsV1 = .ok admitted) ↔ conditionOutboxFits workflow bytes) ∧
      (validExecutionSpecCapacity digest.project capacity.project = true ↔
        conditionOutboxFits workflow bytes) := by
  obtain ⟨hnative, hdiagnostic, haggregate⟩ := resolveWorkflowCapacity_retention h
  have hgeneral := (admitCapacity_supported h .general).mpr (Or.inl rfl)
  have hcloud := admitCapacity_supported h .workflowV1CloudInputsArtifactsV1
  rw [or_iff_right nofun] at hcloud
  exact ⟨⟨resolveWorkflowCapacity_invocations h, hnative, hdiagnostic, haggregate, hgeneral⟩,
    encodedOutboxBytes_le_iff h, validConditionCapacity_iff h, hcloud,
    validExecutionSpecCapacity_iff h⟩

/-- Eighteen steps that are retried ten times each, one of them with a condition. -/
def retriedDecoded : DecodedDocument where
  document := commandDocument []
    (("z", ⟨textCommand .required (some (.disposition "a" .succeeded)) [] [], [],
        some ⟨10, none⟩⟩) ::
      ["a", "b", "c", "d", "e", "f", "g", "h", "i", "j", "k", "l", "m", "n", "o", "p", "q"].map
        (fun id => (id, ⟨textCommand .required none [] [], [], some ⟨10, none⟩⟩))) [] []
  structural := by decide

/-- The digest of the sources of the example. -/
def retriedDigest : WorkflowContentDigest :=
  ⟨.sha256, "e3b0c44298fc1c149afbf4c8996fb92427ae41e4649b934ca495991b7852b855"⟩

/-- Its capacity, for evidence of the given size. -/
def retriedCapacity (conditionBytes : Nat) : WorkflowCapacity where
  sourceClosureDigest := retriedDigest
  requirements :=
    { generalMaximumTransitions := 993
      cloudMaximumTransitions := 795
      maximumInvocations := 198
      maximumRetainedBytesPerInvocation := 338933
      diagnosticRetentionBytes := 134217468
      nativeSessionRetentionBytes := 67108734
      aggregateRetentionBytes := 201326202
      conditionTransitionCount := 1
      aggregateConditionTransitionBytes := conditionBytes
      terminalResultStructureBytes := 2 * conditionBytes
      portableResultBytes := 2 * conditionBytes + 364209496
      encodedOutboxBytes := 224657408 + 3 * conditionBytes }

theorem retriedDecoded_admitted :
    resolveWorkflowCapacity (acceptedWorkflow retriedDecoded.document) retriedDigest 4096 =
        .ok (retriedCapacity 33871) ∧
      validExecutionSpecCapacity retriedDigest.project (retriedCapacity 33871).project = true := by
  have hresolve : resolveWorkflowCapacity (acceptedWorkflow retriedDecoded.document) retriedDigest
      4096 = .ok (retriedCapacity 33871) := by decide +kernel
  exact ⟨hresolve, (capacity_agreement_iff hresolve).2.2.2.2.mpr (Or.inr (by decide))⟩

/-- With sources of 67 MB the workflow resolves, and its own outbox is over the limit: admission
and the runner refuse it. -/
theorem retriedDecoded_refused :
    validate retriedDecoded.document = .ok (acceptedWorkflow retriedDecoded.document) ∧
      resolveWorkflowCapacity (acceptedWorkflow retriedDecoded.document) retriedDigest 67000000 =
        .ok (retriedCapacity 268000000) ∧
      1024720896 < (retriedCapacity 268000000).requirements.encodedOutboxBytes ∧
      validConditionCapacity (retriedCapacity 268000000).project.conditionBounds = false ∧
      admitCapacity ⟨some retriedDigest, retriedDigest, retriedCapacity 268000000⟩
          .supportedMaximum .workflowV1CloudInputsArtifactsV1 =
        .error ⟨.encodedOutboxCapacityUnavailable, .encodedOutbox⟩ ∧
      validExecutionSpecCapacity retriedDigest.project (retriedCapacity 268000000).project =
        false := by
  refine ⟨rfl, by decide +kernel, ?_, ?_, ?_, ?_⟩ <;> decide

end ScherzoCloud.Workflow
