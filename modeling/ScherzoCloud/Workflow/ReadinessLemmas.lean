import ScherzoCloud.Workflow.RuntimeReadiness

/-!
# What the queries of the reducer depend on

The queries about prerequisites, inputs and conditions read of another node
only what it settled with.  Two states that agree on the settled nodes
(`SettledAlike`) therefore answer them alike, whatever the unsettled nodes do.
-/

namespace ScherzoCloud.Workflow

open StepState (isPending isTerminal)
open Collections

variable {C V D : Type} {state : StepState V} {s : RuntimeState C V D} {id : String}
  {disposition : PendingDisposition} {d : RuntimeStep}

/-- Two lookups of a node: both fail, both find the same state, or both find an
unsettled state. -/
def NodeAlike (a b : Option (StepRuntimeState C V)) : Prop :=
  (a = none ∧ b = none) ∨ ∃ rt rt', a = some rt ∧ b = some rt' ∧
    (rt'.state = rt.state ∨ rt.state.isTerminal = false ∧ rt'.state.isTerminal = false)

theorem NodeAlike.refl (a : Option (StepRuntimeState C V)) : NodeAlike a a := by
  cases a with
  | none => exact Or.inl ⟨rfl, rfl⟩
  | some rt => exact Or.inr ⟨rt, rt, rfl, rfl, Or.inl rfl⟩

/-- Two states of one run that agree on the settled nodes. -/
structure SettledAlike (s t : RuntimeState C V D) : Prop where
  definition : t.definition = s.definition
  finalization : t.finalization = s.finalization
  nodes : ∀ id, NodeAlike (s.steps.get? id) (t.steps.get? id)

theorem stepDataAvailable_of_unsettled (h : state.isTerminal = false) :
    stepDataAvailable state = false := by
  cases state <;> simp_all [isTerminal, stepDataAvailable]

theorem stepOutputs_of_unsettled (h : state.isTerminal = false) : stepOutputs state = none := by
  cases state <;> simp_all [isTerminal, stepOutputs]

namespace SettledAlike

variable {t : RuntimeState C V D} (h : SettledAlike s t)

include h

theorem stepIs {p : StepState V → Bool}
    (hp : ∀ state : StepState V, state.isTerminal = false → p state = false) (id : String) :
    stepIs t id p = stepIs s id p := by
  unfold Workflow.stepIs
  rcases h.nodes id with ⟨ha, hb⟩ | ⟨rt, rt', ha, hb, heq | ⟨hs, ht⟩⟩
  · simp [ha, hb]
  · simp [ha, hb, heq]
  · simp [ha, hb, hp _ hs, hp _ ht]

theorem ordinaryControlSatisfied (p : ResolvedDirectPrerequisite) :
    ordinaryControlSatisfied t p = ordinaryControlSatisfied s p := by
  unfold Workflow.ordinaryControlSatisfied
  rw [h.definition]
  rcases h.nodes p.producer with ⟨ha, hb⟩ | ⟨rt, rt', ha, hb, heq | ⟨hs, ht⟩⟩
  · simp only [ha, hb]
  · simp only [ha, hb, heq]
  · simp only [ha, hb]
    cases hrt : rt.state <;> cases hrt' : rt'.state <;> simp_all [isTerminal]

theorem ordinaryPrerequisiteSatisfied (p : ResolvedDirectPrerequisite) :
    ordinaryPrerequisiteSatisfied t p = ordinaryPrerequisiteSatisfied s p := by
  have hcontrol := h.ordinaryControlSatisfied p
  unfold Workflow.ordinaryPrerequisiteSatisfied
  rw [hcontrol]
  rcases h.nodes p.producer with ⟨ha, hb⟩ | ⟨rt, rt', ha, hb, heq | ⟨hs, ht⟩⟩
  · simp only [ha, hb]
  · simp only [ha, hb, heq]
  · simp only [ha, hb, hs, ht, stepDataAvailable_of_unsettled hs, stepDataAvailable_of_unsettled ht]

theorem producerOutputs (id : String) :
    (t.steps.get? id).bind (fun producer => stepOutputs producer.state) =
      (s.steps.get? id).bind (fun producer => stepOutputs producer.state) := by
  rcases h.nodes id with ⟨ha, hb⟩ | ⟨rt, rt', ha, hb, heq | ⟨hs, ht⟩⟩
  · simp [ha, hb]
  · simp [ha, hb, heq]
  · simp [ha, hb, stepOutputs_of_unsettled hs, stepOutputs_of_unsettled ht]

theorem resolvedActionInput (source : ResolvedValueSource) :
    resolvedActionInput t source = resolvedActionInput s source := by
  cases source with
  | input => rfl
  | finalizationContext => simp only [Workflow.resolvedActionInput, h.finalization]
  | output => simp only [Workflow.resolvedActionInput, h.producerOutputs]

theorem resolvedActionInputs (d : RuntimeStep) :
    resolvedActionInputs t d = resolvedActionInputs s d := by
  unfold Workflow.resolvedActionInputs
  rw [funext h.resolvedActionInput]

theorem unavailableReferences (d : RuntimeStep) :
    unavailableReferences t d = unavailableReferences s d := by
  unfold Workflow.unavailableReferences
  refine List.filterMap_congr ?_
  intro descriptor _
  cases descriptor with
  | control | condition => rfl
  | body => simp only [h.stepIs fun _ => stepDataAvailable_of_unsettled]

/-- Readiness of a node also needs that the node itself is pending. -/
theorem nodeReady {id : String}
    (hpending : Workflow.stepIs t id isPending = Workflow.stepIs s id isPending)
    (role : WorkflowNodeRole) (d : RuntimeStep) :
    nodeReady t role id d = nodeReady s role id d := by
  cases role with
  | step =>
    simp only [Workflow.nodeReady, ordinaryReady, hpending,
      funext h.ordinaryPrerequisiteSatisfied]
  | finalizer =>
    simp only [Workflow.nodeReady, finalizerReady, h.finalization, hpending,
      h.stepIs fun _ hstate => hstate, h.unavailableReferences]

end SettledAlike

theorem isPending_iff : state.isPending = true ↔ state = .pending := by
  cases state <;> simp [isPending]

theorem stepIs_isPending : stepIs s id isPending = true ↔
      ∃ rt, s.steps.get? id = some rt ∧ rt.state = .pending := by
  simp only [stepIs, Option.any_eq_true, isPending_iff]

theorem toOption_eq_some_iff {ε α : Type} {x : Except ε α} {a : α} :
    x.toOption = some a ↔ x = .ok a := by
  cases x <;> simp [Except.toOption]

theorem ordinaryPendingDisposition_spec {step : String}
    (h : ordinaryPendingDisposition s id = some (step, disposition)) :
    step = id ∧ ∃ d rt, s.definition.steps.get? id = some d ∧ s.steps.get? id = some rt ∧
      rt.state = .pending ∧ ((∃ detail, disposition = .blocked detail ∧
          BlockedDetail.new (ordinaryUnsatisfiedPrerequisites s id d) = .ok detail) ∨
        disposition = .notRun ∧ ordinaryUnsatisfiedPrerequisites s id d = [] ∧
          failureStopped s = true ∧
          d.prerequisites.all (ordinaryPrerequisiteSatisfied s) = true) := by
  unfold ordinaryPendingDisposition at h
  simp only [Option.bind_eq_bind, Option.bind_eq_some_iff] at h
  obtain ⟨d, hd, rt, hrt, h⟩ := h
  split_ifs at h with hpending hblockers hstopped
  · obtain ⟨detail, hdetail, heq⟩ := Option.map_eq_some_iff.mp h
    simp only [Prod.mk.injEq] at heq
    obtain ⟨rfl, rfl⟩ := heq
    exact ⟨rfl, d, rt, hd, hrt, isPending_iff.mp (by simpa using hpending),
      Or.inl ⟨detail, rfl, toOption_eq_some_iff.mp hdetail⟩⟩
  · simp only [Option.some.injEq, Prod.mk.injEq] at h
    obtain ⟨rfl, rfl⟩ := h
    simp only [Bool.and_eq_true] at hstopped
    exact ⟨rfl, d, rt, hd, hrt, isPending_iff.mp (by simpa using hpending),
      Or.inr ⟨rfl, by simpa using hblockers, hstopped.1, hstopped.2⟩⟩

theorem nextOrdinaryPendingDisposition_spec
    (h : nextOrdinaryPendingDisposition s = some (id, disposition)) :
    id ∈ s.definition.ordinaryIds ∧ ordinaryPendingDisposition s id = some (id, disposition) := by
  obtain ⟨id', hmem, heq⟩ := List.exists_of_findSome?_eq_some h
  obtain ⟨rfl, -⟩ := ordinaryPendingDisposition_spec heq
  exact ⟨hmem, heq⟩

theorem nextFinalizerConditionBlock_spec {detail : BlockedDetail}
    (h : nextFinalizerConditionBlock s = some (id, detail)) : id ∈ s.definition.finalizerIds ∧
      ∃ d rt, s.definition.steps.get? id = some d ∧ s.steps.get? id = some rt ∧
        rt.state = .pending ∧ d.condition.isSome = true ∧ rt.conditionPassed = false ∧
        conditionPhaseGateOpen s d = true ∧
        BlockedDetail.new (conditionBlockers s d) = .ok detail := by
  obtain ⟨id', hmem, heq⟩ := List.exists_of_findSome?_eq_some h
  unfold finalizerConditionBlock at heq
  simp only [Option.bind_eq_bind, Option.bind_eq_some_iff] at heq
  obtain ⟨d, hd, rt, hrt, heq⟩ := heq
  split_ifs at heq with hguard
  obtain ⟨detail', hdetail, hpair⟩ := Option.map_eq_some_iff.mp heq
  simp only [Prod.mk.injEq] at hpair
  obtain ⟨rfl, rfl⟩ := hpair
  simp only [Bool.or_eq_true, not_or, Bool.not_eq_true, Bool.not_eq_false',
    Option.isNone_eq_false_iff] at hguard
  obtain ⟨⟨⟨hcondition, hpassed⟩, hpending⟩, hgate⟩ := hguard
  exact ⟨hmem, d, rt, hd, hrt, isPending_iff.mp hpending, hcondition, hpassed, hgate,
    toOption_eq_some_iff.mp hdetail⟩

theorem nextInputUnavailable_spec {references : List String}
    (h : nextInputUnavailable s = some (id, references)) : id ∈ s.definition.finalizerIds ∧
      ∃ d rt, s.definition.steps.get? id = some d ∧ s.steps.get? id = some rt ∧
        finalizerReady s id d = true ∧ (d.condition.isSome = true → rt.conditionPassed = true) ∧
        references = unavailableReferences s d ∧ references ≠ [] := by
  obtain ⟨id', hmem, heq⟩ := List.exists_of_findSome?_eq_some h
  unfold finalizerInputUnavailable at heq
  simp only [Option.bind_eq_bind, Option.bind_eq_some_iff] at heq
  obtain ⟨d, hd, rt, hrt, heq⟩ := heq
  split_ifs at heq with hguard hempty
  simp only [Option.some.injEq, Prod.mk.injEq] at heq
  obtain ⟨rfl, rfl⟩ := heq
  simp only [Bool.or_eq_true, Bool.and_eq_true, not_or, not_and, Bool.not_eq_true,
    Bool.not_eq_false'] at hguard
  exact ⟨hmem, d, rt, hd, hrt, hguard.1, by simpa using hguard.2, rfl, by simpa using hempty⟩

theorem finalizerReady_iff :
    finalizerReady s id d = true ↔ ∃ finalization, s.finalization = some finalization ∧
      (∃ rt, s.steps.get? id = some rt ∧ rt.state = .pending) ∧ finalization.trigger ∈ d.when ∧
      ∀ p ∈ d.prerequisites, stepIs s p.producer isTerminal = true := by
  unfold finalizerReady
  cases s.finalization with
  | none => simp
  | some =>
    simp only [Bool.and_eq_true, stepIs_isPending, decide_eq_true_eq, List.all_eq_true,
      Option.some.injEq, exists_eq_left', and_assoc]

theorem conditionGateReady_iff : conditionGateReady s id = true ↔
      ∃ d rt, s.definition.steps.get? id = some d ∧ s.steps.get? id = some rt ∧
        d.condition.isSome = true ∧ rt.conditionPassed = false ∧ rt.state = .pending ∧
        conditionPhaseGateOpen s d = true ∧ conditionBlockers s d = [] ∧
        (∀ p ∈ d.prerequisites, conditionPrerequisiteReady s d p = true) ∧
        conditionSourcesAvailable s d = true := by
  unfold conditionGateReady
  cases hd : s.definition.steps.get? id with
  | none => simp
  | some =>
    cases hrt : s.steps.get? id with
    | none => simp
    | some =>
      simp only [Option.some.injEq, exists_and_left, exists_eq_left']
      split_ifs with hguard
      · simp only [Bool.or_eq_true, Bool.not_eq_true', Option.isNone_iff_eq_none] at hguard
        simp only [false_iff, not_and]
        intro hcondition hpassed hpending hgate hblockers
        rcases hguard with ((((h | h) | h) | h) | h)
        · simp [h] at hcondition
        · simp [h] at hpassed
        · simp [isPending_iff.mpr hpending] at h
        · simp [hgate] at h
        · simp [hblockers] at h
      · simp only [Bool.or_eq_true, not_or, Bool.not_eq_true, Bool.not_eq_false',
          Option.isNone_eq_false_iff, List.isEmpty_iff] at hguard
        obtain ⟨⟨⟨⟨hcondition, hpassed⟩, hpending⟩, hgate⟩, hblockers⟩ := hguard
        simp [hcondition, hpassed, isPending_iff.mp hpending, hgate, hblockers, List.all_eq_true]

theorem nodeReady_pending {role : WorkflowNodeRole} (h : nodeReady s role id d = true) :
    ∃ rt, s.steps.get? id = some rt ∧ rt.state = .pending := by
  cases role with
  | step =>
    simp only [nodeReady, ordinaryReady, Bool.and_eq_true] at h
    exact stepIs_isPending.mp h.1
  | finalizer =>
    simp only [nodeReady, Bool.and_eq_true] at h
    obtain ⟨-, -, hpending, -⟩ := finalizerReady_iff.mp h.1
    exact hpending

theorem phaseGateOpen_step : phaseGateOpen s .step = true ↔ s.workflow = .executing .open := by
  simp only [phaseGateOpen]
  split <;> simp_all

theorem phaseGateOpen_finalizer : phaseGateOpen s .finalizer = true ↔
    ∃ trigger issue, s.workflow = .finalizing trigger .open issue := by
  simp only [phaseGateOpen]
  split <;> simp_all

theorem failureStopped_iff : failureStopped s = true ↔
    ∃ issue, s.workflow = .executing (.failureStopped issue) := by
  unfold failureStopped
  split <;> simp_all

/-- A condition is evaluated only while its phase starts nodes. -/
theorem phaseGateOpen_of_conditionPhaseGateOpen (h : conditionPhaseGateOpen s d = true) :
    phaseGateOpen s d.role = true := by
  unfold conditionPhaseGateOpen at h
  split at h
  · rename_i hworkflow hrole
    rw [hrole, phaseGateOpen_step, hworkflow]
  · rename_i trigger issue hworkflow hrole
    rw [hrole, phaseGateOpen_finalizer]
    exact ⟨trigger, issue, hworkflow⟩
  · cases h

theorem phaseGateOpen_of_conditionGateReady (hd : s.definition.steps.get? id = some d)
    (h : conditionGateReady s id = true) : phaseGateOpen s d.role = true := by
  obtain ⟨d', -, hd', -, -, -, -, hgate, -⟩ := conditionGateReady_iff.mp h
  cases hd.symm.trans hd'
  exact phaseGateOpen_of_conditionPhaseGateOpen hgate

end ScherzoCloud.Workflow
