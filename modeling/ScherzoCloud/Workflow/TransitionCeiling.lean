import ScherzoCloud.Workflow.Capacity
import ScherzoCloud.Workflow.DefinitionFacts
import ScherzoCloud.Workflow.TransitionBudget
import Mathlib.Algebra.BigOperators.Ring.List
import Mathlib.Algebra.Order.BigOperators.Group.List

/-!
# Whether the transition ceilings suffice

`calculate_capacity` grants a run five transitions per node and recovery round
under the general contract, and four, with one more per handler round, under
the cloud contract.  Five always suffice.  Four suffice as long as every
cancellation is accepted in a state that leaves room for winding down.
-/

namespace ScherzoCloud.Workflow

open Collections
open RuntimeDefinition (fromAdmitted)

variable {document : WorkflowDocument} {workflow : ValidatedWorkflow} {counts : CapacityCounts}
  {capacity : ComputedWorkflowCapacity} {w : Nat}

/-- The rounds of a recovery. -/
def recoveryRounds (recovery : Option ValidatedStepRecovery) : Nat :=
  (recovery.map ValidatedStepRecovery.retries).getD 0

/-- The rounds of a recovery that run a handler. -/
def handlerRounds (recovery : Option ValidatedStepRecovery) : Nat :=
  (recovery.map (fun r => if r.handler.isSome then r.retries else 0)).getD 0

/-- The bodies that a run can execute, every recovery round included. -/
def executions (workflow : ValidatedWorkflow) : Nat :=
  workflow.steps.size + workflow.finalizers.size +
    (workflow.recoveries.values.map recoveryRounds).sum

theorem foldlM_addRecoveryRounds {recoveries : List (Option ValidatedStepRecovery)}
    {start rounds : Nat × Nat} (h : recoveries.foldlM addRecoveryRounds start = .ok rounds) :
    rounds = (start.1 + (recoveries.map recoveryRounds).sum,
      start.2 + (recoveries.map handlerRounds).sum) := by
  induction recoveries generalizing start with
  | nil =>
    cases h
    rfl
  | cons recovery recoveries ih =>
    rw [List.foldlM_cons] at h
    obtain ⟨next, hnext, h⟩ := bind_eq_ok_iff.mp h
    rw [ih h]
    cases recovery with
    | none =>
      cases hnext
      simp [recoveryRounds, handlerRounds]
    | some recovery =>
      obtain ⟨first, hfirst, hnext⟩ := bind_eq_ok_iff.mp hnext
      obtain ⟨rfl, -⟩ := checkedAdd_ok hfirst
      split at hnext
      · rename_i hhandler
        obtain ⟨second, hsecond, hnext⟩ := bind_eq_ok_iff.mp hnext
        obtain ⟨rfl, -⟩ := checkedAdd_ok hsecond
        cases hnext
        simp [recoveryRounds, handlerRounds, hhandler, Nat.add_assoc]
      · rename_i hhandler
        cases hnext
        simp [recoveryRounds, handlerRounds, hhandler, Nat.add_assoc]

theorem capacityCounts_ok (h : capacityCounts workflow = .ok counts) :
    counts = ⟨workflow.steps.size, workflow.finalizers.size,
      (workflow.recoveries.values.map recoveryRounds).sum,
      (workflow.recoveries.values.map handlerRounds).sum⟩ := by
  obtain ⟨⟨recovery, handler⟩, hrounds, h⟩ := bind_eq_ok_iff.mp h
  cases h
  have hsums := foldlM_addRecoveryRounds hrounds
  simp only [Nat.zero_add, Prod.mk.injEq] at hsums
  rw [hsums.1, hsums.2]

theorem weightedBound_ok {nodes finalizers weight bound : Nat}
    (h : weightedBound nodes finalizers weight = .ok bound) :
    bound = nodes * weight + if finalizers = 0 then 3 else 6 := by
  obtain ⟨product, hproduct, h⟩ := bind_eq_ok_iff.mp h
  rw [(checkedAdd_ok h).1, (checkedProduct_ok hproduct).1]

theorem transitionBounds_ok {nodes general cloud : Nat}
    (h : transitionBounds counts = .ok (nodes, general, cloud)) :
    nodes = counts.steps + counts.finalizers + counts.recoveryRounds ∧
      general = (counts.steps + counts.finalizers + counts.recoveryRounds) * 5 +
        (if counts.finalizers = 0 then 3 else 6) ∧
      cloud = (counts.steps + counts.finalizers + counts.recoveryRounds) * 4 +
        (if counts.finalizers = 0 then 3 else 6) + counts.handlerRounds := by
  obtain ⟨first, hfirst, h⟩ := bind_eq_ok_iff.mp h
  obtain ⟨weighted, hweighted, h⟩ := bind_eq_ok_iff.mp h
  obtain ⟨general', hgeneral, h⟩ := bind_eq_ok_iff.mp h
  obtain ⟨cloud', hcloud, h⟩ := bind_eq_ok_iff.mp h
  obtain ⟨cloud'', hhandler, h⟩ := bind_eq_ok_iff.mp h
  cases h
  rw [weightedBound_ok hgeneral, (checkedAdd_ok hhandler).1, weightedBound_ok hcloud,
    (checkedAdd_ok hweighted).1, (checkedAdd_ok hfirst).1]
  exact ⟨rfl, rfl, rfl⟩

/-- Everything that a capacity without conditions consists of. -/
structure BasicRequirements (counts : CapacityCounts) (capacity : ComputedWorkflowCapacity) :
    Prop where
  general : capacity.generalMaximumTransitions =
    (counts.steps + counts.finalizers + counts.recoveryRounds) * 5 +
      (if counts.finalizers = 0 then 3 else 6)
  cloud : capacity.cloudMaximumTransitions =
    (counts.steps + counts.finalizers + counts.recoveryRounds) * 4 +
      (if counts.finalizers = 0 then 3 else 6) + counts.handlerRounds
  general_le : capacity.generalMaximumTransitions ≤ 1286
  cloud_le : capacity.cloudMaximumTransitions ≤ 1030
  invocations : capacity.maximumInvocations =
    counts.steps + counts.finalizers + counts.recoveryRounds + counts.handlerRounds
  invocations_pos : 0 < capacity.maximumInvocations
  retained : capacity.maximumRetainedBytesPerInvocation =
    min (runLogByteBudget / capacity.maximumInvocations) maximumRetainedBytesPerStream
  native : capacity.nativeSessionRetentionBytes =
    capacity.maximumInvocations * capacity.maximumRetainedBytesPerInvocation
  diagnostic : capacity.diagnosticRetentionBytes = capacity.nativeSessionRetentionBytes * 2
  aggregate : capacity.aggregateRetentionBytes =
    capacity.diagnosticRetentionBytes + capacity.nativeSessionRetentionBytes

theorem calculateCapacity_ok (h : calculateCapacity counts = .ok capacity) :
    BasicRequirements counts capacity ∧ capacity.conditionTransitionCount = 0 ∧
      capacity.aggregateConditionTransitionBytes = 0 ∧
      capacity.terminalResultStructureBytes = runnerTerminalFrameBytes ∧
      capacity.portableResultBytes = ordinaryPortableResultBytes ∧ capacity.encodedOutboxBytes =
        (capacity.cloudMaximumTransitions + runnerObservationReserve) *
          runnerOrdinaryFrameBytes + (runnerTerminalFrameBytes - runnerOrdinaryFrameBytes) := by
  obtain ⟨⟨nodes, general, cloud⟩, hbounds, h⟩ := bind_eq_ok_iff.mp h
  obtain ⟨hnodes, hgeneral, hcloud⟩ := transitionBounds_ok hbounds
  obtain ⟨⟨⟩, hgeneralCap, h⟩ := bind_eq_ok_iff.mp h
  obtain ⟨⟨⟩, hcloudCap, h⟩ := bind_eq_ok_iff.mp h
  obtain ⟨invocations, hinvocations, h⟩ := bind_eq_ok_iff.mp h
  split at h
  · cases h
  rename_i hpos
  obtain ⟨native, hnative, h⟩ := bind_eq_ok_iff.mp h
  obtain ⟨diagnostic, hdiagnostic, h⟩ := bind_eq_ok_iff.mp h
  obtain ⟨aggregate, haggregate, h⟩ := bind_eq_ok_iff.mp h
  obtain ⟨entries, hentries, h⟩ := bind_eq_ok_iff.mp h
  obtain ⟨ordinary, hordinary, h⟩ := bind_eq_ok_iff.mp h
  obtain ⟨outbox, houtbox, h⟩ := bind_eq_ok_iff.mp h
  cases h
  refine ⟨⟨hgeneral, hcloud, ?_, ?_, ?_, Nat.pos_of_ne_zero hpos, rfl,
    (checkedProduct_ok hnative).1, (checkedProduct_ok hdiagnostic).1,
    (checkedAdd_ok haggregate).1⟩, rfl, rfl, rfl, rfl, ?_⟩
  · change general ≤ 1286
    simp only [validateGeneralTransitionBound, generalMaximumTransitionsWithoutFinalizers,
      generalMaximumTransitionsWithFinalizers] at hgeneralCap
    split_ifs at hgeneralCap <;> omega
  · change cloud ≤ 1030
    simp only [validateCloudTransitionBound, cloudMaximumTransitionsWithoutFinalizers,
      cloudMaximumTransitionsWithFinalizers] at hcloudCap
    split_ifs at hcloudCap <;> omega
  · rw [(checkedAdd_ok hinvocations).1, hnodes]
  · rw [(checkedAdd_ok houtbox).1, (checkedProduct_ok hordinary).1, (checkedAdd_ok hentries).1]

/-- What the definition grants a node. -/
def grant (w : Nat) (d : RuntimeStep) : Nat :=
  w + (d.recovery.map (fun r => r.retries * (if r.handlerKind.isSome then 5 else w))).getD 0

theorem effort_initialStep_le {C V : Type} (seed : ExecutionSeed V) (id : String)
    (d : RuntimeStep) : effort w (initialStep seed id d : StepRuntimeState C V) ≤ grant w d := by
  unfold effort grant initialStep
  cases hseed : seed.steps.get? id with
  | some => simp
  | none =>
    simp only [roundsEffort, Option.isNone_none, if_true]
    cases d.recovery <;> simp

/-- The grant of a step follows from its validated recovery. -/
theorem grant_runtimeStep (hw : w ≤ 5) (step : ValidatedStep)
    (recovery : Option ValidatedStepRecovery) : grant w (runtimeStep .step step recovery ∅) =
      w + (w * recoveryRounds recovery + (5 - w) * handlerRounds recovery) := by
  cases recovery with
  | none => simp [grant, runtimeStep, recoveryRounds, handlerRounds]
  | some recovery =>
    cases hhandler : recovery.handler with
    | none =>
      simp [grant, runtimeStep, recoveryRounds, handlerRounds, hhandler, Nat.mul_comm]
    | some =>
      simp only [grant, runtimeStep, recoveryRounds, handlerRounds, hhandler, Option.map_some,
        Option.getD_some, Option.isSome_some, if_true]
      rw [← Nat.add_mul, Nat.add_sub_cancel' hw, Nat.mul_comm]

/-- The recoveries of the steps, step by step or as the values of their map. -/
theorem sum_recoveries (h : Accepted document workflow) (g : Option ValidatedStepRecovery → Nat) :
    (workflow.steps.entries.map (fun e => g ((workflow.recoveries.get? e.1).getD none))).sum =
      (workflow.recoveries.values.map g).sum := by
  have hkeys : workflow.steps.entries.map
        (fun e => g ((workflow.recoveries.get? e.1).getD none)) =
      workflow.recoveries.entries.map (fun e => g ((workflow.recoveries.get? e.1).getD none)) := by
    have hmap := congrArg (List.map (fun k => g ((workflow.recoveries.get? k).getD none)))
      h.recoveries.symm
    simpa only [BTreeMap.keys, List.map_map, Function.comp_def] using hmap
  rw [hkeys, BTreeMap.values, List.map_map]
  refine congrArg List.sum (List.map_congr_left ?_)
  intro e he
  rw [BTreeMap.get?_eq_some_iff.mpr he, Option.getD_some, Function.comp_apply]

/-- What all nodes of an accepted workflow are granted. -/
theorem sum_grant (h : Accepted document workflow) (hw : w ≤ 5) :
    ((RuntimeDefinition.nodes workflow).values.map (grant w)).sum =
      w * executions workflow + (5 - w) * (workflow.recoveries.values.map handlerRounds).sum := by
  have hperm : ((RuntimeDefinition.nodes workflow).entries.map (fun e => grant w e.2)).Perm
      ((nodeBindings workflow).map (fun e => grant w e.2)) :=
    (BTreeMap.entries_ofList (nodeBindings_nodup (fun _ _ _ => h.disjoint))).map _
  have hsteps : (workflow.steps.entries.map (fun e => grant w
      (runtimeStep .step e.2 ((workflow.recoveries.get? e.1).getD none) ∅))).sum =
      w * workflow.steps.size +
        (w * (workflow.recoveries.values.map recoveryRounds).sum +
          (5 - w) * (workflow.recoveries.values.map handlerRounds).sum) := by
    simp only [grant_runtimeStep hw, List.sum_map_add, List.sum_map_mul_left,
      sum_recoveries h recoveryRounds, sum_recoveries h handlerRounds, List.map_const',
      List.sum_replicate_nat, BTreeMap.size]
    rw [Nat.mul_comm workflow.steps.entries.length]
  have hfinalizers : (workflow.finalizers.entries.map (fun e => grant w
      (runtimeFinalizer e.2))).sum = w * workflow.finalizers.size := by
    simp only [grant, runtimeFinalizer, runtimeStep, Option.map_none, Option.getD_none,
      Nat.add_zero, List.map_const', List.sum_replicate_nat, BTreeMap.size]
    rw [Nat.mul_comm w]
  rw [BTreeMap.values, List.map_map, Function.comp_def, hperm.sum_eq, nodeBindings,
    List.map_append, List.sum_append, List.map_map, List.map_map, Function.comp_def,
    Function.comp_def, hsteps, hfinalizers, executions, Nat.mul_add, Nat.mul_add]
  omega

variable {O C V D : Type} {inputs : BTreeMap String ResolvedInput} {parallel transitions : Nat}
  {seed : ExecutionSeed V} {m : Emission O C V D} {s : RuntimeState C V D}
  {o : Option (Occurrence O C V D)} {r r' : Reduction O C V D}

theorem finalizerIds_eq_nil_iff :
    (fromAdmitted workflow inputs parallel transitions).finalizerIds = [] ↔
      workflow.finalizers.size = 0 := by
  show workflow.finalizers.keys = [] ↔ _
  rw [BTreeMap.keys, BTreeMap.size, List.map_eq_nil_iff, List.length_eq_zero_iff]

/-- What the nodes of an accepted workflow can commit. -/
theorem totalEffort_initialState_le (hvalid : validate document = .ok workflow) (hw : w ≤ 5) :
    totalEffort w (initialState (fromAdmitted workflow inputs parallel transitions) seed :
        RuntimeState C V D) ≤
      w * executions workflow + (5 - w) * (workflow.recoveries.values.map handlerRounds).sum := by
  rw [← sum_grant (validate_accepted hvalid) hw]
  simp only [totalEffort, initialState, BTreeMap.values, BTreeMap.mapWithKey, List.map_map]
  exact List.sum_le_sum fun e _ => effort_initialStep_le seed e.1 e.2

/-- What a run of an accepted workflow needs at its start. -/
theorem need_initialState_le (hvalid : validate document = .ok workflow) (hw : w ≤ 5) :
    need w (initialState (fromAdmitted workflow inputs parallel transitions) seed :
        RuntimeState C V D) ≤
      w * executions workflow + (5 - w) * (workflow.recoveries.values.map handlerRounds).sum +
        (if workflow.finalizers.size = 0 then 1 else 2) + (5 - w) := by
  have heffort : totalEffort w (initialState (fromAdmitted workflow inputs parallel transitions)
    seed : RuntimeState C V D) ≤ _ := totalEffort_initialState_le hvalid hw
  have hphase : phaseEffort (initialState (fromAdmitted workflow inputs parallel transitions)
      seed : RuntimeState C V D) = if workflow.finalizers.size = 0 then 1 else 2 := by
    rw [phaseEffort_executing rfl]
    exact if_congr finalizerIds_eq_nil_iff rfl rfl
  have hopen : issuePossible (initialState (fromAdmitted workflow inputs parallel transitions)
      seed : RuntimeState C V D).workflow = true := rfl
  rw [need, hphase, if_pos hopen]
  omega

theorem initialState_inactive (definition : RuntimeDefinition) (seed : ExecutionSeed V) :
    ∀ rt ∈ (initialState definition seed : RuntimeState C V D).steps.values,
      rt.state.isActive = false := by
  intro rt hrt
  simp only [initialState, BTreeMap.values, BTreeMap.mapWithKey, List.map_map,
    List.mem_map] at hrt
  obtain ⟨e, -, rfl⟩ := hrt
  simp only [Function.comp_apply, initialStep]
  split <;> rfl

theorem initialState_cancelNeed_le (definition : RuntimeDefinition) (seed : ExecutionSeed V) :
    cancelNeed 4 (initialState definition seed : RuntimeState C V D) ≤
      need 4 (initialState definition seed : RuntimeState C V D) := by
  have hinactive := initialState_inactive (C := C) (D := D) definition seed
  have hopen : issuePossible (initialState definition seed : RuntimeState C V D).workflow =
    true := rfl
  generalize (initialState definition seed : RuntimeState C V D) = s at hinactive hopen ⊢
  have hwind := windDown_le (le_refl 4) (phaseNodes s) (Or.inr hinactive)
  rw [cancelNeed, need, if_pos hopen]
  omega

/-- A run pays for its events when every step does. -/
theorem Reduction.emit_need {step : RuntimeState C V D → Emission O C V D → RuntimeState C V D → Prop}
    {n : Emission O C V D} {t : RuntimeState C V D}
    (hstep : ∀ s n t, step s n t → n.events.length + need w t ≤ need w s)
    (hrun : LabelledRun step r.state n t) :
    (r.emit n t).events.length + need w (r.emit n t).state ≤
      r.events.length + need w r.state := by
  have hpaid := hrun.history (m := 1)
    (I := fun m s => m.events.length + need w s ≤ need w r.state) (by
      intro m s n t hs hnext
      have hmore := hstep s n t hnext
      rw [Emission.mul_events, List.length_append]
      omega) (by simp)
  rw [one_mul] at hpaid
  rw [Reduction.emit, List.length_append]
  dsimp only
  omega

theorem closesGate_isRequest {occurrence : Occurrence O C V D}
    (h : closesGate s occurrence = true) : isRequest occurrence = true := by
  cases occurrence <;> first | rfl | cases h

variable [ConditionOutput V]

/-- The number of transitions of a run of an accepted workflow. -/
theorem Reachable.length_events_le (hvalid : validate document = .ok workflow)
    (h : Reachable (fromAdmitted workflow inputs parallel transitions) seed m s) :
    m.events.length ≤ 5 * executions workflow +
      (if workflow.finalizers.size = 0 then 1 else 2) + m.events.countP isAcceptance := by
  have hneed := h.need
  have hinitial : totalEffort 5 (initialState (fromAdmitted workflow inputs parallel transitions)
    seed : RuntimeState C V D) ≤ _ := totalEffort_initialState_le hvalid (le_refl 5)
  simp only [finalizerIds_eq_nil_iff] at hneed
  omega

/-- The recovery rounds that the structural schema admits. -/
theorem Accepted.rounds_le (h : Accepted document workflow) (hstructural : document.Structural) :
    (workflow.recoveries.values.map recoveryRounds).sum ≤ 10 * workflow.steps.size := by
  have hround : ∀ n ∈ workflow.steps.entries.map
      (fun e => recoveryRounds ((workflow.recoveries.get? e.1).getD none)), n ≤ 10 := by
    intro n hn
    obtain ⟨⟨id, validated⟩, hmem, rfl⟩ := List.mem_map.mp hn
    obtain ⟨body, horigin⟩ := h.step_origin (BTreeMap.get?_eq_some_iff.mpr hmem)
    cases hrecovery : (workflow.recoveries.get? id).getD none with
    | none => simp [recoveryRounds]
    | some recovery =>
      obtain ⟨step, declared, hstep, hdeclared, hretries⟩ := horigin.retries
        ⟨recovery.retries, recovery.handler.map RecoveryHandlerKind.fromValidated⟩
        (by simp [runtimeStep, hrecovery])
      have hbound := (hstructural.retries_bounded step
        (BTreeMap.mem_values_iff.mpr ⟨id, hstep⟩) declared hdeclared).2
      have hretries' : recovery.retries = declared.retries := hretries
      simp only [recoveryRounds, Option.map_some, Option.getD_some]
      omega
  have hsum := List.sum_le_card_nsmul _ 10 hround
  rw [sum_recoveries h, List.length_map] at hsum
  exact hsum.trans (Nat.le_of_eq (Nat.mul_comm _ _))

/-- A run of an accepted workflow has far fewer transitions than there are numbers. -/
theorem Reachable.length_events_lt (hvalid : validate document = .ok workflow)
    (hstructural : document.Structural)
    (h : Reachable (fromAdmitted workflow inputs parallel transitions) seed m s) :
    m.events.length < 2 ^ 63 := by
  have haccepted := validate_accepted hvalid
  have hlength := h.length_events_le hvalid
  have hrounds := haccepted.rounds_le hstructural
  have hsize := haccepted.size_le
  have haccept := h.acceptances
  rw [executions] at hlength
  split_ifs at hlength haccept <;> omega

/-- A ceiling that covers five transitions per execution is not exceeded. -/
theorem Reachable.within_ceiling (hvalid : validate document = .ok workflow)
    (h : Reachable (fromAdmitted workflow inputs parallel transitions) seed m s)
    (hmaximum : transitions < 2 ^ 64)
    (hcovers : 5 * executions workflow + (if workflow.finalizers.size = 0 then 3 else 6) ≤
      transitions) :
    s.transitionCapacityExceeded = false := by
  have hlength := h.length_events_le hvalid
  have haccept := h.acceptances
  simp only [finalizerIds_eq_nil_iff] at haccept
  have hle : m.events.length ≤ transitions := by
    split_ifs at hlength haccept hcovers <;> omega
  exact (h.within (Nat.lt_of_le_of_lt hle hmaximum)).mpr hle

/-- A stabilization pays for its events, as it accepts no cancellation. -/
theorem Stabilizes.need (hw : 4 ≤ w) (h : Stabilizes o r r') :
    r'.events.length + need w r'.state ≤ r.events.length + need w r.state := by
  obtain ⟨n, t, hrun, rfl⟩ := h
  refine Reduction.emit_need (fun s n t hstep => ?_) hrun
  rcases hstep.reducerStep.need hw with hpaid | ⟨-, -, haccepted⟩
  · exact hpaid
  · cases hstep <;> simp [nodeEvent, isAcceptance] at haccepted

/-- A cancellation that is accepted pays with what winding down needs. -/
theorem Cancels.need (hw : 4 ≤ w) (h : Cancels o r r') :
    r'.events.length + need w r'.state ≤ r.events.length + need w r.state ∨
      Requested r.state o ∧
        r'.events.length + need w r'.state ≤ r.events.length + cancelNeed w r.state := by
  obtain ⟨n, t, hstep, rfl, -⟩ := h
  rw [Reduction.emit, List.length_append]
  dsimp only
  rcases hstep with ⟨rfl, rfl⟩ | hstep
  · exact Or.inl (le_refl _)
  rcases hstep.need hw with hpaid | ⟨hrequested, hpaid, -⟩
  · exact Or.inl (by omega)
  · exact Or.inr ⟨hrequested, by omega⟩

/-- A run that is cancelled before it starts needs no more than any other. -/
theorem initializeSeededDefinition_need (start : ExecutionStart D) (seed : ExecutionSeed V)
    (hcoherent : start.definition.Coherent) {run : Reduction O C V D}
    (heq : run = initializeSeededDefinition start seed) :
    run.events.length + need 4 run.state ≤
      need 4 (initialState start.definition seed : RuntimeState C V D) := by
  have hcancels := applyInitialCancellation_cancels
    (initialReduction start.definition seed : Reduction O C V D) start.initialCancellation
    (requested_none _)
  have hreaches := applyInitialCancellation_reaches
    (initialReduction start.definition seed : Reduction O C V D) start.initialCancellation
    (requested_none _)
  have hstable := (stabilize_stabilizes (hreaches.nodesMatch (initialState_nodesMatch _ _))
    (by rw [hreaches.definition]; exact hcoherent)).need (le_refl 4)
  rw [heq]
  refine le_trans hstable ?_
  rcases hcancels.need (le_refl 4) with hpaid | ⟨-, hpaid⟩
  · exact le_trans hpaid (Nat.le_of_eq (Nat.zero_add _))
  · refine le_trans (le_trans hpaid (Nat.le_of_eq (Nat.zero_add _))) ?_
    exact initialState_cancelNeed_le start.definition seed

variable [ProvisionalStepResources O] [NodeFailureSource C]

/-- Applying an occurrence pays for its events, or the occurrence closes a gate. -/
theorem applyOccurrence_need (hw : 4 ≤ w) (hnodes : NodesMatch r.state)
    (occurrence : Occurrence O C V D) (heq : r' = (applyOccurrence r occurrence).2) :
    r'.events.length + need w r'.state ≤ r.events.length + need w r.state ∨
      closesGate r.state occurrence = true ∧
        r'.events.length + need w r'.state ≤ r.events.length + cancelNeed w r.state := by
  cases hrequest : isRequest occurrence with
  | true =>
    rw [heq]
    exact (Cancels.need hw (applyOccurrence_cancels hrequest)).imp_right
      (And.imp_left fun hrequested => hrequested occurrence rfl)
  | false =>
    obtain ⟨n, t, hrun, hemit, -⟩ := applyOccurrence_applies hnodes occurrence
    rw [heq, hemit]
    refine Or.inl (Reduction.emit_need (fun s n t hstep => ?_) hrun)
    rcases hstep.need hw with hpaid | ⟨hrequested, -⟩
    · exact hpaid
    · rw [closesGate_isRequest (hrequested occurrence rfl)] at hrequest
      cases hrequest

/-- One reduction pays for its events, or its occurrence closes a gate. -/
theorem reduce_need (hw : 4 ≤ w) (hnodes : NodesMatch s) (hcoherent : s.definition.Coherent)
    (occurrence : Occurrence O C V D) :
    (reduce s occurrence).events.length + need w (reduce s occurrence).state ≤ need w s ∨
      closesGate s occurrence = true ∧
        (reduce s occurrence).events.length + need w (reduce s occurrence).state ≤
          cancelNeed w s := by
  have happly := applyOccurrence_need hw (r := ⟨s, [], [], false⟩) hnodes occurrence rfl
  have hreaches := applyOccurrence_reaches (r := ⟨s, [], [], false⟩) hnodes occurrence
  simp only [List.length_nil, Nat.zero_add] at happly
  cases haccepted : (reduce s occurrence).occurrenceAccepted with
  | false =>
    rcases reduce_refused hnodes hcoherent haccepted with heq | ⟨-, -, heq⟩
    · rw [heq]
      exact Or.inl (Nat.le_of_eq (Nat.zero_add _))
    · rwa [heq]
  | true =>
    have hstable := (stabilize_stabilizes (r := { (applyOccurrence ⟨s, [], [], false⟩
      occurrence).2 with occurrenceAccepted := true }) (hreaches.nodesMatch hnodes)
      (by rw [hreaches.definition]; exact hcoherent)).need hw
    rw [(reduce_accepted hnodes haccepted).2]
    exact happly.imp (le_trans hstable) (And.imp_right (le_trans hstable))

/-- A cancellation that is accepted in this state leaves the transitions for winding down. -/
def CancelRoom (s : RuntimeState C V D) : Prop :=
  s.lastTransitionSequence + cancelNeed 4 s ≤ s.definition.maximumTransitions

instance cancelRoomDecidable (s : RuntimeState C V D) : Decidable (CancelRoom s) :=
  inferInstanceAs (Decidable (_ ≤ _))

/-- Every request that is accepted in a run finds room. -/
abbrev RequestsFindRoom (start : ExecutionStart D) (seed : ExecutionSeed V)
    (occurrences : List (Occurrence O C V D)) : Prop :=
  ∀ n : Fin occurrences.length,
    closesGate (ledger start seed (occurrences.take n)).state (occurrences.get n) = true →
      CancelRoom (ledger start seed (occurrences.take n)).state

section Rooms

variable {start : ExecutionStart D} {occurrences : List (Occurrence O C V D)}
  (hcoherent : start.definition.Coherent)
  (hmaximum : start.definition.maximumTransitions < 2 ^ 64)
  (hcovers : need 4 (initialState start.definition seed : RuntimeState C V D) ≤
    start.definition.maximumTransitions)
  (hroom : RequestsFindRoom start seed occurrences)
include hcoherent hmaximum hcovers hroom

/-- A run keeps to a ceiling that covers its start, as long as every request that is accepted
finds room. -/
theorem ledger_need (k : Nat) (hk : k ≤ occurrences.length) :
    (ledger start seed (occurrences.take k)).events.length +
      need 4 (ledger start seed (occurrences.take k)).state ≤
        start.definition.maximumTransitions := by
  induction k with
  | zero => exact le_trans (initializeSeededDefinition_need start seed hcoherent rfl) hcovers
  | succ k ih =>
    have hfits := ih (by omega)
    have hreach := ledger_reachable start seed hcoherent (occurrences.take k)
    rw [List.take_succ_eq_append_getElem hk, ledger_concat, Reduction.followedBy,
      List.length_append]
    dsimp only
    rcases reduce_need (le_refl 4) hreach.nodesMatch (hreach.coherent hcoherent)
      (occurrences.get ⟨k, hk⟩) with hpaid | ⟨hcloses, hpaid⟩
    · exact le_trans (Nat.le_of_eq (Nat.add_assoc _ _ _))
        (le_trans (Nat.add_le_add_left hpaid _) hfits)
    · have hspace := hroom ⟨k, hk⟩ hcloses
      have hlength : (ledger start seed (occurrences.take k)).emission.events.length ≤
          start.definition.maximumTransitions := le_trans (Nat.le_add_right _ _) hfits
      rw [CancelRoom, hreach.last_eq (Nat.lt_of_le_of_lt hlength hmaximum) hlength,
        hreach.definition_eq] at hspace
      exact le_trans (Nat.le_of_eq (Nat.add_assoc _ _ _))
        (le_trans (Nat.add_le_add_left hpaid _) hspace)

theorem ledger_within :
    (ledger start seed occurrences).state.transitionCapacityExceeded = false := by
  have hfits := ledger_need hcoherent hmaximum hcovers hroom occurrences.length (le_refl _)
  rw [List.take_length] at hfits
  have hle := le_trans (Nat.le_add_right _ _) hfits
  exact ((ledger_reachable start seed hcoherent occurrences).within
    (Nat.lt_of_le_of_lt hle hmaximum)).mpr hle

end Rooms

/-- A run keeps to a ceiling of five transitions per execution, and to one of four when every
request that is accepted finds room. -/
theorem admitted_within (hvalid : validate document = .ok workflow)
    (hcounts : capacityCounts workflow = .ok counts)
    (hcapacity : calculateCapacity counts = .ok capacity) (hmaximum : transitions < 2 ^ 64)
    {initial : Option (InitialCancellation D)} {occurrences : List (Occurrence O C V D)}
    (hceiling : capacity.generalMaximumTransitions ≤ transitions ∨
      capacity.cloudMaximumTransitions ≤ transitions ∧
        RequestsFindRoom ⟨fromAdmitted workflow inputs parallel transitions, initial⟩ seed
          occurrences) :
    (ledger ⟨fromAdmitted workflow inputs parallel transitions, initial⟩ seed
      occurrences).state.transitionCapacityExceeded = false := by
  have hbasic := (calculateCapacity_ok hcapacity).1
  have hcoherent := fromAdmitted_coherent hvalid inputs parallel transitions
  rcases hceiling with hgeneral | ⟨hcloud, hroom⟩
  · have heq := hbasic.general
    rw [capacityCounts_ok hcounts] at heq
    refine (ledger_reachable ⟨_, initial⟩ seed hcoherent occurrences).within_ceiling hvalid
      hmaximum (le_trans (Nat.le_of_eq ?_) hgeneral)
    rw [heq, executions, Nat.mul_comm]
  · have heq := hbasic.cloud
    rw [capacityCounts_ok hcounts] at heq
    dsimp only at heq
    refine ledger_within hcoherent hmaximum (le_trans (need_initialState_le hvalid (by decide)) ?_)
      hroom
    refine le_trans (le_trans ?_ (Nat.le_of_eq heq.symm)) hcloud
    rw [executions]
    split_ifs <;> omega

/-- The general ceiling is never exceeded, whatever is inherited and reported. -/
theorem general_ceiling_suffices (hvalid : validate document = .ok workflow)
    (hcounts : capacityCounts workflow = .ok counts)
    (hcapacity : calculateCapacity counts = .ok capacity)
    (inputs : BTreeMap String ResolvedInput)
    (parallel : Nat)
    (initial : Option (InitialCancellation D))
    (seed : ExecutionSeed V)
    (occurrences : List (Occurrence O C V D)) :
    (ledger ⟨fromAdmitted workflow inputs parallel
        capacity.generalMaximumTransitions, initial⟩ seed
      occurrences).state.transitionCapacityExceeded = false :=
  admitted_within hvalid hcounts hcapacity
    (Nat.lt_of_le_of_lt (calculateCapacity_ok hcapacity).1.general_le (by decide))
    (Or.inl (le_refl _))

/-- The capacity of the workflow with one step. -/
def singleCapacity : ComputedWorkflowCapacity where
  generalMaximumTransitions := 8
  cloudMaximumTransitions := 7
  maximumInvocations := 1
  maximumRetainedBytesPerInvocation := 4194304
  diagnosticRetentionBytes := 8388608
  nativeSessionRetentionBytes := 4194304
  aggregateRetentionBytes := 12582912
  conditionTransitionCount := 0
  aggregateConditionTransitionBytes := 0
  terminalResultStructureBytes := 67108864
  portableResultBytes := 202027692
  encodedOutboxBytes := 85458944

theorem singleDocument_counts :
    capacityCounts (acceptedWorkflow singleDocument) = .ok ⟨1, 0, 0, 0⟩ := rfl

theorem singleDocument_capacity : calculateCapacity ⟨1, 0, 0, 0⟩ = .ok singleCapacity := rfl

/-- The only step is cancelled and then aborted while its outputs are captured. -/
def abortedCapture : List (Occurrence Unit FailureDetail String Nat) :=
  [.stepStarted "build" ⟨1⟩, .stepExecutionCompleted "build" ⟨1⟩ (),
    .cancellationOperationRequested 1 .userRequest 0, .forceAbortRequested 2 0,
    .stepQuiesced "build" (ActionId.forForceAbort 2 1)]

theorem abortedCapture_within_general :
    (ledger ⟨fromAdmitted (acceptedWorkflow singleDocument) .empty 1
        singleCapacity.generalMaximumTransitions, none⟩ .empty
      abortedCapture).state.transitionCapacityExceeded = false :=
  general_ceiling_suffices singleDocument_accepted singleDocument_counts singleDocument_capacity
    .empty 1 none .empty abortedCapture

/-- The cloud ceiling is not exceeded by a run in which every request that is accepted finds room
for winding down. -/
theorem cloud_ceiling_suffices (hvalid : validate document = .ok workflow)
    (hcounts : capacityCounts workflow = .ok counts)
    (hcapacity : calculateCapacity counts = .ok capacity)
    (inputs : BTreeMap String ResolvedInput)
    (parallel : Nat)
    (initial : Option (InitialCancellation D))
    (seed : ExecutionSeed V)
    (occurrences : List (Occurrence O C V D))
    (hroom : RequestsFindRoom ⟨fromAdmitted workflow inputs parallel
      capacity.cloudMaximumTransitions, initial⟩ seed occurrences) :
    (ledger ⟨fromAdmitted workflow inputs parallel
        capacity.cloudMaximumTransitions, initial⟩ seed
      occurrences).state.transitionCapacityExceeded = false :=
  admitted_within hvalid hcounts hcapacity
    (Nat.lt_of_le_of_lt (calculateCapacity_ok hcapacity).1.cloud_le (by decide))
    (Or.inr ⟨le_refl _, hroom⟩)

/-- The only step is cancelled while its outputs are captured, and quiesces. -/
def cancelledCapture : List (Occurrence Unit FailureDetail String Nat) :=
  abortedCapture.take 3 ++ [.stepQuiesced "build" ⟨5⟩]

theorem cancelledCapture_within_cloud :
    (ledger ⟨fromAdmitted (acceptedWorkflow singleDocument) .empty 1
        singleCapacity.cloudMaximumTransitions, none⟩ .empty
      cancelledCapture).state.transitionCapacityExceeded = false :=
  cloud_ceiling_suffices singleDocument_accepted singleDocument_counts singleDocument_capacity
    .empty 1 none .empty cancelledCapture (by decide)

/-- Two acceptances and one cancelled capture need eight transitions where seven are granted. -/
theorem cloud_ceiling_exceeded :
    validate singleDocument = .ok (acceptedWorkflow singleDocument) ∧
      capacityCounts (acceptedWorkflow singleDocument) = .ok ⟨1, 0, 0, 0⟩ ∧
      calculateCapacity ⟨1, 0, 0, 0⟩ = .ok singleCapacity ∧
      (ledger ⟨fromAdmitted (acceptedWorkflow singleDocument) .empty 1
          singleCapacity.cloudMaximumTransitions, none⟩ .empty
        abortedCapture).state.transitionCapacityExceeded = true :=
  ⟨singleDocument_accepted, singleDocument_counts, singleDocument_capacity, by decide⟩

end ScherzoCloud.Workflow
