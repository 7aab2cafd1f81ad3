import ScherzoCloud.Workflow.NodeChanges

/-!
# The phases of a run

The workflow state bounds what the nodes of each phase can be doing: while the
ordinary gate is open nothing is cancelled, a closed gate leaves only settled
nodes and nodes being cancelled, and finalizers wait for the ordinary phase to
settle.
-/

namespace ScherzoCloud.Workflow

open Collections
open RuntimeState (get?_commit_self advance_finalization advance_forceAbort tick_workflow
  tick_steps tick_definition tick_finalization)

variable {O C V D : Type} {s t : RuntimeState C V D} {id : String} {d : RuntimeStep}
  {rt rt' : StepRuntimeState C V} {w : WorkflowState D} {forced : Bool} {role : WorkflowNodeRole}
  {kind : StepStateKind} {o : Option (Occurrence O C V D)}
  {actions : List (RequestedAction O C V D)} {reason : CancellationReason} {state : StepState V}
  {force : Option CancellationOperationId} {m : Emission O C V D} {outcome : OrdinaryOutcome}

/-- What the nodes of a role can be doing in a workflow state; `forced` says that
a force abort ended the ordinary phase, which suppresses all finalizers. -/
def phaseAllows (workflow : WorkflowState D) (forced : Bool) (role : WorkflowNodeRole)
    (kind : StepStateKind) : Bool :=
  match role, workflow with
  | .step, .executing .open =>
    kind != .cancelling && kind != .cancelled && kind != .notRun
  | .step, .executing (.failureStopped _) => kind != .cancelling && kind != .cancelled
  | .finalizer, .executing _ => kind == .pending || kind == .inherited
  | .finalizer, .finalizing _ .open _ => kind != .cancelling && kind != .cancelled
  | .finalizer, .finalizing _ (.cancelling _ _ _) _ =>
    if forced then kind == .pending || kind == .inherited || kind == .notRun ||
      kind == .blocked || kind == .cancelled
    else kind != .pending && kind != .starting && kind != .running &&
      kind != .capturingOutputs && kind != .recovering
  | .step, .executing (.cancelling _ _) =>
    kind != .pending && kind != .starting && kind != .running &&
      kind != .capturingOutputs && kind != .recovering
  | _, _ => kind != .pending && kind != .starting && kind != .running &&
      kind != .capturingOutputs && kind != .recovering && kind != .cancelling

/-- How the workflow state, the nodes and the finalization record fit together. -/
structure PhaseInvariant (s : RuntimeState C V D) : Prop where
  nodes : ∀ id d rt, s.definition.steps.get? id = some d → s.steps.get? id = some rt →
    phaseAllows s.workflow (forceAbortedOrdinary s) d.role rt.state.kind = true
  executing : ∀ gate, s.workflow = .executing gate → s.finalization = none
  executing_forced : ∀ gate, s.workflow = .executing gate → s.forceAbort.isSome = true →
    forceAbortedOrdinary s = true
  finalizing : ∀ trigger gate issue, s.workflow = .finalizing trigger gate issue →
    ∃ finalization, s.finalization = some finalization ∧ finalization.trigger = trigger ∧
      finalization.ordinaryOutcome.trigger = trigger ∧
      (finalization.ordinaryOutcome ≠ .succeeded →
        issue = finalization.ordinaryOutcome.primaryIssue)
  forced : s.forceAbort.isSome = true →
    phaseGateOpen s .step = false ∧ phaseGateOpen s .finalizer = false ∧ failureStopped s = false

section NodeMoves

theorem phaseAllows_of_runsTarget
    (hactive : rt.RunsTarget ∨ ∃ round activity, rt.state = .recovering round activity)
    (h : phaseAllows w forced role rt.state.kind = true)
    (hkind : kind = .starting ∨ kind = .running ∨ kind = .capturingOutputs ∨
      kind = .recovering ∨ kind = .succeeded ∨ kind = .failed) :
    phaseAllows w forced role kind = true := by
  have hkind' : rt.state.kind = .starting ∨ rt.state.kind = .running ∨
      rt.state.kind = .capturingOutputs ∨ rt.state.kind = .recovering := by
    rcases hactive with (h | h | h) | ⟨round, activity, h⟩ <;> simp [h, StepState.kind]
  revert h
  generalize rt.state.kind = k at hkind'
  unfold phaseAllows
  split <;> rcases hkind' with rfl | rfl | rfl | rfl <;>
    rcases hkind with rfl | rfl | rfl | rfl | rfl | rfl <;> simp

/-- An open gate allows everything but a cancellation. -/
theorem phaseAllows_of_open (h : phaseGateOpen s role = true)
    (hkind : kind ≠ .cancelling ∧ kind ≠ .cancelled ∧ kind ≠ .notRun) :
    phaseAllows s.workflow forced role kind = true := by
  cases role with
  | step =>
    rw [phaseGateOpen_step.mp h]
    simpa [phaseAllows, and_assoc] using hkind
  | finalizer =>
    obtain ⟨trigger, issue, hworkflow⟩ := phaseGateOpen_finalizer.mp h
    rw [hworkflow]
    simpa [phaseAllows] using ⟨hkind.1, hkind.2.1⟩

/-- Where a step can still be pending. -/
theorem pending_step (h : phaseAllows w forced .step .pending = true) :
    w = .executing .open ∨ ∃ issue, w = .executing (.failureStopped issue) := by
  cases w with
  | executing gate => cases gate <;> simp_all [phaseAllows]
  | finalizing | succeeded | failed | cancelled => simp [phaseAllows] at h

/-- Where a finalizer can still be pending. -/
theorem pending_finalizer (h : phaseAllows w forced .finalizer .pending = true) :
    (∃ gate, w = .executing gate) ∨ (∃ trigger issue, w = .finalizing trigger .open issue) ∨
      forced = true ∧ ∃ trigger reason deadline force issue,
        w = .finalizing trigger (.cancelling reason deadline force) issue := by
  cases w with
  | executing gate => exact Or.inl ⟨gate, rfl⟩
  | finalizing trigger gate issue =>
    cases gate with
    | «open» => exact Or.inr (Or.inl ⟨trigger, issue, rfl⟩)
    | cancelling reason deadline force =>
      refine Or.inr (Or.inr ⟨?_, trigger, reason, deadline, force, issue, rfl⟩)
      cases forced
      · simp [phaseAllows] at h
      · rfl
  | succeeded | failed | cancelled => simp [phaseAllows] at h

/-- A pending finalizer may be settled once finalization was entered. -/
theorem PhaseInvariant.settles_finalizer {finalization : FinalizationRuntime D}
    {kind : StepStateKind} (hinv : PhaseInvariant s)
    (hallow : phaseAllows s.workflow (forceAbortedOrdinary s) .finalizer .pending = true)
    (hfinalization : s.finalization = some finalization)
    (hkind : kind = .notRun ∨ kind = .blocked) :
    phaseAllows s.workflow (forceAbortedOrdinary s) .finalizer kind = true := by
  rcases pending_finalizer hallow with ⟨gate, h⟩ | ⟨trigger, issue, h⟩ |
    ⟨hforced, trigger, reason, deadline, force, issue, h⟩
  · rw [hinv.executing gate h] at hfinalization
    cases hfinalization
  · rw [h]
    rcases hkind with rfl | rfl <;> rfl
  · rw [h, hforced]
    rcases hkind with rfl | rfl <;> rfl

variable [ConditionOutput V]

theorem NodeMove.phaseAllows (h : NodeMove o s id d rt rt' actions)
    (hinv : PhaseInvariant s) (hcoherent : s.definition.Coherent)
    (hd : s.definition.steps.get? id = some d) (hrt : s.steps.get? id = some rt) :
    phaseAllows s.workflow (forceAbortedOrdinary s) d.role rt'.state.kind = true := by
  have hallow := hinv.nodes id d rt hd hrt
  cases h with
  | start _ _ hgate => exact phaseAllows_of_open hgate (by simp [StepState.kind])
  | retry _ _ htarget =>
    exact phaseAllows_of_runsTarget (Or.inl htarget) hallow (Or.inl rfl)
  | recheck _ round _ _ hstate =>
    exact phaseAllows_of_runsTarget (Or.inr ⟨round, .running, hstate⟩) hallow (Or.inl rfl)
  | run hstate =>
    exact phaseAllows_of_runsTarget (Or.inl (Or.inl hstate)) hallow (Or.inr (Or.inl rfl))
  | capture _ hstate =>
    exact phaseAllows_of_runsTarget (Or.inl (Or.inr (Or.inl hstate))) hallow
      (by simp [StepState.kind])
  | succeed _ _ hstate =>
    exact phaseAllows_of_runsTarget (Or.inl (Or.inr (Or.inr hstate))) hallow
      (by simp [StepState.kind])
  | recover kind _ htarget =>
    exact phaseAllows_of_runsTarget (Or.inl htarget) hallow (by simp [StepState.kind])
  | handlerRunning round hstate =>
    exact phaseAllows_of_runsTarget (Or.inr ⟨round, .starting, hstate⟩) hallow
      (by simp [StepState.kind])
  | skip _ _ _ hgate =>
    exact phaseAllows_of_open (phaseGateOpen_of_conditionGateReady hd hgate)
      (by simp [StepState.kind])
  | failureStop _ hid hstopped =>
    obtain ⟨issue, hworkflow⟩ := failureStopped_iff.mp hstopped
    have hrole := hcoherent.role_eq .step hid hd
    rw [hworkflow, hrole]
    rfl
  | notSelected _ hpending hid hfinalization =>
    have hrole := hcoherent.role_eq .finalizer hid hd
    rw [hpending, hrole] at hallow
    rw [hrole]
    exact hinv.settles_finalizer hallow hfinalization (.inl rfl)
  | forcedCancel _ hrole hphase hforced =>
    have hclosed := (hinv.forced (by
      unfold forceAbortedOrdinary at hforced
      exact Option.isSome_of_any hforced)).2.1
    obtain ⟨trigger, gate, issue, hworkflow⟩ := hphase
    rw [hrole, hworkflow, hforced]
    cases gate with
    | «open» =>
      rw [phaseGateOpen_finalizer.mpr ⟨trigger, issue, hworkflow⟩] at hclosed
      cases hclosed
    | cancelling => rfl
  | quiesce _ _ _ hstate =>
    rw [hstate] at hallow
    revert hallow
    simp only [StepState.kind, StepRuntimeState.settled_state]
    unfold Workflow.phaseAllows
    split <;> simp

theorem IssueMove.phaseAllows {issue : PrimaryIssue} (h : IssueMove s id d rt rt' issue)
    (hinv : PhaseInvariant s) (hcoherent : s.definition.Coherent)
    (hd : s.definition.steps.get? id = some d) (hrt : s.steps.get? id = some rt) :
    phaseAllows s.workflow (forceAbortedOrdinary s) d.role rt'.state.kind = true := by
  have hallow := hinv.nodes id d rt hd hrt
  cases h with
  | fail _ _ hfinal =>
    exact phaseAllows_of_runsTarget hfinal.active hallow (by simp [StepState.kind])
  | conditionFailed _ _ _ _ hgate =>
    exact phaseAllows_of_open (phaseGateOpen_of_conditionGateReady hd hgate)
      (by simp [StepState.kind])
  | blockOrdinary _ hpending hid =>
    have hrole := hcoherent.role_eq .step hid hd
    rw [hpending, hrole] at hallow
    rw [hrole]
    rcases pending_step hallow with h | ⟨issue, h⟩ <;> rw [h] <;> rfl
  | blockCondition _ _ _ _ _ hgate =>
    exact phaseAllows_of_open (phaseGateOpen_of_conditionPhaseGateOpen hgate)
      (by simp [StepState.kind])
  | blockInput _ hpending hid _ hready =>
    have hrole := hcoherent.role_eq .finalizer hid hd
    obtain ⟨finalization, hfinalization, -⟩ := finalizerReady_iff.mp hready
    rw [hpending, hrole] at hallow
    rw [hrole]
    exact hinv.settles_finalizer hallow hfinalization (.inr rfl)

end NodeMoves

/-- The phase invariant of a state with the same phase and other nodes. -/
theorem PhaseInvariant.withNodes (h : PhaseInvariant s) (hworkflow : t.workflow = s.workflow)
    (hfinalization : t.finalization = s.finalization) (hforce : t.forceAbort = s.forceAbort)
    (hnodes : ∀ id d rt, t.definition.steps.get? id = some d → t.steps.get? id = some rt →
      phaseAllows s.workflow (forceAbortedOrdinary s) d.role rt.state.kind = true) :
    PhaseInvariant t where
  nodes id d rt hd hrt := by
    rw [hworkflow, forceAbortedOrdinary, hforce]
    exact hnodes id d rt hd hrt
  executing gate hgate := by
    rw [hfinalization]
    exact h.executing gate (hworkflow ▸ hgate)
  executing_forced gate hgate hforced := by
    rw [forceAbortedOrdinary, hforce]
    exact h.executing_forced gate (hworkflow ▸ hgate) (hforce ▸ hforced)
  finalizing trigger gate issue hphase := by
    rw [hfinalization]
    exact h.finalizing trigger gate issue (hworkflow ▸ hphase)
  forced hforced := by
    have hclosed := h.forced (hforce ▸ hforced)
    simp only [phaseGateOpen, failureStopped] at hclosed ⊢
    rw [hworkflow]
    exact hclosed

/-- One node was given a state that its phase allows. -/
theorem PhaseInvariant.commit (h : PhaseInvariant s) (hrt : s.steps.get? id = some rt)
    (hallow : ∀ d, s.definition.steps.get? id = some d →
      phaseAllows s.workflow (forceAbortedOrdinary s) d.role rt'.state.kind = true) :
    PhaseInvariant (s.commit id rt') := by
  refine h.withNodes (s.commit_workflow id rt') (s.commit_finalization id rt')
    (s.commit_forceAbort id rt') ?_
  intro j d rtj hd hrtj
  rw [RuntimeState.commit_definition] at hd
  by_cases hj : j = id
  · subst hj
    rw [get?_commit_self hrt] at hrtj
    cases hrtj
    exact hallow d hd
  · rw [RuntimeState.get?_commit_of_ne hj] at hrtj
    exact h.nodes j d rtj hd hrtj

theorem PhaseInvariant.setNode (h : PhaseInvariant s) (hrt : s.steps.get? id = some rt)
    (hstate : rt'.state = rt.state) : PhaseInvariant (s.setNode id rt') := by
  refine h.withNodes rfl rfl rfl ?_
  intro j d rtj hd hrtj
  rw [RuntimeState.setNode_get?] at hrtj
  split_ifs at hrtj with hj
  · subst hj
    rw [hrt] at hrtj
    cases hrtj
    rw [hstate]
    exact h.nodes j d rt hd hrt
  · exact h.nodes j d rtj hd hrtj

/-- A contained node is settled or being cancelled. -/
theorem Contained.closed {force : Bool} (h : Contained actions id reason force rt rt')
    (hactive : ActiveIdentified rt) :
    rt'.state.isTerminal = true ∨ ∃ detail, rt'.state = .cancelling detail := by
  cases h with
  | drop => exact Or.inl rfl
  | contain => exact Or.inr ⟨_, rfl⟩
  | escalate _ detail hstate => exact Or.inr ⟨detail, hstate⟩
  | pass hstate =>
    rcases hstate with h | ⟨h, hnone⟩ | ⟨h, -⟩
    · exact Or.inl h
    · have hsome := (hactive h).1
      rw [hnone] at hsome
      cases hsome
    · exact Or.inr h

theorem isTerminal_iff_kind : state.isTerminal = true ↔
      (state.kind != .pending && state.kind != .starting && state.kind != .running &&
        state.kind != .capturingOutputs && state.kind != .recovering &&
        state.kind != .cancelling) = true := by
  cases state <;> simp [StepState.isTerminal, StepState.kind]

theorem closed_kind (h : state.isTerminal = true ∨ ∃ detail, state = .cancelling detail) :
    (state.kind != .pending && state.kind != .starting && state.kind != .running &&
      state.kind != .capturingOutputs && state.kind != .recovering) = true := by
  rcases h with h | ⟨detail, rfl⟩
  · cases state <;> simp_all [StepState.isTerminal, StepState.kind]
  · rfl

theorem allSettled_iff (hcoherent : s.definition.Coherent) :
    allSettled s role = true ↔ ∀ id d, s.definition.steps.get? id = some d → d.role = role →
      ∃ rt, s.steps.get? id = some rt ∧ rt.state.isTerminal = true := by
  simp only [allSettled, List.all_eq_true, stepIs, Option.any_eq_true]
  constructor
  · intro h id d hd hrole
    exact h id ((hcoherent.mem_idsOf role id).mpr ⟨d, hd, hrole⟩)
  · intro h id hid
    obtain ⟨d, hd, hrole⟩ := (hcoherent.mem_idsOf role id).mp hid
    exact h id d hd hrole

section Closing

variable {deadline : D} {closed : RuntimeState C V D}
  (h : CancelRun reason deadline force 1 ((nodesOfRole s role).map Prod.fst) closed m t)
  (hinv : PhaseInvariant s) (hmatch : NodesMatch s)
  (hactive : ∀ id rt, s.steps.get? id = some rt → ActiveIdentified rt)
  (hsteps : closed.steps = s.steps) (hdefinition : closed.definition = s.definition)
include h hinv hmatch hactive hsteps hdefinition

/-- The nodes of a phase that was closed are cancelled, the others are as before. -/
theorem CancelRun.closed_node (hd : t.definition.steps.get? id = some d)
    (hrt' : t.steps.get? id = some rt') :
    (d.role = role → rt'.state.isTerminal = true ∨ ∃ detail, rt'.state = .cancelling detail) ∧
      (d.role ≠ role →
        phaseAllows s.workflow (forceAbortedOrdinary s) d.role rt'.state.kind = true) := by
  rw [h.definition, hdefinition] at hd
  obtain ⟨rt, hrt⟩ := hmatch.runtime hd
  obtain ⟨rt'', hrt'', hin, hout⟩ := h.node (nodesOfRole_nodup s role) (hsteps ▸ hrt)
  cases hrt'.symm.trans hrt''
  constructor
  · intro hrole
    exact (hin ((mem_nodesOfRole_fst hd hrt).mpr hrole)).closed (hactive id rt hrt)
  · intro hrole
    rw [hout (fun hmem => hrole ((mem_nodesOfRole_fst hd hrt).mp hmem))]
    exact hinv.nodes id d rt hd hrt

/-- The ordinary phase was closed and its nodes were cancelled. -/
theorem CancelRun.phase_ordinary {gate : SchedulingGate} (hstep : role = .step)
    (hphase : s.workflow = .executing gate)
    (hclosed : ∃ reason issue, closed.workflow = .executing (.cancelling reason issue))
    (hfinalization : closed.finalization = s.finalization)
    (hforce : closed.forceAbort.isSome = true → forceAbortedOrdinary closed = true) :
    PhaseInvariant t := by
  obtain ⟨closedReason, issue, hworkflow⟩ := hclosed
  obtain ⟨hw, hf, ha⟩ := h.frame
  rw [hworkflow] at hw
  refine ⟨?_, ?_, ?_, ?_, ?_⟩
  · intro id d rt' hd hrt'
    obtain ⟨hin, hout⟩ := h.closed_node hinv hmatch hactive hsteps hdefinition hd hrt'
    rw [hw]
    cases hrole : d.role with
    | step => exact closed_kind (hin (hrole.trans hstep.symm))
    | finalizer =>
      rw [hphase, hrole, hstep] at hout
      exact hout (by decide)
  · intro _ _
    rw [hf, hfinalization]
    exact hinv.executing gate hphase
  · intro _ _ hforced
    rw [forceAbortedOrdinary, ha]
    exact hforce (ha ▸ hforced)
  · intro trigger gate issue heq
    rw [hw] at heq
    cases heq
  · intro _
    simp [phaseGateOpen, failureStopped, hw]

/-- The finalization phase was closed and its nodes were cancelled. -/
theorem CancelRun.phase_finalization {trigger : FinalizationTrigger}
    {gate : FinalizationGate D} {issue : Option PrimaryIssue} (hfinalizer : role = .finalizer)
    (hphase : s.workflow = .finalizing trigger gate issue) (hclosed : ∃ reason deadline force,
      closed.workflow = .finalizing trigger (.cancelling reason deadline force) issue)
    (hfinalization : ∃ f : FinalizationRuntime D → FinalizationRuntime D,
      closed.finalization = s.finalization.map f ∧
        ∀ x, (f x).trigger = x.trigger ∧ (f x).ordinaryOutcome = x.ordinaryOutcome)
    (hforce : forceAbortedOrdinary closed = false) : PhaseInvariant t := by
  obtain ⟨closedReason, closedDeadline, closedForce, hworkflow⟩ := hclosed
  obtain ⟨hw, hf, ha⟩ := h.frame
  rw [hworkflow] at hw
  have hforced : forceAbortedOrdinary t = false := by
    rw [forceAbortedOrdinary, ha]
    exact hforce
  refine ⟨?_, ?_, ?_, ?_, ?_⟩
  · intro id d rt' hd hrt'
    obtain ⟨hin, hout⟩ := h.closed_node hinv hmatch hactive hsteps hdefinition hd hrt'
    rw [hw, hforced]
    cases hrole : d.role with
    | finalizer => exact closed_kind (hin (hrole.trans hfinalizer.symm))
    | step =>
      rw [hphase, hrole, hfinalizer] at hout
      exact hout (by decide)
  · intro gate heq
    rw [hw] at heq
    cases heq
  · intro gate heq
    rw [hw] at heq
    cases heq
  · intro trigger' gate' issue' heq
    rw [hw] at heq
    cases heq
    obtain ⟨finalization, hsome, hfits⟩ := hinv.finalizing trigger gate issue hphase
    obtain ⟨f, hmap, hkeep⟩ := hfinalization
    obtain ⟨htrigger, houtcome⟩ := hkeep finalization
    refine ⟨f finalization, by rw [hf, hmap, hsome]; rfl, ?_⟩
    rw [htrigger, houtcome]
    exact hfits
  · intro _
    simp [phaseGateOpen, failureStopped, hw]

end Closing

theorem issueTarget_spec {w' : WorkflowState D} {issue : PrimaryIssue}
    (h : issueTarget w d issue = some w') : d.failurePolicy = .required ∧
      (d.role = .step ∧ w = .executing .open ∧ w' = .executing (.failureStopped issue) ∨
        d.role = .finalizer ∧ w = .finalizing .succeeded .open none ∧
          w' = .finalizing .succeeded .open (some issue)) := by
  unfold issueTarget at h
  split_ifs at h with hpolicy
  refine ⟨hpolicy, ?_⟩
  split at h
  · rename_i hrole
    cases h
    exact Or.inl ⟨hrole, rfl, rfl⟩
  · rename_i hrole
    cases h
    exact Or.inr ⟨hrole, rfl, rfl⟩
  · cases h

section

variable (h : PhaseInvariant s)
include h

/-- The ordinary phase has settled when finalization is entered. -/
theorem PhaseInvariant.step_settled (hphase : s.Finalizing)
    (hd : s.definition.steps.get? id = some d) (hrt : s.steps.get? id = some rt)
    (hrole : d.role = .step) : rt.state.isTerminal = true := by
  obtain ⟨trigger, gate, issue, hworkflow⟩ := hphase
  have hallow := h.nodes id d rt hd hrt
  rw [hworkflow, hrole] at hallow
  exact isTerminal_iff_kind.mpr hallow

/-- Every node has settled when the run has finished. -/
theorem PhaseInvariant.node_settled
    (hterminal : s.workflow.isTerminal = true) (hd : s.definition.steps.get? id = some d)
    (hrt : s.steps.get? id = some rt) : rt.state.isTerminal = true := by
  have hallow := h.nodes id d rt hd hrt
  rw [isTerminal_iff_kind]
  cases hworkflow : s.workflow with
  | executing | finalizing => rw [hworkflow] at hterminal; cases hterminal
  | succeeded | failed | cancelled =>
    rw [hworkflow] at hallow
    cases hrole : d.role <;> rw [hrole] at hallow <;> exact hallow

/-- A force abort closes both gates. -/
theorem PhaseInvariant.forceAbort_eq_none (role : WorkflowNodeRole)
    (hgate : phaseGateOpen s role = true) : s.forceAbort = none := by
  cases hforce : s.forceAbort with
  | none => rfl
  | some =>
    obtain ⟨hstep, hfinalizer, -⟩ := h.forced (by rw [hforce]; rfl)
    cases role
    · rw [hgate] at hstep
      cases hstep
    · rw [hgate] at hfinalizer
      cases hfinalizer

/-- The first required issue of a phase changes the gate and nothing else. -/
theorem PhaseInvariant.issue {issue : PrimaryIssue} {w : WorkflowState D}
    (htarget : issueTarget s.workflow d issue = some w) : PhaseInvariant (s.advance w) := by
  obtain ⟨-, ⟨-, hworkflow, rfl⟩ | ⟨-, hworkflow, rfl⟩⟩ := issueTarget_spec htarget
  · have hnone := h.forceAbort_eq_none .step (phaseGateOpen_step.mpr hworkflow)
    refine ⟨?_, ?_, ?_, ?_, ?_⟩
    · intro id d rt hd hrt
      have hallow := h.nodes id d rt (by simpa using hd) (by simpa using hrt)
      rw [hworkflow] at hallow
      cases hrole : d.role with
      | step =>
        rw [hrole] at hallow
        simp only [phaseAllows, Bool.and_eq_true] at hallow
        simp [phaseAllows, hallow.1.1, hallow.1.2]
      | finalizer =>
        rw [hrole] at hallow
        exact hallow
    · intro _ _
      rw [advance_finalization]
      exact h.executing .open hworkflow
    · intro _ _ hforced
      rw [advance_forceAbort, hnone] at hforced
      cases hforced
    · intro trigger gate issue heq
      cases heq
    · intro hforced
      rw [advance_forceAbort, hnone] at hforced
      cases hforced
  · have hnone := h.forceAbort_eq_none .finalizer (phaseGateOpen_finalizer.mpr ⟨_, _, hworkflow⟩)
    refine ⟨?_, ?_, ?_, ?_, ?_⟩
    · intro id d rt hd hrt
      have hallow := h.nodes id d rt (by simpa using hd) (by simpa using hrt)
      rw [hworkflow] at hallow
      cases hrole : d.role <;> rw [hrole] at hallow <;> exact hallow
    · intro gate heq
      cases heq
    · intro gate heq
      cases heq
    · intro trigger gate issue heq
      cases heq
      rw [advance_finalization]
      obtain ⟨finalization, hsome, htrigger, houtcome, -⟩ := h.finalizing _ _ _ hworkflow
      refine ⟨finalization, hsome, htrigger, houtcome, fun hne => absurd ?_ hne⟩
      cases hordinary : finalization.ordinaryOutcome with
      | succeeded => rfl
      | failed | cancelled =>
        rw [hordinary] at houtcome
        cases houtcome
    · intro hforced
      rw [advance_forceAbort, hnone] at hforced
      cases hforced

end

theorem ordinaryOutcome_executing (h : ordinaryOutcome s = some outcome) :
    ∃ gate, s.workflow = .executing gate := by
  unfold ordinaryOutcome at h
  split at h
  · exact ⟨_, ‹_›⟩
  · exact ⟨_, ‹_›⟩
  · exact ⟨_, ‹_›⟩
  · exact ⟨_, ‹_›⟩
  all_goals cases h

theorem PhaseInvariant.enter (h : PhaseInvariant s) (hcoherent : s.definition.Coherent)
    (hsettled : allSettled s .step = true) (houtcome : ordinaryOutcome s = some outcome) :
    PhaseInvariant { s.advance (.finalizing outcome.trigger s.entryGate outcome.primaryIssue) with
        finalization := some (s.entryRuntime outcome) } := by
  obtain ⟨gate, hworkflow⟩ := ordinaryOutcome_executing houtcome
  refine ⟨?_, ?_, ?_, ?_, ?_⟩
  · intro id d rt hd hrt
    have hd' : s.definition.steps.get? id = some d := by simpa using hd
    have hrt' : s.steps.get? id = some rt := by simpa using hrt
    have hforce : forceAbortedOrdinary
        { s.advance (.finalizing outcome.trigger s.entryGate outcome.primaryIssue) with
          finalization := some (s.entryRuntime outcome) } = forceAbortedOrdinary s := by
      simp [forceAbortedOrdinary]
    rw [hforce]
    cases hrole : d.role with
    | step =>
      obtain ⟨rt'', hrt'', hterminal⟩ := (allSettled_iff hcoherent).mp hsettled id d hd' hrole
      cases hrt'.symm.trans hrt''
      exact isTerminal_iff_kind.mp hterminal
    | finalizer =>
      have hallow := h.nodes id d rt hd' hrt'
      rw [hworkflow, hrole] at hallow
      simp only [phaseAllows, Bool.or_eq_true, beq_iff_eq] at hallow
      simp only [RuntimeState.advance_workflow, RuntimeState.entryGate]
      cases forceAbortedOrdinary s <;> rcases hallow with hk | hk <;> rw [hk] <;> rfl
  · intro gate heq
    cases heq
  · intro gate heq
    cases heq
  · intro trigger gate issue heq
    cases heq
    exact ⟨_, rfl, rfl, rfl, fun _ => rfl⟩
  · intro hforced
    have hordinary := h.executing_forced gate hworkflow (by simpa using hforced)
    simp [phaseGateOpen, failureStopped, RuntimeState.entryGate, hordinary]

theorem PhaseInvariant.finish {summary : Option (FinalizationSummary D)} {exports : ExportSet V}
    (h : PhaseInvariant s) (hcoherent : s.definition.Coherent)
    (hready : FinishReady s outcome summary) : PhaseInvariant { s.advance outcome.workflowState with
        exports := some exports
        finalizationSummary := summary } := by
  have hterminal : ∀ id d rt, s.definition.steps.get? id = some d → s.steps.get? id = some rt →
      (rt.state.kind != .pending && rt.state.kind != .starting && rt.state.kind != .running &&
        rt.state.kind != .capturingOutputs && rt.state.kind != .recovering &&
        rt.state.kind != .cancelling) = true := by
    intro id d rt hd hrt
    -- a node of the role that was waited for has settled
    have hrole : ∀ role, allSettled s role = true → d.role = role →
        rt.state.isTerminal = true := by
      intro role hsettled hrole
      obtain ⟨rt', hrt', hterminal⟩ := (allSettled_iff hcoherent).mp hsettled id d hd hrole
      cases hrt.symm.trans hrt'
      exact hterminal
    cases hready with
    | ordinary hsettled _ hfinalizers =>
      cases hd' : d.role with
      | step => exact isTerminal_iff_kind.mp (hrole .step hsettled hd')
      | finalizer =>
        have hmem := (hcoherent.mem_idsOf .finalizer id).mpr ⟨d, hd, hd'⟩
        rw [idsOf, hfinalizers] at hmem
        cases hmem
    | finalization hphase hsettled =>
      cases hd' : d.role with
      | finalizer => exact isTerminal_iff_kind.mp (hrole .finalizer hsettled hd')
      | step =>
        obtain ⟨trigger, gate, issue, hworkflow⟩ := hphase
        have hallow := h.nodes id d rt hd hrt
        rw [hworkflow, hd'] at hallow
        exact hallow
  refine ⟨?_, ?_, ?_, ?_, ?_⟩
  · intro id d rt hd hrt
    have hkind := hterminal id d rt (by simpa using hd) (by simpa using hrt)
    cases outcome <;> cases d.role <;> exact hkind
  · intro gate heq
    cases outcome <;> cases heq
  · intro gate heq
    cases outcome <;> cases heq
  · intro trigger gate issue heq
    cases outcome <;> cases heq
  · intro _
    cases outcome <;> exact ⟨rfl, rfl, rfl⟩

theorem initialState_phase (definition : RuntimeDefinition) (seed : ExecutionSeed V) :
    PhaseInvariant (initialState definition seed : RuntimeState C V D) where
  nodes id d rt hd hrt := by
    cases (get?_initialState hd seed).symm.trans hrt
    have hkind : (initialStep seed id d : StepRuntimeState C V).state.kind = .pending ∨
        (initialStep seed id d : StepRuntimeState C V).state.kind = .inherited := by
      unfold initialStep
      dsimp only
      split
      · exact Or.inl rfl
      · exact Or.inr rfl
    rcases hkind with h | h <;> rw [h] <;> cases d.role <;> rfl
  executing _ _ := rfl
  executing_forced _ _ hforced := nomatch hforced
  finalizing _ _ _ hphase := nomatch hphase
  forced hforced := nomatch hforced

variable [ConditionOutput V]

/-- Every step keeps the phase invariant. -/
theorem ReducerStep.phase (hstep : ReducerStep o s m t) (hinv : PhaseInvariant s)
    (hcoherent : s.definition.Coherent) (hmatch : NodesMatch s)
    (hactive : ∀ id rt, s.steps.get? id = some rt → ActiveIdentified rt) : PhaseInvariant t := by
  cases hstep with
  | node hd hrt hmove | issue hd hrt hmove =>
    refine hinv.commit hrt (fun d hd' => ?_)
    cases hd.symm.trans hd'
    exact hmove.phaseAllows hinv hcoherent hd hrt
  | @complete id _ _ _ hrt hstate =>
    have hallow : ∀ d', s.definition.steps.get? id = some d' → ∀ kind,
        kind = .capturingOutputs ∨ kind = .succeeded →
        phaseAllows s.workflow (forceAbortedOrdinary s) d'.role kind = true := by
      intro d' hd' kind hkind
      refine phaseAllows_of_runsTarget (Or.inl (Or.inr (Or.inl hstate)))
        (hinv.nodes _ _ _ hd' hrt) ?_
      rcases hkind with rfl | rfl <;> simp
    refine (hinv.commit hrt (fun d' hd' => ?_)).commit (get?_commit_self hrt _)
      (fun d' hd' => ?_)
    · exact hallow d' hd' _ (Or.inl rfl)
    · rw [RuntimeState.commit_workflow, forceAbortedOrdinary, RuntimeState.commit_forceAbort]
      exact hallow d' (by simpa using hd') _ (Or.inr rfl)
  | primaryIssue hd hrt hmove htarget =>
    refine (hinv.commit hrt (fun d hd' => ?_)).issue (by simpa using htarget)
    cases hd.symm.trans hd'
    exact hmove.phaseAllows hinv hcoherent hd hrt
  | note hrt hnote => exact hinv.setNode hrt hnote.1.state
  | passed _ hrt => exact hinv.setNode hrt rfl
  | release => exact hinv
  | operation => exact hinv.withNodes rfl rfl rfl hinv.nodes
  | @cancelOrdinary gate reason _ operation _ _ hphase _ hcancel =>
    refine hcancel.phase_ordinary hinv hmatch hactive (tick_steps _) (tick_definition _) rfl
      hphase ⟨_, _, tick_workflow _⟩ (tick_finalization _) (fun hforced => ?_)
    have hforce : (s.closeOrdinary gate reason operation).forceAbort = s.forceAbort :=
      RuntimeState.tick_forceAbort _
    rw [forceAbortedOrdinary, hforce]
    exact hinv.executing_forced _ hphase (hforce ▸ hforced)
  | cancelFinalization hphase hcancel =>
    refine hcancel.phase_finalization hinv hmatch hactive (tick_steps _) (tick_definition _) rfl
      hphase ⟨_, _, _, tick_workflow _⟩ ⟨_, tick_finalization _, fun _ => ⟨rfl, rfl⟩⟩ ?_
    have hnone := hinv.forceAbort_eq_none .finalizer (phaseGateOpen_finalizer.mpr ⟨_, _, hphase⟩)
    simp [forceAbortedOrdinary, RuntimeState.closeFinalization, hnone]
  | @forceOrdinary gate _ _ _ _ hphase _ hcancel =>
    refine hcancel.phase_ordinary hinv hmatch hactive (tick_steps _) (tick_definition _) rfl
      hphase ?_ (tick_finalization _) (fun _ => ?_)
    · cases gate <;> exact ⟨_, _, tick_workflow _⟩
    · simp [forceAbortedOrdinary, RuntimeState.forceOrdinary]
  | @forceFinalization _ gate _ _ _ _ _ hphase _ hcancel =>
    refine hcancel.phase_finalization hinv hmatch hactive (tick_steps _) (tick_definition _) rfl
      hphase ?_ ⟨_, tick_finalization _, fun _ => ⟨rfl, rfl⟩⟩ ?_
    · cases gate <;> exact ⟨_, _, _, tick_workflow _⟩
    · simp [forceAbortedOrdinary, RuntimeState.forceFinalization]
  | enter hsettled houtcome => exact hinv.enter hcoherent hsettled houtcome
  | finish hready => exact hinv.finish hcoherent hready

variable {definition : RuntimeDefinition} {seed : ExecutionSeed V}

/-- Every reachable state satisfies the phase invariant. -/
theorem Reachable.phase (h : Reachable definition seed m s) (hcoherent : definition.Coherent) :
    PhaseInvariant s := by
  refine h.invariant (initialState_phase definition seed) ?_
  rintro o s n t ⟨m, hreach⟩ hs hstep
  refine hstep.phase hs (hreach.coherent hcoherent) hreach.nodesMatch ?_
  intro id rt hrt
  obtain ⟨d, hd⟩ := hreach.nodesMatch.definition hrt
  exact hreach.active_identified (hreach.definition_eq ▸ hd) hrt

end ScherzoCloud.Workflow
