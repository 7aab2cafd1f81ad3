import ScherzoCloud.Workflow.Acceptances
import ScherzoCloud.Workflow.DefinitionFacts

/-!
# What an accepted cancellation stops

An action requests new work when it starts a target, a recovery handler or a
capture.  Such an action is requested by a node that runs, or that its open gate
lets start; an accepted cancellation leaves neither in the phase it cancels, and
an accepted force abort in no phase.
-/

namespace ScherzoCloud.Workflow

open Collections

variable {O C V D : Type} {s t : RuntimeState C V D} {m n : Emission O C V D} {id : String}
  {d : RuntimeStep} {rt rt' : StepRuntimeState C V} {reason : CancellationReason} {deadline : D}
  {force : Option CancellationOperationId} {role : WorkflowNodeRole} {e : TransitionEvent D}
  {o : Option (Occurrence O C V D)} {definition : RuntimeDefinition} {seed : ExecutionSeed V}

/-- The node for which an action requests new work. -/
def workTarget (a : RequestedAction O C V D) : Option String :=
  match a.action with
  | .startStep id _ _ | .startRecoveryHandler id _ _ _ | .captureOutputs id _ => some id
  | .releaseStepResources _ | .cancelStep _ _ _ _ | .forceAbortStep _ _ _ _ | .finishRun _ _ => none

/-- A cancellation stops the work of its phase, a force abort all work. -/
def stopsWork (role : WorkflowNodeRole) : TransitionEvent D → Bool
  | .cancellationAccepted _ _ _ => role = .step
  | .finalizationCancellationAccepted _ _ _ => role = .finalizer
  | .forceAbortAccepted _ _ _ => true
  | .step _ _ _ _ _ _ | .workflow _ _ _ => false

/-- The role whose nodes an acceptance cancels. -/
def cancelledRole : TransitionEvent D → Option WorkflowNodeRole
  | .cancellationAccepted _ _ _ | .forceAbortAccepted _ _ .ordinary => some .step
  | .finalizationCancellationAccepted _ _ _ | .forceAbortAccepted _ _ .finalization =>
    some .finalizer
  | .step _ _ _ _ _ _ | .workflow _ _ _ => none

/-- A node has settled or is being cancelled under one of the actions. -/
def ContainedIn (actions : List (RequestedAction O C V D)) (id : String)
    (rt : StepRuntimeState C V) : Prop :=
  rt.state.isTerminal = true ∨
    (∃ detail, rt.state = .cancelling detail) ∧
      ∃ action, rt.currentAction = some action ∧ ContainedUnder actions id action

/-- Nodes of a role may still be working. -/
def mayWork : WorkflowNodeRole → WorkflowState D → Bool
  | .step, .executing .open | .step, .executing (.failureStopped _)
  | .finalizer, .finalizing _ .open _ => true
  | _, _ => false

section Work

variable {a : RequestedAction O C V D}

theorem CancelMove.mem_actions {index next : Nat}
    (h : CancelMove reason deadline force index s id next m t) (ha : a ∈ m.actions) :
    ∃ active, a = containment reason deadline force s index id active := by
  cases h with
  | drop => cases ha
  | contain => exact ⟨_, List.mem_singleton.mp ha⟩
  | escalate =>
    obtain ⟨active, -, rfl⟩ := List.mem_map.mp ha
    exact ⟨active, rfl⟩
  | pass => cases ha

/-- A cancellation requests nothing but containment. -/
theorem CancelRun.mem_actions {index : Nat} {ids : List String}
    (h : CancelRun reason deadline force index ids s m t) (ha : a ∈ m.actions) :
    ∃ number id active, a = ⟨number, .cancelStep id active reason deadline⟩ ∨
      a = ⟨number, .forceAbortStep id active reason deadline⟩ := by
  induction h with
  | nil => cases ha
  | cons hmove _ ih =>
    rcases List.mem_append.mp ha with ha | ha
    · obtain ⟨active, rfl⟩ := hmove.mem_actions ha
      cases force with
      | none => exact ⟨_, _, active, Or.inl rfl⟩
      | some => exact ⟨_, _, active, Or.inr rfl⟩
    · exact ih ha

theorem phaseAllows_of_not_mayWork {w : WorkflowState D} {forced : Bool} {kind : StepStateKind}
    (hclosed : mayWork role w = false) (h : phaseAllows w forced role kind = true) :
    kind ≠ .starting ∧ kind ≠ .running ∧ kind ≠ .capturingOutputs ∧ kind ≠ .recovering := by
  refine ⟨?_, ?_, ?_, ?_⟩ <;>
  · rintro rfl
    revert h hclosed
    unfold mayWork phaseAllows
    split <;> split <;> simp_all

theorem mayWork_of_phaseGateOpen (h : phaseGateOpen s role = true) :
    mayWork role s.workflow = true := by
  cases role with
  | step =>
    rw [phaseGateOpen_step.mp h]
    rfl
  | finalizer =>
    obtain ⟨trigger, issue, hworkflow⟩ := phaseGateOpen_finalizer.mp h
    rw [hworkflow]
    rfl

/-- What was accepted once cannot be accepted again. -/
theorem eq_false_of_counted {count : Nat} {cancellable : Bool}
    (h : count + (if cancellable then 1 else 0) ≤ 1) (hcount : 0 < count) :
    cancellable = false := by
  cases cancellable with
  | false => rfl
  | true =>
    simp only [if_true] at h
    omega

/-- After an acceptance the stopped role has nothing that may work. -/
theorem AcceptedOnce.not_mayWork {events : List (TransitionEvent D)} (h : AcceptedOnce events s)
    (hinv : PhaseInvariant s) (he : e ∈ events) (hstops : stopsWork role e = true) :
    mayWork role s.workflow = false := by
  cases e with
  | step => cases hstops
  | workflow => cases hstops
  | cancellationAccepted =>
    obtain rfl : role = .step := of_decide_eq_true hstops
    have hclosed := eq_false_of_counted h.ordinary (List.countP_pos_iff.mpr ⟨_, he, rfl⟩)
    revert hclosed
    unfold ordinaryCancellable mayWork
    split <;> simp_all
  | finalizationCancellationAccepted =>
    obtain rfl : role = .finalizer := of_decide_eq_true hstops
    have hclosed := eq_false_of_counted h.finalization (List.countP_pos_iff.mpr ⟨_, he, rfl⟩)
    revert hclosed
    unfold finalizationCancellable mayWork
    split <;> simp_all
  | forceAbortAccepted =>
    have hforced := eq_false_of_counted h.force (List.countP_pos_iff.mpr ⟨_, he, rfl⟩)
    obtain ⟨hstep, hfinalizer, hstopped⟩ := hinv.forced (Option.isNone_eq_false_iff.mp hforced)
    unfold phaseGateOpen at hstep hfinalizer
    unfold failureStopped at hstopped
    unfold mayWork
    split <;> simp_all

variable [ConditionOutput V] {actions : List (RequestedAction O C V D)}

/-- A move requests at most one action, and that is new work for its node. -/
theorem NodeMove.eq_singleton (h : NodeMove o s id d rt rt' actions) (ha : a ∈ actions) :
    actions = [a] ∧ workTarget a = some id := by
  cases h with
  | start | retry | recheck | capture | recover =>
    obtain rfl := List.mem_singleton.mp ha
    exact ⟨rfl, rfl⟩
  | run | succeed | handlerRunning | skip | failureStop | notSelected | forcedCancel | quiesce =>
    cases ha

/-- Who may request new work. -/
theorem NodeMove.work_guard (h : NodeMove o s id d rt rt' [a]) :
    phaseGateOpen s d.role = true ∨ rt.RunsTarget ∨
      ∃ round activity, rt.state = .recovering round activity := by
  cases h with
  | start _ _ hgate => exact Or.inl hgate
  | retry _ _ htarget | recover _ _ htarget => exact Or.inr (Or.inl htarget)
  | recheck _ round _ _ hstate => exact Or.inr (Or.inr ⟨round, _, hstate⟩)
  | capture _ hstate => exact Or.inr (Or.inl (Or.inr (Or.inl hstate)))

/-- New work is requested by a move of the node it is for. -/
theorem ReducerStep.work (hstep : ReducerStep o s m t) (ha : a ∈ m.actions)
    (hwork : workTarget a = some id) :
    ∃ d rt rt', s.definition.steps.get? id = some d ∧ s.steps.get? id = some rt ∧
      t = s.commit id rt' ∧ m.actions = [a] ∧ NodeMove o s id d rt rt' [a] := by
  cases hstep with
  | node hd hrt hmove =>
    obtain ⟨rfl, htarget⟩ := hmove.eq_singleton ha
    cases hwork.symm.trans htarget
    exact ⟨_, _, _, hd, hrt, rfl, rfl, hmove⟩
  | complete | issue | primaryIssue | note | passed | operation | enter => cases ha
  | release | finish =>
    rw [List.mem_singleton.mp ha] at hwork
    cases hwork
  | cancelOrdinary _ _ hcancel | cancelFinalization _ hcancel | forceOrdinary _ _ hcancel
  | forceFinalization _ _ hcancel =>
    obtain ⟨number, id', active, rfl | rfl⟩ := hcancel.mem_actions ha <;> cases hwork

variable (h : Reachable definition seed m s) (hcoherent : definition.Coherent) (he : e ∈ m.events)
  (hstops : stopsWork role e = true)
include h hcoherent he hstops

/-- After an acceptance no step requests work of the stopped role. -/
theorem Reachable.work_stopped (hstep : ReducerStep o s n t)
    (ha : a ∈ n.actions) (hwork : workTarget a = some id) :
    ∃ d, definition.steps.get? id = some d ∧ d.role ≠ role := by
  obtain ⟨d, rt, rt', hd, hrt, -, -, hmove⟩ := hstep.work ha hwork
  refine ⟨d, by rwa [← h.definition_eq], ?_⟩
  rintro rfl
  have hinv := h.phase hcoherent
  have hclosed := h.acceptedOnce.not_mayWork hinv he hstops
  obtain ⟨hstarting, hrunning, hcapturing, hrecovering⟩ :=
    phaseAllows_of_not_mayWork hclosed (hinv.nodes id d rt hd hrt)
  rcases hmove.work_guard with hgate | (hstate | hstate | hstate) | ⟨round, activity, hstate⟩
  · rw [mayWork_of_phaseGateOpen hgate] at hclosed
    cases hclosed
  · exact hstarting (by rw [hstate]; rfl)
  · exact hrunning (by rw [hstate]; rfl)
  · exact hcapturing (by rw [hstate]; rfl)
  · exact hrecovering (by rw [hstate]; rfl)

/-- The same for the rest of a run. -/
theorem Reachable.run_work_stopped
    (hrun : Run s n t) : ∀ a ∈ n.actions, ∀ id, workTarget a = some id →
      ∃ d, definition.steps.get? id = some d ∧ d.role ≠ role := by
  have hall := hrun.history (m := 1) (I := fun n t =>
    Reachable definition seed (m * n) t ∧ ∀ a ∈ n.actions, ∀ id, workTarget a = some id →
      ∃ d, definition.steps.get? id = some d ∧ d.role ≠ role) ?_ ?_
  · rw [one_mul] at hall
    exact hall.2
  · rintro n s k t ⟨hreach, hprior⟩ ⟨o, hstep⟩
    refine ⟨by rw [← mul_assoc]; exact hreach.tail ⟨o, hstep⟩, ?_⟩
    intro a ha id hwork
    rcases List.mem_append.mp ha with ha | ha
    · exact hprior a ha id hwork
    · exact hreach.work_stopped hcoherent (List.mem_append_left _ he) hstops hstep ha hwork
  · rw [mul_one]
    exact ⟨h, fun a ha => nomatch ha⟩

end Work

section Containment

variable {as bs : List (RequestedAction O C V D)}

theorem ContainedIn.mono (h : ContainedIn as id rt) (hsub : as ⊆ bs) : ContainedIn bs id rt :=
  h.imp_right (fun ⟨hstate, action, hcurrent, hunder⟩ =>
    ⟨hstate, action, hcurrent, hunder.mono hsub⟩)

/-- The cancellation of its phase leaves a node contained, unless it was already being cancelled
and is not forced. -/
theorem Contained.containedIn {force : Bool} (h : Contained as id reason force rt rt')
    (hactive : ActiveIdentified rt)
    (hfresh : force = false → ∀ detail, rt.state ≠ .cancelling detail) : ContainedIn as id rt' := by
  cases h with
  | drop => exact Or.inl rfl
  | contain action _ _ _ hunder => exact Or.inr ⟨⟨_, rfl⟩, action, rfl, hunder⟩
  | escalate action detail hstate _ hunder =>
    exact Or.inr ⟨⟨detail, hstate⟩, action, rfl, hunder (hactive (by rw [hstate]; rfl)).1⟩
  | pass hstate =>
    rcases hstate with hterminal | ⟨h, hnone⟩ | ⟨⟨detail, hstate⟩, hforce⟩
    · exact Or.inl hterminal
    · have hsome := (hactive h).1
      rw [hnone] at hsome
      cases hsome
    · exact absurd hstate (hfresh hforce detail)

theorem CancelRun.containedIn {closed : RuntimeState C V D}
    (h : CancelRun reason deadline force 1 ((nodesOfRole s role).map Prod.fst) closed m t)
    (hsteps : closed.steps = s.steps) (hd : s.definition.steps.get? id = some d)
    (hrole : d.role = role) (hrt : s.steps.get? id = some rt) (hactive : ActiveIdentified rt)
    (hfresh : force = none → rt.state.kind ≠ .cancelling) :
    ∃ rt', t.steps.get? id = some rt' ∧ ContainedIn m.actions id rt' := by
  obtain ⟨rt', hrt', hin, -⟩ := h.node (nodesOfRole_nodup s role) (hsteps ▸ hrt)
  refine ⟨rt', hrt', (hin ((mem_nodesOfRole_fst hd hrt).mpr hrole)).containedIn hactive ?_⟩
  intro hnone detail hstate
  refine hfresh (Option.isSome_eq_false_iff.mp hnone |> Option.isNone_iff_eq_none.mp) ?_
  rw [hstate]
  rfl

variable [ConditionOutput V]

/-- A contained node is quiesced, escalated or left alone. -/
theorem NodeChange.containedIn (h : NodeChange o s m id d rt rt') (hactive : ActiveIdentified rt)
    (hrt : ContainedIn as id rt) : ContainedIn (as ++ m.actions) id rt' := by
  rcases hrt with hterminal | ⟨⟨detail, hstate⟩, hcurrent⟩
  · exact Or.inl (by rwa [h.settled_fixed hterminal])
  have hkeep : ∀ {rt' : StepRuntimeState C V}, rt'.state = rt.state →
      rt'.currentAction = rt.currentAction → ContainedIn (as ++ m.actions) id rt' := by
    intro rt' hstate' hcurrent'
    refine ContainedIn.mono (Or.inr ⟨⟨detail, hstate'.trans hstate⟩, ?_⟩)
      (List.subset_append_left as m.actions)
    rwa [hcurrent']
  have hother : ∀ {state : StepState V}, rt.state = state →
      state.kind = .cancelling := by
    rintro state rfl
    rw [hstate]
    rfl
  have hrunning : ¬ (rt.RunsTarget ∨ ∃ round activity, rt.state = .recovering round activity) := by
    rintro ((h | h | h) | ⟨round, activity, h⟩) <;> exact nomatch hother h
  cases h with
  | same => exact hkeep rfl rfl
  | move h =>
    cases h with
    | quiesce => exact Or.inl rfl
    | retry _ _ htarget | recover _ _ htarget => exact absurd (Or.inl htarget) hrunning
    | start _ hstate | recheck _ _ _ _ hstate | run hstate | capture _ hstate
    | succeed _ _ hstate | handlerRunning _ hstate | skip _ _ _ _ hstate
    | failureStop hstate | notSelected _ hstate | forcedCancel hstate =>
      exact nomatch hother hstate
  | complete hstate => exact nomatch hother hstate
  | issue h =>
    cases h with
    | fail _ _ hfinal => exact absurd hfinal.active hrunning
    | conditionFailed _ _ _ _ _ hstate | blockOrdinary _ hstate | blockCondition _ hstate
    | blockInput _ hstate => exact nomatch hother hstate
  | note h => exact hkeep h.1.state h.1.currentAction
  | passed => exact hkeep rfl rfl
  | contained h =>
    cases h with
    | drop hstate => exact nomatch hother hstate
    | contain _ _ hstate => exact absurd hstate hrunning
    | escalate action _ _ _ hunder =>
      refine Or.inr ⟨⟨detail, hstate⟩, action, rfl, ?_⟩
      exact (hunder (hactive (by rw [hstate]; rfl)).1).mono (List.subset_append_right as m.actions)
    | pass => exact hkeep rfl rfl

omit [ConditionOutput V] in
theorem CancelRun.cancelledRole (h : CancelRun reason deadline force index ids s m t)
    (he : e ∈ m.events) : cancelledRole e = none := by
  obtain ⟨_, _, _, _, _, _, _, rfl, -⟩ := h.mem_events he
  rfl

/-- The step that accepts a cancellation contains the nodes of the cancelled role. -/
theorem ReducerStep.containedIn (hstep : ReducerStep o s m t) (hinv : PhaseInvariant s)
    (he : e ∈ m.events) (hcancelled : cancelledRole e = some d.role)
    (hd : s.definition.steps.get? id = some d) (hrt : s.steps.get? id = some rt)
    (hactive : ActiveIdentified rt) :
    ∃ rt', t.steps.get? id = some rt' ∧ ContainedIn m.actions id rt' := by
  have hallow := hinv.nodes id d rt hd hrt
  cases hstep with
  | node | issue | enter | finish =>
    rw [List.mem_singleton.mp he] at hcancelled
    cases hcancelled
  | complete | primaryIssue =>
    rcases List.mem_cons.mp he with rfl | he
    · cases hcancelled
    · rw [List.mem_singleton.mp he] at hcancelled
      cases hcancelled
  | note | passed | release | operation => cases he
  | @cancelOrdinary gate _ _ _ _ _ hphase hgate hcancel =>
    rcases List.mem_cons.mp he with rfl | he
    · have hrole : d.role = .step := (Option.some.inj hcancelled).symm
      refine hcancel.containedIn (RuntimeState.tick_steps _) hd hrole hrt hactive (fun _ => ?_)
      rw [hphase, hrole] at hallow
      cases gate with
      | cancelling earlier issue => exact absurd rfl (hgate earlier issue)
      | «open» | failureStopped =>
        intro hkind
        rw [hkind] at hallow
        cases hallow
    · cases (hcancel.cancelledRole he).symm.trans hcancelled
  | @cancelFinalization _ _ _ _ _ _ _ hphase hcancel =>
    rcases List.mem_cons.mp he with rfl | he
    · have hrole : d.role = .finalizer := (Option.some.inj hcancelled).symm
      refine hcancel.containedIn (RuntimeState.tick_steps _) hd hrole hrt hactive (fun _ => ?_)
      rw [hphase, hrole] at hallow
      intro hkind
      rw [hkind] at hallow
      cases hallow
    · cases (hcancel.cancelledRole he).symm.trans hcancelled
  | @forceOrdinary gate deadline operation n t hphase hfirst hcancel
  | @forceFinalization trigger gate issue deadline operation n t hphase hfirst hcancel =>
    rcases List.mem_cons.mp he with rfl | he
    · exact hcancel.containedIn (RuntimeState.tick_steps _) hd
        (Option.some.inj hcancelled).symm hrt hactive (fun hnone => nomatch hnone)
    · cases (hcancel.cancelledRole he).symm.trans hcancelled

/-- A part of a run that accepted a cancellation left the cancelled role contained under its own
actions. -/
def ContainedAfter (definition : RuntimeDefinition) (m : Emission O C V D)
    (s : RuntimeState C V D) : Prop :=
  ∀ e ∈ m.events, ∀ id d, definition.steps.get? id = some d → cancelledRole e = some d.role →
    ∃ rt, s.steps.get? id = some rt ∧ ContainedIn m.actions id rt

theorem ContainedAfter.step (h : ContainedAfter definition m s) (hstep : ReducerStep o s n t)
    (hdefinition : s.definition = definition) (hinv : PhaseInvariant s) (hnodes : NodesMatch s)
    (hactive : ∀ id rt, s.steps.get? id = some rt → ActiveIdentified rt) :
    ContainedAfter definition (m * n) t := by
  intro e he id d hd hcancelled
  rw [← hdefinition] at hd
  rcases List.mem_append.mp he with he | he
  · obtain ⟨rt, hrt, hcontained⟩ := h e he id d (hdefinition ▸ hd) hcancelled
    obtain ⟨rt', hrt', hchange⟩ := hstep.nodeChange hd hrt
    exact ⟨rt', hrt', hchange.containedIn (hactive id rt hrt) hcontained⟩
  · obtain ⟨rt, hrt⟩ := hnodes.runtime hd
    obtain ⟨rt', hrt', hcontained⟩ :=
      hstep.containedIn hinv he hcancelled hd hrt (hactive id rt hrt)
    exact ⟨rt', hrt', hcontained.mono (List.subset_append_right _ _)⟩

theorem Reachable.contained (h : Reachable definition seed m s) (hcoherent : definition.Coherent)
    (hrun : Run s n t) : ContainedAfter definition n t := by
  have hall := hrun.history (m := 1) (I := fun n t =>
    (∃ k : Emission O C V D, Reachable definition seed k t) ∧ ContainedAfter definition n t) ?_ ?_
  · rw [one_mul] at hall
    exact hall.2
  · rintro n s k t ⟨⟨m, hreach⟩, hprior⟩ ⟨o, hstep⟩
    refine ⟨⟨m * k, hreach.tail ⟨o, hstep⟩⟩, ?_⟩
    refine hprior.step hstep hreach.definition_eq (hreach.phase hcoherent) hreach.nodesMatch ?_
    intro id rt hrt
    obtain ⟨d, hd⟩ := hreach.nodesMatch.definition hrt
    exact hreach.active_identified (hreach.definition_eq ▸ hd) hrt
  · exact ⟨⟨m, h⟩, fun e he => nomatch he⟩

end Containment

variable [ConditionOutput V] [ProvisionalStepResources O] [NodeFailureSource C]
  {document : WorkflowDocument} {workflow : ValidatedWorkflow}

/-- No reduction after an acceptance requests work that it stopped, and the reduction that accepts
a cancellation, which may be the initialization, leaves every node of the cancelled role settled
or contained by one of its actions. -/
theorem cancellation_stops_work (hvalid : validate document = .ok workflow)
    (inputs : BTreeMap String ResolvedInput)
    (parallel transitions : Nat)
    (initial : Option (InitialCancellation D))
    (seed : ExecutionSeed V)
    {start : ExecutionStart D}
    (hstart : start =
      ⟨RuntimeDefinition.fromAdmitted workflow inputs parallel transitions, initial⟩)
    (occurrences : List (Occurrence O C V D))
    (occurrence : Occurrence O C V D)
    {first run next : Reduction O C V D}
    (hfirst : first = initializeSeededDefinition start seed)
    (hrun : run = ledger start seed occurrences)
    (hnext : next = reduce run.state occurrence) :
    (∀ e ∈ run.events, ∀ role, stopsWork role e = true →
      ∀ a ∈ next.actions, ∀ id, workTarget a = some id →
        ∃ d, start.definition.steps.get? id = some d ∧ d.role ≠ role) ∧
    ContainedAfter start.definition next.emission next.state ∧
    ContainedAfter start.definition first.emission first.state := by
  have hcoherent : start.definition.Coherent := by
    rw [hstart]
    exact fromAdmitted_coherent hvalid ..
  have hreach := ledger_reachable start seed hcoherent occurrences
  rw [← hrun] at hreach
  have hreduce : Run run.state next.emission next.state := by
    rw [hnext]
    exact reduce_run hreach.nodesMatch (hreach.coherent hcoherent) occurrence
  refine ⟨fun e he role hstops => hreach.run_work_stopped hcoherent he hstops hreduce,
    hreach.contained hcoherent hreduce, ?_⟩
  have hinitial : Reachable start.definition seed
      (1 : Emission O C V D)
      (initialState start.definition seed : RuntimeState C V D) :=
    LabelledRun.refl _
  rw [hfirst]
  exact hinitial.contained hcoherent (ledger_reachable start seed hcoherent [])

/-- The only step is cancelled while it runs; its completion is reported too late. -/
def cancelledBuild : Reduction Unit FailureDetail String Nat :=
  ledger ⟨RuntimeDefinition.fromAdmitted (acceptedWorkflow singleDocument) .empty 1 8,
      none⟩ .empty
    [.stepStarted "build" ⟨1⟩, .cancellationOperationRequested 1 .userRequest 0]

theorem cancelledBuild_stops : .cancellationAccepted 3 .userRequest 0 ∈ cancelledBuild.events ∧
    ∀ a ∈ (reduce cancelledBuild.state (.stepExecutionCompleted "build" ⟨1⟩ ())).actions, ∀ id,
      workTarget a = some id → ∃ d, (RuntimeDefinition.fromAdmitted
        (acceptedWorkflow singleDocument) BTreeMap.empty 1 8).steps.get? id = some d ∧
        d.role ≠ .step :=
  ⟨by decide, (cancellation_stops_work singleDocument_accepted .empty 1 8 none
    .empty rfl _ _ rfl (show cancelledBuild = _ from rfl) rfl).1
    (.cancellationAccepted 3 .userRequest 0) (by decide) .step rfl⟩

end ScherzoCloud.Workflow
