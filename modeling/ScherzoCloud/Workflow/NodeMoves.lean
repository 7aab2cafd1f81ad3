import ScherzoCloud.Workflow.ReducerEquations

/-!
# How an occurrence moves a node

What an occurrence does to the node that it is about, and what a part of a reduction
looks like from one node: the transitions that it makes and the invocations that are
requested for it.
-/

namespace ScherzoCloud.Workflow

open Collections
open TargetExecutionNumber (next)

variable {O C V D : Type} {id j : String} {s t u : RuntimeState C V D} {d : RuntimeStep}
  {rt rt' : StepRuntimeState C V} {events : List (TransitionEvent D)}
  {o : Option (Occurrence O C V D)} {actions : List (RequestedAction O C V D)}
  {m : Emission O C V D}

/-- An event of a single node. -/
def isStepEvent : TransitionEvent D → Bool
  | .step _ _ _ _ _ _ => true
  | _ => false

/-- The transition of a node that an event reports. -/
def moveOf (id : String) : TransitionEvent D → Option (StepStateKind × StepStateKind)
  | .step _ node _ _ source target => if node = id then some (source, target) else none
  | .workflow _ _ _ | .cancellationAccepted _ _ _ | .finalizationCancellationAccepted _ _ _
  | .forceAbortAccepted _ _ _ => none

/-- The invocation of a node that an action requests. -/
def startOf (id : String) (a : RequestedAction O C V D) :
    Option (ActionId × ActiveStepInvocation) :=
  match a.action with
  | .startStep node n _ => if node = id then some (a.id, .target n) else none
  | .startRecoveryHandler node round _ _ =>
    if node = id then some (a.id, .recoveryHandler round) else none
  | .captureOutputs _ _ | .cancelStep _ _ _ _ | .forceAbortStep _ _ _ _
  | .releaseStepResources _ | .finishRun _ _ => none

def movesOf (id : String) (events : List (TransitionEvent D)) :
    List (StepStateKind × StepStateKind) :=
  events.filterMap (moveOf id)

def startsOf (id : String) (actions : List (RequestedAction O C V D)) :
    List (ActionId × ActiveStepInvocation) :=
  actions.filterMap (startOf id)

@[simp] theorem movesOf_nil : movesOf id ([] : List (TransitionEvent D)) = [] := rfl

@[simp] theorem movesOf_append (events later : List (TransitionEvent D)) :
    movesOf id (events ++ later) = movesOf id events ++ movesOf id later :=
  List.filterMap_append

@[simp] theorem startsOf_nil : startsOf id ([] : List (RequestedAction O C V D)) = [] := rfl

@[simp] theorem startsOf_append (actions later : List (RequestedAction O C V D)) :
    startsOf id (actions ++ later) = startsOf id actions ++ startsOf id later :=
  List.filterMap_append

theorem movesOf_cons (e : TransitionEvent D) (events : List (TransitionEvent D)) :
    movesOf id (e :: events) = (moveOf id e).toList ++ movesOf id events := by
  cases h : moveOf id e <;> simp [movesOf, h]

theorem startsOf_cons (a : RequestedAction O C V D) (actions : List (RequestedAction O C V D)) :
    startsOf id (a :: actions) = (startOf id a).toList ++ startsOf id actions := by
  cases h : startOf id a <;> simp [startsOf, h]

/-- The event of a node is a transition of that node only. -/
theorem movesOf_nodeEvent (events : List (TransitionEvent D)) :
    movesOf j (nodeEvent s id d rt rt' :: events) =
      (if id = j then [(rt.state.kind, rt'.state.kind)] else []) ++ movesOf j events := by
  rw [movesOf_cons, nodeEvent, moveOf]
  split_ifs <;> rfl

@[simp] theorem movesOf_workflow (sequence : TransitionSequence) (source target : WorkflowState D) :
    movesOf id [.workflow sequence source target] = [] := rfl

theorem movesOf_of_quiet (h : ∀ e ∈ events, isStepEvent e = false) : movesOf id events = [] := by
  refine List.filterMap_eq_nil_iff.mpr (fun e he => ?_)
  have hquiet := h e he
  cases e with
  | step => cases hquiet
  | _ => rfl

theorem NodeMove.startsOf_of_ne [ConditionOutput V] (h : NodeMove o s id d rt rt' actions)
    (hj : j ≠ id) : startsOf j actions = [] := by
  cases h <;> simp [startsOf, startOf, hj.symm]

section Moves

variable [NodeFailureSource C]

/-- The failure of a target that an occurrence reports. -/
def reportedFailure : Occurrence O C V D →
    Option (String × ActionId × FailurePhase × C)
  | .stepStartFailed step action cause => some (step, action, .start, cause)
  | .stepExecutionFailed step action cause => some (step, action, .execution, cause)
  | .outputCaptureFailed step action cause => some (step, action, .outputCapture, cause)
  | _ => none

/-- The failure of a recovery handler that an occurrence reports. -/
def reportedHandlerFailure : Occurrence O C V D →
    Option (String × RecoveryRoundNumber × ActionId × RecoveryHandlerActivity ×
      RecoveryHandlerFailurePhase × C)
  | .recoveryHandlerStartFailed step round action cause =>
    some (step, round, action, .starting, .start, cause)
  | .recoveryHandlerExecutionFailed step round action cause =>
    some (step, round, action, .running, .execution, cause)
  | _ => none

/-- The state of a node whose target can fail in a phase. -/
def FailurePhase.failsFrom : FailurePhase → StepStateKind
  | .start => .starting
  | .condition => .pending
  | .execution => .running
  | .outputCapture => .capturingOutputs

/-- An occurrence reports that the current target of a node has failed. -/
structure TargetFails (o : Occurrence O C V D) (id : String)
    (rt : StepRuntimeState C V) (phase : FailurePhase) (cause : C)
    (detail : FailureDetail) : Prop where
  reported : ∃ action, reportedFailure o = some (id, action, phase, cause) ∧
    rt.currentAction = some action
  state : rt.state.kind = phase.failsFrom
  detailed : NodeFailureSource.nodeFailureDetail cause phase = .ok detail

/-- How an occurrence moves the node that it is about, and which invocations it leads to. -/
inductive OccurrenceMove (o : Occurrence O C V D)
    (s : RuntimeState C V D) (id : String) (d : RuntimeStep)
    (rt : StepRuntimeState C V) :
    StepRuntimeState C V → List (ActionId × ActiveStepInvocation) → Prop
  | run (action : ActionId) (ho : o = .stepStarted id action)
      (haction : rt.currentAction = some action) (hstate : rt.state = .starting) :
      OccurrenceMove o s id d rt { rt with state := .running } []
  | capture (action : ActionId) (provisional : O)
      (ho : o = .stepExecutionCompleted id action provisional)
      (haction : rt.currentAction = some action) (hstate : rt.state = .running)
      (hdeclared : d.declaredOutputs ≠ []) :
      OccurrenceMove o s id d rt
        { rt with state := .capturingOutputs, currentAction := some s.actionId } []
  | succeed (action : ActionId) (outputs : OutputSet V)
      (ho : o = .outputsCaptured id action outputs) (haction : rt.currentAction = some action)
      (hstate : rt.state = .capturingOutputs) (hdeclared : outputs.keys = d.declaredOutputs) :
      OccurrenceMove o s id d rt ((rt.noteExecution .recovered).settled (.succeeded outputs)) []
  | retry {phase : FailurePhase} {cause : C} {detail : FailureDetail}
      {recovery : StepRecoveryState C} {record : RecoveryRoundRecord C}
      (n : TargetExecutionNumber) (hfails : TargetFails o id rt phase cause detail)
      (hopen : openRound rt phase detail cause = some (recovery, record))
      (hkind : recovery.handlerKind = none)
      (hnext : next record.failedExecution.executionNumber = some n) :
      OccurrenceMove o s id d rt ((rt.opened record).started s.actionId n) [(s.actionId, .target n)]
  | recover {phase : FailurePhase} {cause : C} {detail : FailureDetail}
      {recovery : StepRecoveryState C} {record : RecoveryRoundRecord C}
      (kind : RecoveryHandlerKind) (hfails : TargetFails o id rt phase cause detail)
      (hopen : openRound rt phase detail cause = some (recovery, record))
      (hkind : recovery.handlerKind = some kind) :
      OccurrenceMove o s id d rt ((rt.opened record).handlerStarted s.actionId record.number kind)
        [(s.actionId, .recoveryHandler record.number)]
  | exhaust {phase : FailurePhase} {cause : C} {detail : FailureDetail}
      (rt₁ : StepRuntimeState C V) (hfails : TargetFails o id rt phase cause detail)
      (hopened : rt₁ = rt ∧ (d.role = .step → openRound rt phase detail cause = none) ∨
        ∃ recovery record, openRound rt phase detail cause = some (recovery, record) ∧
          next record.failedExecution.executionNumber = none ∧
          rt₁ = rt.opened record) :
      OccurrenceMove o s id d rt
        ((if d.recovery.isSome then rt₁.noteExecution .exhausted else rt₁).settled
          (.failed detail)) []
  | handlerRunning (round : RecoveryRoundNumber) (action : ActionId)
      (ho : o = .recoveryHandlerStarted id round action)
      (haction : rt.currentAction = some action)
      (hactive : rt.activeInvocation = some (.recoveryHandler round))
      (hstate : rt.state = .recovering round .starting) :
      OccurrenceMove o s id d rt
        { rt.noteOutcome round .running with state := .recovering round .running } []
  | recheck (n : TargetExecutionNumber) (round : RecoveryRoundNumber) (action : ActionId)
      (decision : RecoveryDecision) (ho : o = .recoveryHandlerCompleted id round action decision)
      (hdecision : decision.kind = .recheck) (haction : rt.currentAction = some action)
      (hactive : rt.activeInvocation = some (.recoveryHandler round))
      (hstate : rt.state = .recovering round .running)
      (hnext : rt.latestFailure.bind (fun failure =>
        next failure.executionNumber) = some n) :
      OccurrenceMove o s id d rt
        ((rt.noteOutcome round (.recheck decision.summary decision.reason)).started s.actionId n)
        [(s.actionId, .target n)]
  | gaveUp (round : RecoveryRoundNumber) (action : ActionId) (decision : RecoveryDecision)
      (failure : ProvisionalTargetFailure C)
      (ho : o = .recoveryHandlerCompleted id round action decision)
      (hdecision : decision.kind = .gaveUp) (haction : rt.currentAction = some action)
      (hactive : rt.activeInvocation = some (.recoveryHandler round))
      (hstate : rt.state = .recovering round .running)
      (hfailure : rt.latestFailure = some failure) :
      OccurrenceMove o s id d rt
        (((rt.noteOutcome round (.gaveUp decision.summary decision.reason)).noteDisposition
          (.gaveUp round)).settled (.failed failure.detail)) []
  | handlerFailed {round : RecoveryRoundNumber} {action : ActionId}
      {activity : RecoveryHandlerActivity} {phase : RecoveryHandlerFailurePhase} {cause : C}
      (failure : ProvisionalTargetFailure C)
      (ho : reportedHandlerFailure o = some (id, round, action, activity, phase, cause))
      (haction : rt.currentAction = some action)
      (hactive : rt.activeInvocation = some (.recoveryHandler round))
      (hstate : rt.state = .recovering round activity)
      (hfailure : rt.latestFailure = some failure) :
      OccurrenceMove o s id d rt
        (((rt.noteOutcome round (.failed phase cause)).noteDisposition
          (.handlerFailed round phase)).settled (.failed failure.detail)) []
  | quiesce (action : ActionId) (reason : CancellationReason) (active : ActiveStepInvocation)
      (ho : o = .stepQuiesced id action) (hstate : rt.state = .cancelling ⟨reason⟩)
      (haction : rt.currentAction = some action) (hactive : rt.activeInvocation = some active) :
      OccurrenceMove o s id d rt
        ((rt.noteCancelled active).settled
          (.cancelled ⟨if action.isForceAbort then .forceAbort else reason⟩)) []

/-- How the stabilization takes a node out of `Pending`. -/
inductive Begins (rt : StepRuntimeState C V) :
    StepRuntimeState C V → List (ActionId × ActiveStepInvocation) → Prop
  | start (action : ActionId) : Begins rt (rt.started action 1) [(action, .target 1)]
  | drop (state : StepState V) (hterminal : state.isTerminal = true) :
      Begins rt (rt.dropped state) []
  | fail (state : StepState V) (hterminal : state.isTerminal = true) :
      Begins rt (rt.settled state) []

/-- What one reduction does to one node: the transitions that the node makes and the
invocations that are requested for it. -/
inductive NodeReduction (o : Option (Occurrence O C V D))
    (s : RuntimeState C V D) (id : String) (d : RuntimeStep)
    (rt : StepRuntimeState C V) :
    StepRuntimeState C V → List (StepStateKind × StepStateKind) →
      List (ActionId × ActiveStepInvocation) → Prop
  | still (passed : Bool) (hpassed : passed ≠ rt.conditionPassed → rt.state = .pending) :
      NodeReduction o s id d rt { rt with conditionPassed := passed } [] []
  | lost {rt' : StepRuntimeState C V} (hnote : rt.Annotated rt')
      (hstate : ∃ round activity, rt.state = .recovering round activity)
      (hlost : rt.latestFailure.bind (fun failure =>
        next failure.executionNumber) = none) :
      NodeReduction o s id d rt rt' [] []
  | begun (passed : Bool) {rt' : StepRuntimeState C V}
      {starts : List (ActionId × ActiveStepInvocation)} (hpending : rt.state = .pending)
      (h : Begins { rt with conditionPassed := passed } rt' starts) :
      NodeReduction o s id d rt rt' [(.pending, rt'.state.kind)] starts
  | dropped (reason : CancellationReason) (hpending : rt.state = .pending) :
      NodeReduction o s id d rt (rt.dropped (.cancelled ⟨reason⟩)) [(.pending, .cancelled)] []
  | contained (reason : CancellationReason) (active : ActiveStepInvocation) (action : ActionId)
      (hstate : rt.RunsTarget ∨ ∃ round activity, rt.state = .recovering round activity)
      (hactive : rt.activeInvocation = some active) :
      NodeReduction o s id d rt
        { rt.noteHandlerCancelled active with
          state := .cancelling ⟨reason⟩
          currentAction := some action }
        [(rt.state.kind, .cancelling)] []
  | recontained (action : ActionId) (detail : CancellationDetail)
      (hstate : rt.state = .cancelling detail) :
      NodeReduction o s id d rt { rt with currentAction := some action } [] []
  | moved {occurrence : Occurrence O C V D}
      {rt' : StepRuntimeState C V} {starts : List (ActionId × ActiveStepInvocation)}
      (ho : o = some occurrence) (h : OccurrenceMove occurrence s id d rt rt' starts) :
      NodeReduction o s id d rt rt' [(rt.state.kind, rt'.state.kind)] starts
  | completed (hstate : rt.state = .running) (hdeclared : d.declaredOutputs = []) :
      NodeReduction o s id d rt
        ((rt.noteExecution .recovered).settled (.succeeded .empty))
        [(.running, .capturingOutputs), (.capturingOutputs, .succeeded)] []

end Moves

section Views

variable [NodeFailureSource C]

/-- A part of a reduction, seen from every node. -/
def Views (o : Option (Occurrence O C V D)) (s : RuntimeState C V D) (m : Emission O C V D)
    (t : RuntimeState C V D) : Prop :=
  ∀ id d rt, s.definition.steps.get? id = some d → s.steps.get? id = some rt →
    ∃ rt', t.steps.get? id = some rt' ∧
      NodeReduction o s id d rt rt' (movesOf id m.events) (startsOf id m.actions)

theorem NodeReduction.same : NodeReduction o s id d rt rt [] [] :=
  .still rt.conditionPassed (fun h => absurd rfl h)

theorem Views.frame (hsteps : t.steps = s.steps) (hevents : ∀ e ∈ m.events, isStepEvent e = false)
    (hactions : ∀ id, startsOf id m.actions = []) : Views o s m t := by
  intro id d rt _ hrt
  refine ⟨rt, by rw [hsteps, hrt], ?_⟩
  rw [movesOf_of_quiet hevents, hactions id]
  exact .same

/-- A part of a reduction that is about one node. -/
theorem Views.commit {moves : List (StepStateKind × StepStateKind)}
    (hd : s.definition.steps.get? id = some d) (hrt : s.steps.get? id = some rt)
    (hsteps : ∀ j, t.steps.get? j = (s.commit id rt').steps.get? j)
    (hevents : ∀ j, movesOf j events = if id = j then moves else [])
    (hothers : ∀ j ≠ id, startsOf j actions = [])
    (h : NodeReduction o s id d rt rt' moves (startsOf id actions)) :
    Views o s ⟨events, actions⟩ t := by
  intro j dj rtj hdj hrtj
  rw [hevents, hsteps]
  refine RuntimeState.commit_view (P := fun a b => NodeReduction o s j dj a b _ _) hrt hrtj
    (fun hj => ?_) (fun hj => ?_)
  · subst hj
    cases hd.symm.trans hdj
    rwa [if_pos rfl]
  · rw [if_neg (fun h => hj h.symm)]
    change NodeReduction o s j dj rtj rtj [] (startsOf j actions)
    rw [hothers j hj]
    exact .same

end Views

variable {reason : CancellationReason} {deadline : D} {force : Option CancellationOperationId}
  {index next : Nat} {ids : List String}

theorem startOf_containment (active : ActiveStepInvocation) :
    startOf j (containment reason deadline force s index id active :
      RequestedAction O C V D) = none := by
  cases force <;> rfl

section

variable (h : CancelMove reason deadline force index s id next m t)
include h

theorem CancelMove.startsOf : startsOf j m.actions = [] := by
  cases h with
  | drop | pass => rfl
  | contain => rw [startsOf_cons, startOf_containment]; rfl
  | @escalate rt =>
    cases rt.activeInvocation with
    | none => rfl
    | some =>
      rw [Option.toList_some, List.map_singleton, startsOf_cons, startOf_containment]
      rfl

theorem CancelMove.get?_of_ne (hj : j ≠ id) : t.steps.get? j = s.steps.get? j := by
  cases h <;> simp [RuntimeState.commit_get?, RuntimeState.setNode_get?, hj]

theorem CancelMove.movesOf_of_ne (hj : j ≠ id) : movesOf j m.events = [] := by
  cases h with
  | drop | contain =>
    rw [movesOf_nodeEvent, if_neg hj.symm]
    rfl
  | escalate | pass => rfl

end

theorem CancelRun.startsOf (h : CancelRun reason deadline force index ids s m t) :
    startsOf j m.actions = [] := by
  induction h with
  | nil => rfl
  | cons hmove _ ih => rw [Emission.mul_actions, startsOf_append, hmove.startsOf, ih]; rfl

/-- A part of a reduction that changes no node, or that closes a gate with an event and goes
through the nodes of a phase. -/
inductive Cancelling (s : RuntimeState C V D) :
    Emission O C V D → RuntimeState C V D → Prop
  | quiet {t : RuntimeState C V D} (hsteps : t.steps = s.steps) : Cancelling s 1 t
  | run {reason : CancellationReason} {deadline : D} {force : Option CancellationOperationId}
      {index : Nat} {ids : List String} {event : TransitionEvent D} {closed t : RuntimeState C V D}
      {m : Emission O C V D} (hevent : isStepEvent event = false)
      (hsteps : closed.steps = s.steps) (hnodup : ids.Nodup)
      (hrun : CancelRun reason deadline force index ids closed m t) :
      Cancelling s (⟨[event], []⟩ * m) t

variable [NodeFailureSource C]

theorem CancelMove.view (h : CancelMove reason deadline force index s id next m t)
    (hrt : s.steps.get? id = some rt) :
    ∃ rt', t.steps.get? id = some rt' ∧ NodeReduction o u id d rt rt' (movesOf id m.events) [] := by
  cases h with
  | drop _ hrt' hstate =>
    cases hrt.symm.trans hrt'
    refine ⟨_, RuntimeState.get?_commit_self hrt _, ?_⟩
    rw [movesOf_nodeEvent, if_pos rfl, hstate]
    exact .dropped reason hstate
  | contain _ hrt' hstate hactive =>
    cases hrt.symm.trans hrt'
    refine ⟨_, RuntimeState.get?_commit_self hrt _, ?_⟩
    rw [movesOf_nodeEvent, if_pos rfl]
    exact .contained reason _ _ hstate hactive
  | escalate hrt' hstate =>
    cases hrt.symm.trans hrt'
    exact ⟨_, RuntimeState.get?_setNode_self hrt _, .recontained _ _ hstate⟩
  | pass hrt' =>
    cases hrt.symm.trans hrt'
    exact ⟨rt, hrt, .same⟩

theorem CancelRun.view (h : CancelRun reason deadline force index ids s m t) (hnodup : ids.Nodup)
    (hrt : s.steps.get? id = some rt) : ∃ rt', t.steps.get? id = some rt' ∧
      NodeReduction o u id d rt rt' (movesOf id m.events) [] ∧
      (id ∉ ids → rt' = rt ∧ movesOf id m.events = []) := by
  induction h generalizing rt with
  | nil => exact ⟨rt, hrt, .same, fun _ => ⟨rfl, rfl⟩⟩
  | @cons index next head ids s t u m n hmove _ ih =>
    obtain ⟨hhead, htail⟩ := List.nodup_cons.mp hnodup
    rw [Emission.mul_events, movesOf_append]
    by_cases hid : id = head
    · subst hid
      obtain ⟨rt', hrt', hview⟩ := hmove.view hrt
      obtain ⟨rt'', hrt'', -, hsame⟩ := ih htail hrt'
      obtain ⟨rfl, hquiet⟩ := hsame hhead
      rw [hquiet, List.append_nil]
      exact ⟨rt'', hrt'', hview, fun hnot => absurd List.mem_cons_self hnot⟩
    · rw [← hmove.get?_of_ne hid] at hrt
      obtain ⟨rt', hrt', hview, hsame⟩ := ih htail hrt
      rw [hmove.movesOf_of_ne hid, List.nil_append]
      exact ⟨rt', hrt', hview, fun hnot => hsame (fun hmem => hnot (List.mem_cons_of_mem _ hmem))⟩

/-- A cancellation, seen from every node. -/
theorem Cancelling.views (h : Cancelling s m t) : Views o s m t := by
  cases h with
  | quiet hsteps => exact .frame hsteps (fun _ h => nomatch h) (fun _ => rfl)
  | run hevent hsteps hnodup hrun =>
    intro id d rt _ hrt
    obtain ⟨rt', hget, hview, -⟩ := hrun.view hnodup (hsteps ▸ hrt)
    refine ⟨rt', hget, ?_⟩
    rw [Emission.mul_events, Emission.mul_actions, movesOf_append, startsOf_append,
      movesOf_of_quiet (by simpa using hevent), hrun.startsOf]
    exact hview

end ScherzoCloud.Workflow
