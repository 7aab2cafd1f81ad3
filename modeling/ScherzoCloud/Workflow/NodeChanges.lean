import ScherzoCloud.Workflow.Runs

/-!
# What a step does to one node

`ReducerStep.nodeChange` is the view of a step from a single node: the node is
left alone, moves, settles with an issue, is annotated, passes its condition or
is contained by a cancellation.  Properties of single nodes are proved by cases
on it.
-/

namespace ScherzoCloud.Workflow

open Collections
open RuntimeState (get?_commit_self commit_view get?_commit_of_ne setNode_view tick_steps)

variable {O C V D : Type} {as bs actions : List (RequestedAction O C V D)} {id j : String}
  {reason : CancellationReason} {force : Option CancellationOperationId} {s t : RuntimeState C V D}
  {m : Emission O C V D} {rt rt' rtj : StepRuntimeState C V} {role : WorkflowNodeRole}
  {d : RuntimeStep} {o : Option (Occurrence O C V D)}

/-- A list of actions contains a node under an identity. -/
def ContainedUnder (actions : List (RequestedAction O C V D))
    (id : String) (action : ActionId) : Prop :=
  ∃ active reason deadline, (⟨action, .cancelStep id active reason deadline⟩ ∈ actions) ∨
    ⟨action, .forceAbortStep id active reason deadline⟩ ∈ actions

theorem ContainedUnder.mono {action : ActionId} (h : ContainedUnder as id action) (hsub : as ⊆ bs) :
    ContainedUnder bs id action := by
  obtain ⟨active, reason, deadline, h⟩ := h
  exact ⟨active, reason, deadline, h.imp (fun h => hsub h) (fun h => hsub h)⟩

/-- What the cancellation of its phase does to a node. -/
inductive Contained (actions : List (RequestedAction O C V D))
    (id : String) (reason : CancellationReason) (force : Bool)
    (rt : StepRuntimeState C V) : StepRuntimeState C V → Prop
  | drop (hstate : rt.state = .pending) :
      Contained actions id reason force rt (rt.dropped (.cancelled ⟨reason⟩))
  | contain (action : ActionId) (active : ActiveStepInvocation)
      (hstate : rt.RunsTarget ∨ ∃ round activity, rt.state = .recovering round activity)
      (hactive : rt.activeInvocation = some active)
      (haction : ContainedUnder actions id action) :
      Contained actions id reason force rt
        { rt.noteHandlerCancelled active with
          state := .cancelling ⟨reason⟩
          currentAction := some action }
  | escalate (action : ActionId) (detail : CancellationDetail)
      (hstate : rt.state = .cancelling detail) (hforce : force = true)
      (haction : rt.activeInvocation.isSome = true → ContainedUnder actions id action) :
      Contained actions id reason force rt { rt with currentAction := some action }
  | pass (hstate : rt.state.isTerminal = true ∨
        rt.state.isActive = true ∧ rt.activeInvocation = none ∨
        (∃ detail, rt.state = .cancelling detail) ∧ force = false) :
      Contained actions id reason force rt rt

variable {deadline : D} {index next : Nat} {ids : List String}

theorem containment_containedUnder (active : ActiveStepInvocation) :
    ContainedUnder [(containment reason deadline force s index id active :
      RequestedAction O C V D)] id (containmentId force s index) := by
  refine ⟨active, reason, deadline, ?_⟩
  cases force with
  | none => exact Or.inl List.mem_cons_self
  | some => exact Or.inr List.mem_cons_self

theorem CancelMove.node (h : CancelMove reason deadline force index s id next m t)
    (hrt : s.steps.get? id = some rt) :
    ∃ rt', t.steps.get? id = some rt' ∧ Contained m.actions id reason force.isSome rt rt' := by
  cases h with
  | drop _ hrt' hstate =>
    cases hrt.symm.trans hrt'
    exact ⟨_, get?_commit_self hrt _, .drop hstate⟩
  | contain _ hrt' hstate hactive =>
    cases hrt.symm.trans hrt'
    exact ⟨_, get?_commit_self hrt _, .contain _ _ hstate hactive (containment_containedUnder _)⟩
  | escalate hrt' hstate hforce =>
    cases hrt.symm.trans hrt'
    refine ⟨_, RuntimeState.get?_setNode_self hrt _, .escalate _ _ hstate hforce ?_⟩
    intro hactive
    obtain ⟨active, heq⟩ := Option.isSome_iff_exists.mp hactive
    simp only [heq, Option.toList_some, List.map_cons, List.map_nil]
    exact containment_containedUnder active
  | pass hrt' hstate =>
    cases hrt.symm.trans hrt'
    refine ⟨rt, hrt, .pass ?_⟩
    rcases hstate with h | h | ⟨h, rfl⟩
    · exact Or.inl h
    · exact Or.inr (Or.inl h)
    · exact Or.inr (Or.inr ⟨h, rfl⟩)

theorem Contained.mono {force : Bool} (h : Contained as id reason force rt rt') (hsub : as ⊆ bs) :
    Contained bs id reason force rt rt' := by
  cases h with
  | drop hstate => exact .drop hstate
  | contain action active hstate hactive haction =>
    exact .contain action active hstate hactive (haction.mono hsub)
  | escalate action detail hstate hforce haction =>
    exact .escalate action detail hstate hforce (fun h => (haction h).mono hsub)
  | pass hstate => exact .pass hstate

/-- A cancellation contains every node of its phase and no other. -/
theorem CancelRun.node (h : CancelRun reason deadline force index ids s m t)
    (hnodup : ids.Nodup) (hrt : s.steps.get? id = some rt) : ∃ rt', t.steps.get? id = some rt' ∧
      (id ∈ ids → Contained m.actions id reason force.isSome rt rt') ∧ (id ∉ ids → rt' = rt) := by
  induction h generalizing rt with
  | nil => exact ⟨rt, hrt, fun hmem => absurd hmem List.not_mem_nil, fun _ => rfl⟩
  | @cons index next head ids s t u m n hmove _ ih =>
    obtain ⟨hhead, htail⟩ := List.nodup_cons.mp hnodup
    by_cases hid : id = head
    · subst hid
      obtain ⟨rt', hrt', hcontained⟩ := hmove.node hrt
      obtain ⟨rt'', hrt'', -, hsame⟩ := ih htail hrt'
      obtain rfl := hsame hhead
      refine ⟨rt'', hrt'', fun _ => hcontained.mono (List.subset_append_left _ _), ?_⟩
      exact fun hnot => absurd List.mem_cons_self hnot
    · rw [← hmove.get?_of_ne hid] at hrt
      obtain ⟨rt', hrt', hin, hout⟩ := ih htail hrt
      refine ⟨rt', hrt', fun hmem => ?_, fun hnot => ?_⟩
      · exact (hin ((List.mem_cons.mp hmem).resolve_left hid)).mono (List.subset_append_right _ _)
      · exact hout (fun hmem => hnot (List.mem_cons_of_mem _ hmem))

theorem CancelMove.frame (h : CancelMove reason deadline force index s id next m t) :
    t.workflow = s.workflow ∧ t.finalization = s.finalization ∧ t.forceAbort = s.forceAbort := by
  cases h <;> simp

theorem CancelRun.frame (h : CancelRun reason deadline force index ids s m t) :
    t.workflow = s.workflow ∧ t.finalization = s.finalization ∧ t.forceAbort = s.forceAbort := by
  induction h with
  | nil => exact ⟨rfl, rfl, rfl⟩
  | cons hmove _ ih =>
    obtain ⟨hw, hf, ha⟩ := hmove.frame
    exact ⟨ih.1.trans hw, ih.2.1.trans hf, ih.2.2.trans ha⟩

/-- The cancelled phase consists of the nodes of its role. -/
theorem mem_nodesOfRole_fst (hd : s.definition.steps.get? id = some d)
    (hrt : s.steps.get? id = some rt) : id ∈ (nodesOfRole s role).map Prod.fst ↔ d.role = role := by
  constructor
  · intro hmem
    obtain ⟨node, hnode, rfl⟩ := List.mem_map.mp hmem
    obtain ⟨d', rt', hd', hrole, -⟩ := nodesOfRole_spec.mp hnode
    rw [hd] at hd'
    cases hd'
    exact hrole
  · intro hrole
    exact List.mem_map.mpr ⟨(id, rt.state.kind),
      nodesOfRole_spec.mpr ⟨d, rt, hd, hrole, hrt, rfl⟩, rfl⟩

section NodeChange

/-- An event that accepts a cancellation or a force abort. -/
def isAcceptance : TransitionEvent D → Bool
  | .cancellationAccepted _ _ _ | .finalizationCancellationAccepted _ _ _
  | .forceAbortAccepted _ _ _ => true
  | .step _ _ _ _ _ _ | .workflow _ _ _ => false

variable [ConditionOutput V]

/-- The possible effects of one step on one node. -/
inductive NodeChange (o : Option (Occurrence O C V D))
    (s : RuntimeState C V D) (m : Emission O C V D)
    (id : String) (d : RuntimeStep) (rt : StepRuntimeState C V) :
    StepRuntimeState C V → Prop
  | same : NodeChange o s m id d rt rt
  | move {rt' : StepRuntimeState C V}
      {actions : List (RequestedAction O C V D)}
      (h : NodeMove o s id d rt rt' actions) (hactions : m.actions = actions) :
      NodeChange o s m id d rt rt'
  | complete (hstate : rt.state = .running) (hdeclared : d.declaredOutputs = []) :
      NodeChange o s m id d rt ((rt.noteExecution .recovered).settled (.succeeded .empty))
  | issue {rt' : StepRuntimeState C V} {issue : PrimaryIssue}
      (h : IssueMove s id d rt rt' issue) : NodeChange o s m id d rt rt'
  | note {rt' : StepRuntimeState C V} (h : rt.Annotated rt')
      (hstate : ∃ round activity, rt.state = .recovering round activity)
      (hlost : rt.latestFailure.bind (fun failure =>
        TargetExecutionNumber.next failure.executionNumber) = none) :
      NodeChange o s m id d rt rt'
  | passed {predicate : ResolvedPredicate} (hpending : rt.state = .pending)
      (hgate : conditionGateReady s id = true) (hcondition : d.condition = some predicate)
      (hevaluation : evaluateCondition s d predicate = .passed) :
      NodeChange o s m id d rt { rt with conditionPassed := true }
  | contained {rt' : StepRuntimeState C V} {reason : CancellationReason} {force : Bool}
      (h : Contained m.actions id reason force rt rt')
      (haccepted : ∃ e ∈ m.events, isAcceptance e = true) : NodeChange o s m id d rt rt'

theorem CancelRun.nodeChange {deadline : D} {closed : RuntimeState C V D} {n : Emission O C V D}
    (h : CancelRun reason deadline force 1 ((nodesOfRole s role).map Prod.fst) closed m t)
    (hsteps : closed.steps = s.steps) (hsub : m.actions = n.actions)
    (haccepted : ∃ e ∈ n.events, isAcceptance e = true) (hrt : s.steps.get? id = some rt) :
    ∃ rt', t.steps.get? id = some rt' ∧ NodeChange o s n id d rt rt' := by
  rw [← hsteps] at hrt
  obtain ⟨rt', hrt', hin, hout⟩ := h.node (nodesOfRole_nodup s role) hrt
  refine ⟨rt', hrt', ?_⟩
  by_cases hmem : id ∈ (nodesOfRole s role).map Prod.fst
  · exact .contained (hsub ▸ hin hmem) haccepted
  · rw [hout hmem]
    exact .same

/-- A step from the point of view of one node. -/
theorem ReducerStep.nodeChange (hstep : ReducerStep o s m t)
    (hd : s.definition.steps.get? id = some d) (hrt : s.steps.get? id = some rt) :
    ∃ rt', t.steps.get? id = some rt' ∧ NodeChange o s m id d rt rt' := by
  cases hstep with
  | @node _ _ _ _ _ hd' hrt' hmove =>
    refine commit_view hrt' hrt (fun heq => ?_) (fun _ => .same)
    subst heq
    cases hd.symm.trans hd'
    exact .move hmove rfl
  | @complete id' _ _ hd' hrt' hstate hdeclared =>
    by_cases hid : id = id'
    · subst hid
      cases hd.symm.trans hd'
      cases hrt.symm.trans hrt'
      exact ⟨_, get?_commit_self (get?_commit_self hrt _) _, .complete hstate hdeclared⟩
    · refine ⟨rt, ?_, .same⟩
      rw [get?_commit_of_ne hid, get?_commit_of_ne hid, hrt]
  | @issue _ _ _ _ issue hd' hrt' hmove =>
    refine commit_view hrt' hrt (fun heq => ?_) (fun _ => .same)
    subst heq
    cases hd.symm.trans hd'
    exact .issue hmove
  | @primaryIssue _ _ _ _ issue _ hd' hrt' hmove =>
    rw [RuntimeState.advance_steps]
    refine commit_view hrt' hrt (fun heq => ?_) (fun _ => .same)
    subst heq
    cases hd.symm.trans hd'
    exact .issue hmove
  | note hrt' hnote hstate hlost =>
    exact setNode_view hrt' hrt (fun _ => .note hnote hstate hlost) (fun _ => .same)
  | @passed _ _ _ _ hd' hrt' hgate hcondition hevaluation =>
    refine setNode_view hrt' hrt (fun heq => ?_) (fun _ => .same)
    subst heq
    cases hd.symm.trans hd'
    obtain ⟨_, rt₁, -, hrt₁, -, -, hpending, -⟩ := conditionGateReady_iff.mp hgate
    cases hrt'.symm.trans hrt₁
    exact .passed hpending hgate hcondition hevaluation
  | release | operation => exact ⟨rt, hrt, .same⟩
  | cancelOrdinary _ _ hcancel | cancelFinalization _ hcancel | forceOrdinary _ _ hcancel
  | forceFinalization _ _ hcancel =>
    exact hcancel.nodeChange (tick_steps _) rfl ⟨_, List.mem_cons_self, rfl⟩ hrt
  | enter | finish => exact ⟨rt, by simpa using hrt, .same⟩

end NodeChange

section NodeInvariants

/-- An active node knows its invocation, and the driver its current action. -/
def ActiveIdentified (rt : StepRuntimeState C V) : Prop :=
  rt.state.isActive = true → rt.activeInvocation.isSome = true ∧ rt.currentAction.isSome = true

theorem StepRuntimeState.Annotated.activeIdentified (h : rt.Annotated rt')
    (hrt : ActiveIdentified rt) : ActiveIdentified rt' := by
  unfold ActiveIdentified
  rwa [h.1.state, h.1.activeInvocation, h.1.currentAction]

theorem Contained.activeIdentified {force : Bool} (h : Contained actions id reason force rt rt')
    (hrt : ActiveIdentified rt) : ActiveIdentified rt' := by
  cases h with
  | drop => exact fun hactive => absurd hactive Bool.false_ne_true
  | contain _ active _ hactive =>
    have hnote := rt.noteHandlerCancelled_annotated active
    exact fun _ => ⟨by rw [hnote.1.activeInvocation, hactive]; rfl, rfl⟩
  | escalate _ _ hstate => exact fun _ => ⟨(hrt (by rw [hstate]; rfl)).1, rfl⟩
  | pass => exact hrt

variable [ConditionOutput V] {definition : RuntimeDefinition} {seed : ExecutionSeed V}

/-- Where a node comes from in a step. -/
theorem ReducerStep.nodeBefore {t : RuntimeState C V D} (hstep : ReducerStep o s m t)
    (hnodes : NodesMatch s) (hd : s.definition.steps.get? id = some d)
    (hrt' : t.steps.get? id = some rt') :
    ∃ rt, s.steps.get? id = some rt ∧ NodeChange o s m id d rt rt' := by
  obtain ⟨rt, hrt⟩ := hnodes.runtime hd
  obtain ⟨rt'', hrt'', hchange⟩ := hstep.nodeChange hd hrt
  cases hrt'.symm.trans hrt''
  exact ⟨rt, hrt, hchange⟩

/-- What every node has initially and keeps under every change, it has in every run. -/
theorem Reachable.nodeInvariant {P : String → RuntimeStep → StepRuntimeState C V → Prop}
    (hinit : ∀ id d, definition.steps.get? id = some d → P id d (initialStep seed id d))
    (hchange : ∀ (o : Option (Occurrence O C V D)) s n id d rt rt',
      (∃ m : Emission O C V D, Reachable definition seed m s) →
      s.steps.get? id = some rt → P id d rt → NodeChange o s n id d rt rt' → P id d rt')
    (h : Reachable definition seed m s) (hd : definition.steps.get? id = some d)
    (hrt : s.steps.get? id = some rt) : P id d rt := by
  refine h.invariant (I := fun s => ∀ id d rt, definition.steps.get? id = some d →
    s.steps.get? id = some rt → P id d rt) ?_ ?_ id d rt hd hrt
  · intro id d rt hd hrt
    cases (get?_initialState hd seed).symm.trans hrt
    exact hinit id d hd
  · rintro o s n t ⟨m, hreach⟩ hs hstep id d rt' hd hrt'
    have hd' : s.definition.steps.get? id = some d := by rwa [hreach.definition_eq]
    obtain ⟨rt, hrt, hnode⟩ := hstep.nodeBefore hreach.nodesMatch hd' hrt'
    exact hchange o s n id d rt rt' ⟨m, hreach⟩ hrt (hs id d rt hd hrt) hnode

theorem NodeChange.activeIdentified (h : NodeChange o s m id d rt rt') (hrt : ActiveIdentified rt) :
    ActiveIdentified rt' := by
  cases h with
  | same => exact hrt
  | move h =>
    cases h with
    | start | retry | recheck | recover => exact fun _ => ⟨rfl, rfl⟩
    | run hstate | handlerRunning _ hstate => exact fun _ => hrt (by rw [hstate]; rfl)
    | capture _ hstate => exact fun _ => ⟨(hrt (by rw [hstate]; rfl)).1, rfl⟩
    | succeed | skip | failureStop | notSelected | forcedCancel | quiesce =>
      exact fun hactive => absurd hactive Bool.false_ne_true
  | complete => exact fun hactive => absurd hactive Bool.false_ne_true
  | issue h => cases h <;> exact fun hactive => absurd hactive Bool.false_ne_true
  | note h | contained h => exact h.activeIdentified hrt
  | passed => exact hrt

theorem Reachable.active_identified (h : Reachable definition seed m s)
    (hd : definition.steps.get? id = some d) (hrt : s.steps.get? id = some rt) :
    ActiveIdentified rt := by
  refine h.nodeInvariant (P := fun _ _ rt => ActiveIdentified rt) ?_ ?_ hd hrt
  · intro id d _ hactive
    unfold initialStep at hactive
    split at hactive <;> exact absurd hactive Bool.false_ne_true
  · intro o s n id d rt rt' _ _ hrt hchange
    exact hchange.activeIdentified hrt

end NodeInvariants

theorem StepRuntimeState.RunsTarget.unsettled
    (h : rt.RunsTarget ∨ ∃ round activity, rt.state = .recovering round activity) :
    rt.state.isTerminal = false := by
  rcases h with (h | h | h) | ⟨round, activity, h⟩ <;> rw [h] <;> rfl

variable [ConditionOutput V]

/-- A node that moves was not settled before. -/
theorem NodeMove.unsettled (h : NodeMove o s id d rt rt' actions) :
    rt.state.isTerminal = false := by
  cases h with
  | retry _ _ htarget | recover _ _ htarget =>
    exact StepRuntimeState.RunsTarget.unsettled (Or.inl htarget)
  | start _ hstate | recheck _ _ _ _ hstate | run hstate | capture _ hstate
  | succeed _ _ hstate | handlerRunning _ hstate | quiesce _ _ _ hstate
  | skip _ _ _ _ hstate | failureStop hstate | notSelected _ hstate | forcedCancel hstate =>
    rw [hstate]; rfl

/-- A node that raises an issue was not settled before. -/
theorem IssueMove.unsettled {issue : PrimaryIssue} (h : IssueMove s id d rt rt' issue) :
    rt.state.isTerminal = false := by
  cases h with
  | fail _ _ hfinal => exact StepRuntimeState.RunsTarget.unsettled hfinal.active
  | conditionFailed _ _ _ _ _ hpending | blockOrdinary _ hpending | blockCondition _ hpending
  | blockInput _ hpending => rw [hpending]; rfl

/-- Nothing about a settled node changes. -/
theorem NodeChange.settled_fixed (h : NodeChange o s m id d rt rt')
    (hterminal : rt.state.isTerminal = true) : rt' = rt := by
  have hsettled : rt.state.isTerminal ≠ false := by simp [hterminal]
  have hstate : ∀ {state : StepState V}, rt.state = state → state.isTerminal ≠ false := by
    rintro state rfl
    exact hsettled
  cases h with
  | same => rfl
  | move h | issue h => exact absurd h.unsettled hsettled
  | complete hrunning => exact absurd rfl (hstate hrunning)
  | note _ hrecovering =>
    exact absurd (StepRuntimeState.RunsTarget.unsettled (Or.inr hrecovering)) hsettled
  | passed hpending => exact absurd rfl (hstate hpending)
  | contained h =>
    cases h with
    | drop hpending => exact absurd rfl (hstate hpending)
    | contain _ _ hactive =>
      exact absurd (StepRuntimeState.RunsTarget.unsettled hactive) hsettled
    | escalate _ _ hcancelling => exact absurd rfl (hstate hcancelling)
    | pass => rfl

/-- A settled node stays as it is for the rest of a run. -/
theorem Run.settled (hrun : Run s m t) (hd : s.definition.steps.get? id = some d)
    (hrt : s.steps.get? id = some rt) (hterminal : rt.state.isTerminal = true) :
    t.steps.get? id = some rt := by
  refine (hrun.invariant (I := fun t => t.definition.steps.get? id = some d ∧
    t.steps.get? id = some rt) ?_ ⟨hd, hrt⟩).2
  rintro u n v ⟨hd, hrt⟩ ⟨o, hstep⟩
  obtain ⟨rt', hrt', hchange⟩ := hstep.nodeChange hd hrt
  exact ⟨by rw [hstep.definition]; exact hd, hchange.settled_fixed hterminal ▸ hrt'⟩

end ScherzoCloud.Workflow
