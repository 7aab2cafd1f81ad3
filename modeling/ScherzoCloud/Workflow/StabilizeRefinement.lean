import ScherzoCloud.Workflow.OccurrenceRefinement

/-!
# Stabilizing takes only steps of the reducer

The passes of `stabilize` settle, evaluate, start and finish.  They touch only
pending nodes, so they are runs of a smaller step relation, `StabilizeStep`; with
`applyOccurrence_reaches` a whole reduction is a run of `ReducerStep`.
-/

namespace ScherzoCloud.Workflow

open Collections
open Reduction (emit_state mapState_eq emit_emit)

variable {O C V D : Type} {o : Option (Occurrence O C V D)} {s : RuntimeState C V D}
  {r r' : Reduction O C V D} {id : String} {d : RuntimeStep} {rt : StepRuntimeState C V}
  {role : WorkflowNodeRole}

/-- The id lists of a definition are its nodes by role. -/
structure RuntimeDefinition.Coherent (definition : RuntimeDefinition) : Prop where
  mem_idsOf : ∀ role id, id ∈ idsOf definition role ↔
    ∃ d, definition.steps.get? id = some d ∧ d.role = role
  nodup : ∀ role, (idsOf definition role).Nodup

theorem RuntimeDefinition.Coherent.role_eq {definition : RuntimeDefinition}
    (h : definition.Coherent) (role : WorkflowNodeRole) (hid : id ∈ idsOf definition role)
    (hd : definition.steps.get? id = some d) : d.role = role := by
  obtain ⟨d', hd', hrole⟩ := (h.mem_idsOf role id).mp hid
  cases hd.symm.trans hd'
  exact hrole

section Steps

variable [ConditionOutput V]

/-- One step of a stabilization: what it changes about a node was still pending. -/
inductive StabilizeStep (o : Option (Occurrence O C V D))
    (s : RuntimeState C V D) :
    Emission O C V D → RuntimeState C V D → Prop
  | node {id : String} {d : RuntimeStep} {rt rt' : StepRuntimeState C V}
      {actions : List (RequestedAction O C V D)}
      (hd : s.definition.steps.get? id = some d) (hrt : s.steps.get? id = some rt)
      (hpending : rt.state = .pending) (hmove : NodeMove o s id d rt rt' actions) :
      StabilizeStep o s ⟨[nodeEvent s id d rt rt'], actions⟩ (s.commit id rt')
  | issue {id : String} {d : RuntimeStep} {rt rt' : StepRuntimeState C V}
      {issue : PrimaryIssue}
      (hd : s.definition.steps.get? id = some d) (hrt : s.steps.get? id = some rt)
      (hpending : rt.state = .pending) (hmove : IssueMove s id d rt rt' issue)
      (hsilent : issueTarget s.workflow d issue = none) :
      StabilizeStep o s ⟨[nodeEvent s id d rt rt'], []⟩ (s.commit id rt')
  | primaryIssue {id : String} {d : RuntimeStep} {rt rt' : StepRuntimeState C V}
      {issue : PrimaryIssue} {workflow : WorkflowState D}
      (hd : s.definition.steps.get? id = some d) (hrt : s.steps.get? id = some rt)
      (hpending : rt.state = .pending) (hmove : IssueMove s id d rt rt' issue)
      (htarget : issueTarget s.workflow d issue = some workflow) :
      StabilizeStep o s
        ⟨[nodeEvent s id d rt rt', .workflow (s.commit id rt').nextSeq s.workflow workflow], []⟩
        ((s.commit id rt').advance workflow)
  | passed {id : String} {d : RuntimeStep} {rt : StepRuntimeState C V}
      {predicate : ResolvedPredicate}
      (hd : s.definition.steps.get? id = some d) (hrt : s.steps.get? id = some rt)
      (hgate : conditionGateReady s id = true) (hcondition : d.condition = some predicate)
      (hevaluation : evaluateCondition s d predicate = .passed) :
      StabilizeStep o s 1 (s.setNode id { rt with conditionPassed := true })
  | enter {outcome : OrdinaryOutcome} (hsettled : allSettled s .step = true)
      (houtcome : ordinaryOutcome s = some outcome)
      (hfinalizers : s.definition.finalizerIds ≠ []) (hstabilizing : o = none) :
      StabilizeStep o s
        ⟨[.workflow s.nextSeq s.workflow
          (.finalizing outcome.trigger s.entryGate outcome.primaryIssue)], []⟩
        { s.advance (.finalizing outcome.trigger s.entryGate outcome.primaryIssue) with
          finalization := some (s.entryRuntime outcome) }
  | finish {outcome : OrdinaryOutcome} {summary : Option (FinalizationSummary D)}
      {exports : ExportSet V} (hready : FinishReady s outcome summary)
      (hexports : deriveExports s = some exports) (hstabilizing : o = none) :
      StabilizeStep o s
        ⟨[.workflow s.nextSeq s.workflow outcome.workflowState],
          [⟨s.actionId, .finishRun outcome.runOutcome exports⟩]⟩
        { s.advance outcome.workflowState with
          exports := some exports
          finalizationSummary := summary }

variable {t : RuntimeState C V D} {m : Emission O C V D}

theorem StabilizeStep.reducerStep (h : StabilizeStep o s m t) : ReducerStep o s m t := by
  cases h with
  | node hd hrt _ hmove => exact .node hd hrt hmove
  | issue hd hrt _ hmove hsilent => exact .issue hd hrt hmove hsilent
  | primaryIssue hd hrt _ hmove htarget => exact .primaryIssue hd hrt hmove htarget
  | passed hd hrt hgate hcondition hevaluation =>
    exact .passed hd hrt hgate hcondition hevaluation
  | enter hsettled houtcome hfinalizers hstabilizing =>
    exact .enter hsettled houtcome hfinalizers hstabilizing
  | finish hready hexports hstabilizing => exact .finish hready hexports hstabilizing

/-- One reduction leads to another by steps of a stabilization. -/
def Stabilizes (o : Option (Occurrence O C V D)) (r r' : Reduction O C V D) : Prop :=
  ∃ m t, LabelledRun (StabilizeStep o) r.state m t ∧ r' = r.emit m t

namespace Stabilizes

variable {r'' : Reduction O C V D}

theorem refl (r : Reduction O C V D) : Stabilizes o r r :=
  ⟨1, r.state, .refl _, r.emit_self.symm⟩

theorem step (h : StabilizeStep o r.state m t) : Stabilizes o r (r.emit m t) :=
  ⟨m, t, .single h, rfl⟩

variable (h : Stabilizes o r r')
include h

theorem trans (h' : Stabilizes o r' r'') : Stabilizes o r r'' := by
  obtain ⟨m, t, hrun, rfl⟩ := h
  obtain ⟨n, u, hrun', rfl⟩ := h'
  exact ⟨m * n, u, hrun.trans hrun', r.emit_emit m n t u⟩

theorem reaches : Reaches o r r' := by
  obtain ⟨m, t, hrun, heq⟩ := h
  exact ⟨m, t, hrun.mono (fun _ _ _ hstep => hstep.reducerStep), heq⟩

theorem nodesMatch (hr : NodesMatch r.state) : NodesMatch r'.state :=
  h.reaches.nodesMatch hr

theorem definition : r'.state.definition = r.state.definition :=
  h.reaches.definition

end Stabilizes

variable {rt' : StepRuntimeState C V}

theorem issueResult_stabilizes (hd : r.state.definition.steps.get? id = some d)
    (hrt : r.state.steps.get? id = some rt) (hpending : rt.state = .pending)
    {issue : PrimaryIssue} (hmove : IssueMove r.state id d rt rt' issue) :
    Stabilizes o r (issueResult r id d rt rt' issue) := by
  unfold issueResult
  split
  · rename_i hsilent
    exact .step (.issue hd hrt hpending hmove hsilent)
  · rename_i workflow htarget
    exact .step (.primaryIssue hd hrt hpending hmove htarget)

end Steps

section Propagation

theorem mem_finalizersNotSelected {trigger : FinalizationTrigger} :
    id ∈ finalizersNotSelected s trigger ↔ id ∈ s.definition.finalizerIds ∧
      ∃ d rt, s.definition.steps.get? id = some d ∧ s.steps.get? id = some rt ∧
        rt.state = .pending ∧ trigger ∉ d.when := by
  simp only [finalizersNotSelected, List.mem_filter, Bool.and_eq_true, stepIs_isPending,
    Option.any_eq_true, decide_eq_true_eq]
  refine and_congr_right (fun _ => ?_)
  constructor
  · rintro ⟨⟨rt, hrt, hpending⟩, d, hd, hwhen⟩
    exact ⟨d, rt, hd, hrt, hpending, hwhen⟩
  · rintro ⟨d, rt, hd, hrt, hpending, hwhen⟩
    exact ⟨⟨rt, hrt, hpending⟩, d, hd, hwhen⟩

theorem transitionStep_get? (r : Reduction O C V D) (id j : String) (target : StepState V) :
    (transitionStep r id target none).2.state.steps.get? j =
      if j = id then (r.state.steps.get? j).map (StepRuntimeState.dropped · target)
      else r.state.steps.get? j := by
  have hsteps : (nextSequence r.state).2.steps = r.state.steps := r.state.tick_steps
  unfold transitionStep
  dsimp only
  cases hrt : (nextSequence r.state).2.steps.get? id with
  | none =>
    rw [hsteps] at hrt
    dsimp only
    rw [hsteps]
    split_ifs with hj
    · rw [hj, hrt, Option.map_none]
    · rfl
  | some =>
    dsimp only
    rw [modifyStep, hsteps]
    exact BTreeMap.get?_modify _ _ _ _

/-- The part of a state that settling a node leaves alone. -/
theorem transitionStep_frame (r : Reduction O C V D) (id : String) (target : StepState V) :
    (transitionStep r id target none).2.state.definition = r.state.definition ∧
      (transitionStep r id target none).2.state.workflow = r.state.workflow ∧
      (transitionStep r id target none).2.state.finalization = r.state.finalization ∧
      (transitionStep r id target none).2.state.forceAbort = r.state.forceAbort := by
  have hdefinition := r.state.tick_definition
  have hworkflow := r.state.tick_workflow
  have hfinalization := r.state.tick_finalization
  have hforce := r.state.tick_forceAbort
  unfold RuntimeState.tick at hdefinition hworkflow hfinalization hforce
  unfold transitionStep
  dsimp only
  split <;> exact ⟨hdefinition, hworkflow, hfinalization, hforce⟩

/-- Settling the nodes of a list one after another. -/
theorem foldl_transitionStep_spec (ids : List String) (target : StepState V)
    (r : Reduction O C V D) :
    let settled := (ids.foldl (fun r id => (transitionStep r id target none).2) r).state
    (settled.definition = r.state.definition ∧ settled.workflow = r.state.workflow ∧
      settled.finalization = r.state.finalization ∧ settled.forceAbort = r.state.forceAbort) ∧
    (∀ j ∉ ids, settled.steps.get? j = r.state.steps.get? j) ∧
    ∀ j ∈ ids, ∀ rt, settled.steps.get? j = some rt → rt.state = target := by
  induction ids generalizing r with
  | nil => exact ⟨⟨rfl, rfl, rfl, rfl⟩, fun _ _ => rfl, nofun⟩
  | cons id ids ih =>
    obtain ⟨⟨hdefinition, hworkflow, hfinalization, hforce⟩, hothers, hsettled⟩ :=
      ih (transitionStep r id target none).2
    obtain ⟨hdefinition', hworkflow', hfinalization', hforce'⟩ := transitionStep_frame r id target
    refine ⟨⟨hdefinition.trans hdefinition', hworkflow.trans hworkflow',
      hfinalization.trans hfinalization', hforce.trans hforce'⟩, ?_, ?_⟩
    · intro j hj
      rw [List.mem_cons, not_or] at hj
      rw [List.foldl_cons, hothers j hj.2, transitionStep_get?, if_neg hj.1]
    · intro j hj rt hrt
      by_cases hmem : j ∈ ids
      · exact hsettled j hmem rt hrt
      · rw [List.foldl_cons, hothers j hmem, transitionStep_get?,
          if_pos ((List.mem_cons.mp hj).resolve_right hmem)] at hrt
        obtain ⟨rt₀, -, rfl⟩ := Option.map_eq_some_iff.mp hrt
        rfl

theorem propagateFinalizerTriggerDispositions_frame (r : Reduction O C V D) :
    let settled := (propagateFinalizerTriggerDispositions r).state
    settled.definition = r.state.definition ∧ settled.workflow = r.state.workflow ∧
      settled.finalization = r.state.finalization ∧
      settled.forceAbort = r.state.forceAbort := by
  unfold propagateFinalizerTriggerDispositions
  split
  · exact ⟨rfl, rfl, rfl, rfl⟩
  · exact (foldl_transitionStep_spec _ _ r).1

/-- A finalizer that is still pending then is selected by the trigger. -/
theorem propagateFinalizerTriggerDispositions_selected {finalization : FinalizationRuntime D}
    (hfinalization : r.state.finalization = some finalization)
    (hid : id ∈ r.state.definition.finalizerIds) (hd : r.state.definition.steps.get? id = some d)
    (hrt : (propagateFinalizerTriggerDispositions r).state.steps.get? id = some rt)
    (hpending : rt.state = .pending) : finalization.trigger ∈ d.when := by
  by_contra hwhen
  simp only [propagateFinalizerTriggerDispositions, hfinalization] at hrt
  obtain ⟨-, hothers, hsettled⟩ := foldl_transitionStep_spec
    (finalizersNotSelected r.state finalization.trigger)
    (.notRun ⟨.finalizerTriggerNotSelected⟩) r
  by_cases hmem : id ∈ finalizersNotSelected r.state finalization.trigger
  · rw [hsettled id hmem rt hrt] at hpending
    cases hpending
  · rw [hothers id hmem] at hrt
    exact hmem (mem_finalizersNotSelected.mpr ⟨hid, d, rt, hd, hrt, hpending, hwhen⟩)

variable [ConditionOutput V]

/-- A loop stabilizes when its steps do. -/
theorem iterate_stabilizes {next : Reduction O C V D → Option (Reduction O C V D)}
    (hnext : ∀ r r', NodesMatch r.state → next r = some r' → Stabilizes o r r') (n : Nat)
    (hnodes : NodesMatch r.state) : Stabilizes o r (iterate next n r) := by
  refine iterate_induction (P := fun r' => Stabilizes o r r') ?_ n (.refl r)
  intro r₁ r₂ h₁ heq
  exact h₁.trans (hnext r₁ r₂ (h₁.nodesMatch hnodes) heq)

theorem propagateOrdinaryStep_stabilizes (h : propagateOrdinaryStep r = some r') :
    Stabilizes o r r' := by
  unfold propagateOrdinaryStep at h
  split at h
  · cases h
  · rename_i id detail hnext
    cases h
    obtain ⟨hid, hdisposition⟩ := nextOrdinaryPendingDisposition_spec hnext
    obtain ⟨-, d, rt, hd, hrt, hpending, ⟨detail', heq, hnew⟩ | ⟨heq, -⟩⟩ :=
      ordinaryPendingDisposition_spec hdisposition
    · cases heq
      rw [settleBlocked_eq hd hrt]
      exact issueResult_stabilizes hd hrt hpending (.blockOrdinary detail hpending hid hnew)
    · cases heq
  · rename_i id hnext
    cases h
    obtain ⟨hid, hdisposition⟩ := nextOrdinaryPendingDisposition_spec hnext
    obtain ⟨-, d, rt, hd, hrt, hpending, ⟨_, heq, -⟩ | ⟨-, hblockers, hstopped, hsatisfied⟩⟩ :=
      ordinaryPendingDisposition_spec hdisposition
    · cases heq
    · rw [transitionStep_eq hd hrt]
      exact .step (.node hd hrt hpending (.failureStop hpending hid hstopped hblockers hsatisfied))

theorem propagateOrdinaryPendingDispositions_stabilizes (hnodes : NodesMatch r.state) :
    Stabilizes o r (propagateOrdinaryPendingDispositions r) :=
  iterate_stabilizes (fun _ _ _ h => propagateOrdinaryStep_stabilizes h) _ hnodes

/-- Settle a list of pending nodes that were never started.  The guard `I` of the
moves does not depend on the nodes. -/
theorem foldl_drop_stabilizes {target : StepState V}
    {I : RuntimeState C V D → Prop} {ids : List String}
    (hcommit : ∀ s id rt, I s → I (s.commit id rt))
    (hmove : ∀ s id d rt, I s → id ∈ ids → s.definition.steps.get? id = some d →
      rt.state = .pending → NodeMove o s id d rt (rt.dropped target) [])
    (hnodup : ids.Nodup) (hI : I r.state)
    (hpending : ∀ id ∈ ids, ∃ d rt, r.state.definition.steps.get? id = some d ∧
      r.state.steps.get? id = some rt ∧ rt.state = .pending) :
    Stabilizes o r (ids.foldl (fun r id => (transitionStep r id target none).2) r) := by
  induction ids generalizing r with
  | nil => exact .refl r
  | cons id ids ih =>
    obtain ⟨d, rt, hd, hrt, hstate⟩ := hpending id List.mem_cons_self
    obtain ⟨hhead, htail⟩ := List.nodup_cons.mp hnodup
    rw [List.foldl_cons, transitionStep_eq hd hrt]
    refine (Stabilizes.step (.node hd hrt hstate
      (hmove _ id d rt hI List.mem_cons_self hd hstate))).trans (ih ?_ htail ?_ ?_)
    · intro s id' d' rt' hs hmem
      exact hmove s id' d' rt' hs (List.mem_cons_of_mem _ hmem)
    · exact hcommit _ _ _ hI
    · intro id' hmem
      have hne : id' ≠ id := fun heq => hhead (heq ▸ hmem)
      rw [emit_state, RuntimeState.commit_definition, RuntimeState.get?_commit_of_ne hne]
      exact hpending id' (List.mem_cons_of_mem _ hmem)

theorem propagateFinalizerTriggerDispositions_stabilizes (hcoherent : r.state.definition.Coherent) :
    Stabilizes o r (propagateFinalizerTriggerDispositions r) := by
  unfold propagateFinalizerTriggerDispositions
  split
  · exact .refl r
  · rename_i finalization hfinalization
    refine foldl_drop_stabilizes (I := fun s => s.definition = r.state.definition ∧
      s.finalization = some finalization) ?_ ?_ ((hcoherent.nodup .finalizer).filter _)
        ⟨rfl, hfinalization⟩ ?_
    · rintro s id rt ⟨hdefinition, hs⟩
      exact ⟨by simpa using hdefinition, by simpa using hs⟩
    · rintro s id d rt ⟨hdefinition, hs⟩ hmem hd hpending
      obtain ⟨hid, d', rt', hd', -, -, hwhen⟩ := mem_finalizersNotSelected.mp hmem
      rw [hdefinition, hd'] at hd
      cases hd
      exact .notSelected finalization hpending (hdefinition ▸ hid) hs hwhen
    · intro id hmem
      obtain ⟨-, d, rt, hd, hrt, hpending, -⟩ := mem_finalizersNotSelected.mp hmem
      exact ⟨d, rt, hd, hrt, hpending⟩

theorem cancelPendingNodes_stabilizes (hphase : r.state.Finalizing)
    (hforced : forceAbortedOrdinary r.state = true)
    (hselected : ∀ id d rt finalization, r.state.definition.steps.get? id = some d →
      d.role = .finalizer → r.state.steps.get? id = some rt → rt.state = .pending →
      r.state.finalization = some finalization → finalization.trigger ∈ d.when) :
    Stabilizes o r (cancelPendingNodes r .finalizer .forceAbort) := by
  unfold cancelPendingNodes
  have hfold : ∀ (nodes : List (String × StepStateKind))
      (r : Reduction O C V D),
      nodes.foldl (fun r node =>
        (transitionStep r node.1 (.cancelled ⟨.forceAbort⟩) none).2) r =
      (nodes.map Prod.fst).foldl (fun r id =>
        (transitionStep r id (.cancelled ⟨.forceAbort⟩) none).2) r := by
    intro nodes r
    rw [List.foldl_map]
  rw [hfold]
  have hnode : ∀ id ∈ ((nodesOfRole r.state .finalizer).filter
      (fun node => node.2 = .pending)).map Prod.fst, ∃ d rt,
      r.state.definition.steps.get? id = some d ∧ d.role = .finalizer ∧
      r.state.steps.get? id = some rt ∧ rt.state = .pending := by
    intro id hmem
    obtain ⟨node, hnode, rfl⟩ := List.mem_map.mp hmem
    obtain ⟨hmem', hkind⟩ := List.mem_filter.mp hnode
    obtain ⟨d, rt, hd, hrole, hrt, hkind'⟩ := nodesOfRole_spec.mp hmem'
    refine ⟨d, rt, hd, hrole, hrt, ?_⟩
    rw [← hkind', decide_eq_true_eq] at hkind
    cases hstate : rt.state <;> simp_all [StepState.kind]
  refine foldl_drop_stabilizes (I := fun s => s.definition = r.state.definition ∧
    s.workflow = r.state.workflow ∧ s.finalization = r.state.finalization ∧
    s.forceAbort = r.state.forceAbort) ?_ ?_ ?_ ⟨rfl, rfl, rfl, rfl⟩ ?_
  · rintro s id rt ⟨hdefinition, hworkflow, hfinalization, hforce⟩
    exact ⟨by simpa using hdefinition, by simpa using hworkflow, by simpa using hfinalization,
      by simpa using hforce⟩
  · rintro s id d rt ⟨hdefinition, hworkflow, hfinalization, hforce⟩ hmem hd hpending
    obtain ⟨d', rt', hd', hrole, hrt', hpending'⟩ := hnode id hmem
    rw [hdefinition, hd'] at hd
    cases hd
    refine .forcedCancel hpending hrole (hworkflow ▸ hphase) ?_ ?_
    · rwa [forceAbortedOrdinary, hforce]
    · intro finalization hsome
      exact hselected id d rt' finalization hd' hrole hrt' hpending' (hfinalization ▸ hsome)
  · exact (nodesOfRole_nodup r.state .finalizer).sublist (List.filter_sublist.map _)
  · intro id hmem
    obtain ⟨d, rt, hd, -, hrt, hpending⟩ := hnode id hmem
    exact ⟨d, rt, hd, hrt, hpending⟩

theorem finalizerConditionBlockStep_stabilizes (h : finalizerConditionBlockStep r = some r') :
    Stabilizes o r r' := by
  unfold finalizerConditionBlockStep at h
  split at h
  · cases h
  · rename_i id detail hnext
    cases h
    obtain ⟨hid, d, rt, hd, hrt, hpending, hcondition, hpassed, hgate, hnew⟩ :=
      nextFinalizerConditionBlock_spec hnext
    rw [settleBlocked_eq hd hrt]
    exact issueResult_stabilizes hd hrt hpending
      (.blockCondition detail hpending hid hcondition hpassed hgate hnew)

theorem inputUnavailableStep_stabilizes (h : inputUnavailableStep r = some r') :
    Stabilizes o r r' := by
  unfold inputUnavailableStep at h
  split at h
  · cases h
  · rename_i id references hnext
    obtain ⟨hid, d, rt, hd, hrt, hready, hpassed, rfl, -⟩ := nextInputUnavailable_spec hnext
    split at h
    · cases h
      exact .refl r
    · rename_i detail hnew
      cases h
      obtain ⟨-, -, ⟨rt', hrt', hpending⟩, -⟩ := finalizerReady_iff.mp hready
      rw [hrt] at hrt'
      cases hrt'
      rw [settleBlocked_eq hd hrt]
      exact issueResult_stabilizes hd hrt hpending
        (.blockInput detail hpending hid hpassed hready hnew)

theorem propagateFinalizerDispositions_rest (hnodes : NodesMatch r.state)
    (hcoherent : r.state.definition.Coherent) :
    Stabilizes o (propagateFinalizerTriggerDispositions r) (propagateFinalizerDispositions r) := by
  have hnodes' : NodesMatch (propagateFinalizerTriggerDispositions r).state :=
    (propagateFinalizerTriggerDispositions_stabilizes (o := o) hcoherent).nodesMatch hnodes
  have hcondition := iterate_stabilizes (o := o) (r := propagateFinalizerTriggerDispositions r)
    (fun _ _ _ h => finalizerConditionBlockStep_stabilizes h)
    (loopBound (propagateFinalizerTriggerDispositions r)) hnodes'
  exact hcondition.trans (iterate_stabilizes (fun _ _ _ h => inputUnavailableStep_stabilizes h) _
    (hcondition.nodesMatch hnodes'))

theorem propagateFinalizerDispositions_stabilizes (hnodes : NodesMatch r.state)
    (hcoherent : r.state.definition.Coherent) : Stabilizes o r (propagateFinalizerDispositions r) :=
  (propagateFinalizerTriggerDispositions_stabilizes hcoherent).trans
    (propagateFinalizerDispositions_rest hnodes hcoherent)

end Propagation

section Conditions

variable [ConditionOutput V]

theorem evaluateConditionStep_stabilizes (h : evaluateConditionStep r role = some r') :
    Stabilizes o r r' := by
  unfold evaluateConditionStep at h
  simp only [Option.bind_eq_bind, Option.bind_eq_some_iff] at h
  obtain ⟨id, hnext, d, hd, predicate, hcondition, h⟩ := h
  have hgate : conditionGateReady r.state id = true := List.find?_some hnext
  obtain ⟨d', rt, _, hrt, -, -, hpending, -⟩ := conditionGateReady_iff.mp hgate
  cases hevaluation : evaluateCondition r.state d predicate with
  | passed =>
    simp only [hevaluation, settleCondition, Option.some.injEq, mapState_eq,
      RuntimeState.modifyStep_eq hrt] at h
    rw [← h]
    exact .step (.passed hd hrt hgate hcondition hevaluation)
  | «false» trace =>
    simp only [hevaluation, settleCondition] at h
    split at h
    · cases h
    · rename_i detail hdetail
      simp only [Option.some.injEq, transitionStep_eq hd hrt] at h
      rw [← h]
      exact .step (.node hd hrt hpending
        (.skip predicate trace detail hgate hpending hcondition hevaluation hdetail))
  | failed canonicalRef pointer =>
    simp only [hevaluation, settleCondition] at h
    split at h
    · cases h
    · rename_i detail hdetail
      cases h
      rw [settleTargetFailure_eq hd hrt]
      exact issueResult_stabilizes hd hrt hpending
        (.conditionFailed predicate canonicalRef pointer detail
        hgate hpending hcondition hevaluation hdetail)
  | unavailable =>
    simp only [hevaluation, settleCondition] at h
    cases h

theorem evaluateReadyConditions_stabilizes (hnodes : NodesMatch r.state) (role : WorkflowNodeRole) :
    Stabilizes o r (evaluateReadyConditions r role) :=
  iterate_stabilizes (fun _ _ _ h => evaluateConditionStep_stabilizes h) _ hnodes

end Conditions

section Selection

theorem selectedNodes_spec (hcoherent : s.definition.Coherent)
    {node : String × BTreeMap String (ActionInput V)} (h : node ∈ selectedNodes s role) :
    ∃ d, s.definition.steps.get? node.1 = some d ∧ d.role = role ∧
      nodeReady s role node.1 d = true ∧ node.2 = resolvedActionInputs s d := by
  obtain ⟨id, hid, heq⟩ := List.mem_filterMap.mp (List.mem_of_mem_take h)
  obtain ⟨d, hd, hrole⟩ := (hcoherent.mem_idsOf role id).mp hid
  simp only [hd] at heq
  split_ifs at heq with hready
  cases heq
  exact ⟨d, hd, hrole, hready, rfl⟩

theorem selectedNodes_nodup (hcoherent : s.definition.Coherent) (role : WorkflowNodeRole) :
    ((selectedNodes s role).map Prod.fst).Nodup := by
  have hsub {f : String → Option (String × BTreeMap String (ActionInput V))}
      (hf : ∀ id node, f id = some node → node.1 = id) (ids : List String) :
      ((ids.filterMap f).map Prod.fst).Sublist ids := by
    induction ids with
    | nil => simp
    | cons id ids ih =>
      rw [List.filterMap_cons]
      split
      · exact ih.trans (List.sublist_cons_self _ _)
      · rename_i node heq
        rw [List.map_cons, hf id node heq]
        exact ih.cons_cons _
  refine (hcoherent.nodup role).sublist (((List.take_sublist _ _).map _).trans (hsub ?_ _))
  intro id node hnode
  split at hnode
  · cases hnode
  · split_ifs at hnode
    cases hnode
    rfl

variable [ConditionOutput V]

/-- Starting one of several selected nodes leaves the others ready, with the
same inputs: a started node has settled as little as a pending one. -/
theorem foldl_authorizeTarget_stabilizes {nodes : List (String × BTreeMap String (ActionInput V))}
    (hnodup : (nodes.map Prod.fst).Nodup) (hgate : phaseGateOpen r.state role = true)
    (hslots : nodes.length ≤ availableSlots r.state)
    (hnodes : ∀ node ∈ nodes, ∃ d, r.state.definition.steps.get? node.1 = some d ∧
      d.role = role ∧ nodeReady r.state role node.1 d = true ∧
      node.2 = resolvedActionInputs r.state d) :
    Stabilizes none r (nodes.foldl (fun r node => authorizeTarget r node.1 1 node.2) r) := by
  induction nodes generalizing r with
  | nil => exact .refl r
  | cons node nodes ih =>
    obtain ⟨d, hd, rfl, hready, hinputs⟩ := hnodes node List.mem_cons_self
    obtain ⟨rt, hrt, hpending⟩ := nodeReady_pending hready
    obtain ⟨hhead, htail⟩ := List.nodup_cons.mp hnodup
    rw [List.foldl_cons, authorizeTarget_eq hd hrt, hinputs]
    have hslot : activeCount r.state < r.state.definition.maximumParallelSteps := by
      rw [List.length_cons, availableSlots] at hslots
      omega
    refine (Stabilizes.step (.node hd hrt hpending (.start rfl hpending hgate hready hslot))).trans
      (ih htail ?_ ?_ ?_)
    · simpa [phaseGateOpen] using hgate
    · have hcount := activeCount_commit hrt (rt.started r.state.actionId 1)
      rw [List.length_cons] at hslots
      simp only [hpending, StepRuntimeState.started_state, StepState.isActive,
        Bool.false_eq_true, if_false, if_true, availableSlots, emit_state,
        RuntimeState.commit_definition] at hcount hslots ⊢
      omega
    · intro node' hmem
      have hne : node'.1 ≠ node.1 := fun heq =>
        hhead (heq ▸ List.mem_map_of_mem hmem)
      have halike : SettledAlike r.state
          (r.state.commit node.1 (rt.started r.state.actionId 1)) :=
        commit_settledAlike hrt (by rw [hpending]; rfl) rfl
      obtain ⟨d', hd', hrole', hready', hinputs'⟩ :=
        hnodes node' (List.mem_cons_of_mem _ hmem)
      refine ⟨d', by simpa using hd', hrole', ?_, ?_⟩
      · rw [emit_state, halike.nodeReady _ d.role d']
        · exact hready'
        · simp only [stepIs, RuntimeState.get?_commit_of_ne hne]
      · rw [emit_state, halike.resolvedActionInputs]
        exact hinputs'

theorem selectReadyNodes_stabilizes (hcoherent : r.state.definition.Coherent)
    (role : WorkflowNodeRole) : Stabilizes none r (selectReadyNodes r role) := by
  unfold selectReadyNodes
  split_ifs with hgate
  · exact .refl r
  · exact foldl_authorizeTarget_stabilizes (selectedNodes_nodup hcoherent role)
      (by simpa using hgate) (List.length_take_le _ _)
      (fun _ hmem => selectedNodes_spec hcoherent hmem)

end Selection

variable [ConditionOutput V]

theorem finishRun_stabilizes {outcome : OrdinaryOutcome} {summary : Option (FinalizationSummary D)}
    (hready : FinishReady r.state outcome summary) :
    Stabilizes none r (finishRun r outcome summary) := by
  unfold finishRun
  split
  · exact .refl r
  · rename_i exports hexports
    simp only [transitionWorkflow_eq, mapState_eq, Reduction.pushAction_eq,
      emit_state, emit_emit, mul_one]
    exact .step (.finish hready hexports rfl)

theorem enterFinalizationOrFinish_stabilizes : Stabilizes none r (enterFinalizationOrFinish r) := by
  unfold enterFinalizationOrFinish
  cases hsettled : allSettled r.state .step with
  | false => exact .refl r
  | true =>
    simp only [Bool.not_true, Bool.false_eq_true, if_false]
    cases houtcome : ordinaryOutcome r.state with
    | none => exact .refl r
    | some =>
      dsimp only
      split_ifs with hfinalizers
      · exact finishRun_stabilizes (.ordinary hsettled houtcome (by simpa using hfinalizers))
      · simp only [enterFinalization, transitionWorkflow_eq, mapState_eq,
          emit_state, emit_emit, mul_one]
        exact .step (.enter hsettled houtcome (by simpa using hfinalizers) rfl)

theorem finishFinalizationIfTerminal_stabilizes :
    Stabilizes none r (finishFinalizationIfTerminal r) := by
  unfold finishFinalizationIfTerminal
  split
  · rename_i trigger gate issue hworkflow
    split_ifs with hsettled
    · exact .refl r
    split
    · exact .refl r
    · rename_i finalization hfinalization
      exact finishRun_stabilizes (.finalization ⟨trigger, gate, issue, hworkflow⟩
        (by simpa using hsettled) hfinalization)
  · exact .refl r

variable (hnodes : NodesMatch r.state) (hcoherent : r.state.definition.Coherent)

include hnodes in
theorem settleOrdinaryPhase_stabilizes : Stabilizes o r (settleOrdinaryPhase r) := by
  have hfirst := propagateOrdinaryPendingDispositions_stabilizes (o := o) hnodes
  have hevaluated := hfirst.trans
    (evaluateReadyConditions_stabilizes (hfirst.nodesMatch hnodes) .step)
  exact hevaluated.trans
    (propagateOrdinaryPendingDispositions_stabilizes (hevaluated.nodesMatch hnodes))

include hnodes hcoherent in
theorem propagateFinalizationPhase_rest (hphase : r.state.Finalizing) :
    Stabilizes o (propagateFinalizerTriggerDispositions r) (propagateFinalizationPhase r) := by
  unfold propagateFinalizationPhase
  split_ifs with hforced
  · obtain ⟨hdefinition, hworkflow, hfinalization, hforce⟩ :=
      propagateFinalizerTriggerDispositions_frame r
    refine cancelPendingNodes_stabilizes (by rwa [RuntimeState.Finalizing, hworkflow]) ?_ ?_
    · rwa [forceAbortedOrdinary, hforce]
    · intro id d rt finalization hd hrole hrt hpending hsome
      rw [hdefinition] at hd
      rw [hfinalization] at hsome
      exact propagateFinalizerTriggerDispositions_selected hsome
        ((hcoherent.mem_idsOf .finalizer id).mpr ⟨d, hd, hrole⟩) hd hrt hpending
  · exact propagateFinalizerDispositions_rest hnodes hcoherent

include hnodes hcoherent in
/-- The finalization phase after the finalizers were settled that the trigger does not select. -/
theorem settleFinalizationPhase_rest (hphase : r.state.Finalizing) :
    Stabilizes o (propagateFinalizerTriggerDispositions r) (settleFinalizationPhase r) := by
  have htrigger := propagateFinalizerTriggerDispositions_stabilizes (o := o) hcoherent
  have hfirst := propagateFinalizationPhase_rest (o := o) hnodes hcoherent hphase
  have hnodes' := hfirst.nodesMatch (htrigger.nodesMatch hnodes)
  have hevaluated := hfirst.trans (evaluateReadyConditions_stabilizes hnodes' .finalizer)
  unfold settleFinalizationPhase
  dsimp only
  split_ifs
  · exact hevaluated
  · refine hevaluated.trans (propagateFinalizerDispositions_stabilizes
      (hevaluated.nodesMatch (htrigger.nodesMatch hnodes)) ?_)
    rw [hevaluated.definition, htrigger.definition]
    exact hcoherent

include hnodes hcoherent in
theorem settleFinalizationPhase_stabilizes (hphase : r.state.Finalizing) :
    Stabilizes o r (settleFinalizationPhase r) :=
  (propagateFinalizerTriggerDispositions_stabilizes hcoherent).trans
    (settleFinalizationPhase_rest hnodes hcoherent hphase)

include hnodes hcoherent in
theorem stabilizePass_finalizing (hphase : r.state.Finalizing) :
    Stabilizes none (settleFinalizationPhase r) (stabilizePass r) := by
  obtain ⟨trigger, gate, issue, hworkflow⟩ := hphase
  have hsettled := settleFinalizationPhase_stabilizes (o := none) hnodes hcoherent
    ⟨trigger, gate, issue, hworkflow⟩
  simp only [stabilizePass, hworkflow]
  refine (selectReadyNodes_stabilizes ?_ .finalizer).trans finishFinalizationIfTerminal_stabilizes
  rw [hsettled.definition]
  exact hcoherent

include hnodes hcoherent in
theorem stabilizePass_executing (hphase : ∃ gate, r.state.workflow = .executing gate) :
    Stabilizes none (settleOrdinaryPhase r) (stabilizePass r) := by
  obtain ⟨gate, hworkflow⟩ := hphase
  have hsettled := settleOrdinaryPhase_stabilizes (o := none) hnodes
  simp only [stabilizePass, hworkflow]
  refine (selectReadyNodes_stabilizes ?_ .step).trans enterFinalizationOrFinish_stabilizes
  rw [hsettled.definition]
  exact hcoherent

include hnodes hcoherent in
/-- A pass takes only steps of a stabilization. -/
theorem stabilizePass_stabilizes : Stabilizes none r (stabilizePass r) := by
  cases hworkflow : r.state.workflow with
  | executing gate =>
    exact (settleOrdinaryPhase_stabilizes hnodes).trans
      (stabilizePass_executing hnodes hcoherent ⟨gate, hworkflow⟩)
  | finalizing trigger gate issue =>
    exact (settleFinalizationPhase_stabilizes hnodes hcoherent
      ⟨trigger, gate, issue, hworkflow⟩).trans
      (stabilizePass_finalizing hnodes hcoherent ⟨trigger, gate, issue, hworkflow⟩)
  | succeeded | failed | cancelled =>
    simp only [stabilizePass, hworkflow]
    exact .refl r

theorem stabilizeLoop_stabilizes (fuel : Nat) (r : Reduction O C V D)
    (hnodes : NodesMatch r.state) (hcoherent : r.state.definition.Coherent) :
    Stabilizes none r (stabilizeLoop fuel r) := by
  induction fuel generalizing r with
  | zero => exact .refl r
  | succ fuel ih =>
    have hpass := stabilizePass_stabilizes hnodes hcoherent
    unfold stabilizeLoop
    dsimp only
    split_ifs
    · exact hpass
    · refine hpass.trans (ih _ (hpass.nodesMatch hnodes) ?_)
      rw [hpass.definition]
      exact hcoherent

include hnodes hcoherent

theorem stabilize_stabilizes : Stabilizes none r (stabilize r) :=
  stabilizeLoop_stabilizes _ r hnodes hcoherent

/-- Stabilizing is a run of reducer steps. -/
theorem stabilize_reaches : Reaches none r (stabilize r) :=
  (stabilize_stabilizes hnodes hcoherent).reaches

end ScherzoCloud.Workflow
