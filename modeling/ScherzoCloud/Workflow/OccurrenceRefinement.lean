import ScherzoCloud.Workflow.NodeMoves

/-!
# Applying an occurrence takes only steps of the reducer

Every function that applies an occurrence is a run of `ReducerStep`: failures
and recovery rounds, cancellations, and the reports of the driver.  The same case
analysis says what the run does to each node.
-/

namespace ScherzoCloud.Workflow

open Collections
open TargetExecutionNumber (next)
open RuntimeState (tick_definition tick_steps get?_setNode_self setNode_commit setNode_nextSeq
  modifyStep_eq get?_commit_self commit_setNode setNode_self setNode_setNode get?_commit_of_ne
  nextSeq_eq)
open Reduction (mapState_eq emit_state emit_emit pushAction_eq emit_self)

variable {O C V D : Type} {o : Option (Occurrence O C V D)} {r r' : Reduction O C V D}
  {m : Emission O C V D} {t : RuntimeState C V D} {reason : CancellationReason}
  {force : Option CancellationOperationId} {id : String} {d : RuntimeStep}
  {rt : StepRuntimeState C V} {action : ActionId}

section Reaches

variable [ConditionOutput V]

/-- One reduction leads to another by steps of the reducer. -/
def Reaches (o : Option (Occurrence O C V D)) (r r' : Reduction O C V D) : Prop :=
  ∃ m t, LabelledRun (ReducerStep o) r.state m t ∧ r' = r.emit m t

namespace Reaches

variable {r'' : Reduction O C V D}

theorem refl (r : Reduction O C V D) : Reaches o r r :=
  ⟨1, r.state, .refl _, r.emit_self.symm⟩

theorem trans (h : Reaches o r r') (h' : Reaches o r' r'') : Reaches o r r'' := by
  obtain ⟨m, t, hrun, rfl⟩ := h
  obtain ⟨n, u, hrun', rfl⟩ := h'
  exact ⟨m * n, u, hrun.trans hrun', r.emit_emit m n t u⟩

end Reaches

end Reaches

section Frames

variable {deadline : D} {index next : Nat} {s : RuntimeState C V D} {ids : List String}

theorem CancelMove.definition (h : CancelMove reason deadline force index s id next m t) :
    t.definition = s.definition := by
  cases h <;> simp

theorem CancelMove.keys (h : CancelMove reason deadline force index s id next m t) :
    t.steps.keys = s.steps.keys := by
  cases h <;> simp

theorem CancelRun.definition (h : CancelRun reason deadline force index ids s m t) :
    t.definition = s.definition := by
  induction h with
  | nil => rfl
  | cons hmove _ ih => exact ih.trans hmove.definition

theorem CancelRun.keys (h : CancelRun reason deadline force index ids s m t) :
    t.steps.keys = s.steps.keys := by
  induction h with
  | nil => rfl
  | cons hmove _ ih => exact ih.trans hmove.keys

/-- A cancellation only cancels nodes that it goes through. -/
theorem CancelRun.mem_events {e : TransitionEvent D}
    (h : CancelRun reason deadline force index ids s m t) (he : e ∈ m.events) :
    ∃ id ∈ ids, ∃ d, s.definition.steps.get? id = some d ∧ ∃ sequence source target,
      e = .step sequence id d.role d.failurePolicy source target ∧
        (target = .cancelled ∨ target = .cancelling) := by
  induction h with
  | nil => cases he
  | cons hmove _ ih =>
    rcases List.mem_append.mp he with he | he
    · cases hmove with
      | drop hd => exact ⟨_, List.mem_cons_self, _, hd, _, _, _, List.mem_singleton.mp he, .inl rfl⟩
      | contain hd =>
        exact ⟨_, List.mem_cons_self, _, hd, _, _, _, List.mem_singleton.mp he, .inr rfl⟩
      | escalate | pass => cases he
    · obtain ⟨id, hid, d, hd, hevent⟩ := ih he
      rw [hmove.definition] at hd
      exact ⟨id, List.mem_cons_of_mem _ hid, d, hd, hevent⟩

variable [ConditionOutput V]

/-- No step changes the definition of the run. -/
theorem ReducerStep.definition (h : ReducerStep o s m t) : t.definition = s.definition := by
  cases h with
  | cancelOrdinary _ _ hcancel | cancelFinalization _ hcancel | forceOrdinary _ _ hcancel
  | forceFinalization _ _ hcancel => exact hcancel.definition.trans (tick_definition _)
  | _ => simp

/-- No step adds or removes a node. -/
theorem ReducerStep.keys (h : ReducerStep o s m t) : t.steps.keys = s.steps.keys := by
  cases h with
  | cancelOrdinary _ _ hcancel | cancelFinalization _ hcancel | forceOrdinary _ _ hcancel
  | forceFinalization _ _ hcancel =>
    exact hcancel.keys.trans (congrArg BTreeMap.keys (tick_steps _))
  | _ => simp

theorem ReducerStep.nodesMatch (h : ReducerStep o s m t) (hs : NodesMatch s) : NodesMatch t := by
  unfold NodesMatch
  rw [h.keys, h.definition]
  exact hs

theorem Reaches.nodesMatch (h : Reaches o r r') (hr : NodesMatch r.state) :
    NodesMatch r'.state := by
  obtain ⟨m, t, hrun, rfl⟩ := h
  exact hrun.invariant (I := NodesMatch) (fun _ _ _ hs hstep => hstep.nodesMatch hs) hr

theorem Reaches.definition (h : Reaches o r r') : r'.state.definition = r.state.definition := by
  obtain ⟨m, t, hrun, rfl⟩ := h
  exact hrun.invariant (I := fun s => s.definition = r.state.definition)
    (fun _ _ _ hs hstep => hstep.definition.trans hs) rfl

end Frames

section Cancellation

variable (reason : CancellationReason) (deadline : D) (force : Option CancellationOperationId)
  (index : Nat)

/-- Containing an active node, gracefully or by force. -/
theorem cancelNode_active {active : ActiveStepInvocation} {kind : StepStateKind}
    (hkind : kind = .starting ∨ kind = .running ∨ kind = .capturingOutputs ∨ kind = .recovering)
    (hd : r.state.definition.steps.get? id = some d) (hrt : r.state.steps.get? id = some rt)
    (hactive : rt.activeInvocation = some active) :
    cancelNode r reason deadline force index id kind = (index + 1, r.emit
        ⟨[nodeEvent r.state id d rt { rt.noteHandlerCancelled active with
            state := .cancelling ⟨reason⟩ }],
          [containment reason deadline force r.state index id active]⟩
        (r.state.commit id { rt.noteHandlerCancelled active with
          state := .cancelling ⟨reason⟩
          currentAction := some (containmentId force r.state index) })) := by
  have hnote := rt.noteHandlerCancelled_annotated active
  have heq := markHandlerCancelled_eq hrt active
  generalize rt.noteHandlerCancelled active = rt' at hnote heq
  have hrt' := get?_setNode_self hrt rt'
  have hd' : (r.emit 1 (r.state.setNode id rt')).state.definition.steps.get? id = some d := hd
  rcases hkind with rfl | rfl | rfl | rfl <;>
  · unfold cancelNode
    simp only [hrt, Option.bind_some, hactive, mapState_eq, heq,
      transitionStep_eq hd' hrt', setCurrentAction, emit_state, emit_emit,
      setNode_commit, setNode_nextSeq,
      modifyStep_eq (get?_commit_self hrt _),
      commit_setNode, pushAction_eq, one_mul, mul_one]
    cases force <;>
    · simp only [nodeEvent, hnote.1.state, containment, containmentId, RuntimeState.actionId,
        setNode_nextSeq]
      rfl

theorem cancelNode_move (hd : r.state.definition.steps.get? id = some d)
    (hrt : r.state.steps.get? id = some rt) :
    ∃ next m t, CancelMove reason deadline force index r.state id next m t ∧
      cancelNode r reason deadline force index id rt.state.kind = (next, r.emit m t) := by
  have hcontain : ∀ kind, rt.state.kind = kind →
      (kind = .starting ∨ kind = .running ∨ kind = .capturingOutputs ∨ kind = .recovering) →
      ∃ next m t, CancelMove reason deadline force index r.state id next m t ∧
        cancelNode r reason deadline force index id kind = (next, r.emit m t) := by
    intro kind hkind hactive
    have hstate : rt.RunsTarget ∨ ∃ round activity, rt.state = .recovering round activity := by
      unfold StepRuntimeState.RunsTarget
      cases hstate : rt.state <;> rw [hstate] at hkind <;> subst hkind <;>
        simp [StepState.kind] at hactive ⊢
    cases hinvocation : rt.activeInvocation with
    | none =>
      refine ⟨index, 1, r.state, .pass hrt (Or.inr (Or.inl ⟨?_, hinvocation⟩)), ?_⟩
      · rcases hstate with (h | h | h) | ⟨round, activity, h⟩ <;> rw [h] <;> rfl
      · rcases hactive with rfl | rfl | rfl | rfl <;> simp [cancelNode, hrt, hinvocation]
    | some =>
      exact ⟨_, _, _, .contain hd hrt hstate hinvocation,
        cancelNode_active reason deadline force index hactive hd hrt hinvocation⟩
  cases hstate : rt.state with
  | pending =>
    refine ⟨_, _, _, .drop hd hrt hstate, ?_⟩
    simp only [StepState.kind, cancelNode, transitionStep_eq hd hrt]
    rfl
  | starting | running | capturingOutputs | recovering =>
    exact hcontain _ (by rw [hstate]) (by simp [StepState.kind])
  | cancelling detail =>
    cases force with
    | none =>
      refine ⟨_, _, _, .pass hrt (Or.inr (Or.inr ⟨⟨detail, hstate⟩, rfl⟩)), ?_⟩
      simp [StepState.kind, cancelNode]
    | some =>
      refine ⟨_, _, _, .escalate hrt hstate rfl, ?_⟩
      simp only [StepState.kind, cancelNode, setCurrentAction, mapState_eq,
        emit_state, modifyStep_eq hrt,
        get?_setNode_self hrt, Option.bind_some]
      cases hactive : rt.activeInvocation with
      | none => rfl
      | some =>
        simp only [pushAction_eq, emit_emit, one_mul, emit_state]
        rfl
  | succeeded | inherited | failed | blocked | skipped | notRun | cancelled =>
    refine ⟨_, _, _, .pass hrt (Or.inl (by rw [hstate]; rfl)), ?_⟩
    simp [StepState.kind, cancelNode]

theorem foldl_cancelNode (nodes : List (String × StepStateKind))
    (hnodup : (nodes.map Prod.fst).Nodup) (r : Reduction O C V D)
    (hnodes : ∀ node ∈ nodes, ∃ d rt, r.state.definition.steps.get? node.1 = some d ∧
      r.state.steps.get? node.1 = some rt ∧ rt.state.kind = node.2) :
    ∃ next m t, CancelRun reason deadline force index (nodes.map Prod.fst) r.state m t ∧
      nodes.foldl (fun (acc : Nat × Reduction O C V D) node =>
        cancelNode acc.2 reason deadline force acc.1 node.1 node.2) (index, r) =
        (next, r.emit m t) := by
  induction nodes generalizing index r with
  | nil => exact ⟨index, 1, r.state, .nil index r.state, by simp⟩
  | cons node nodes ih =>
    obtain ⟨d, rt, hd, hrt, hkind⟩ := hnodes node List.mem_cons_self
    obtain ⟨next, m, t, hmove, heq⟩ := cancelNode_move reason deadline force index hd hrt
    rw [hkind] at heq
    obtain ⟨hhead, htail⟩ := List.nodup_cons.mp hnodup
    -- the rest of the nodes is as it was before the first one was cancelled
    have hrest : ∀ node' ∈ nodes, ∃ d rt,
        (r.emit m t).state.definition.steps.get? node'.1 = some d ∧
        (r.emit m t).state.steps.get? node'.1 = some rt ∧ rt.state.kind = node'.2 := by
      intro node' hmem
      have hne : node'.1 ≠ node.1 := fun heq =>
        hhead (heq ▸ List.mem_map_of_mem hmem)
      rw [emit_state, hmove.definition, hmove.get?_of_ne hne]
      exact hnodes node' (List.mem_cons_of_mem _ hmem)
    obtain ⟨last, n, u, hrun, hfold⟩ := ih next htail (r.emit m t) hrest
    refine ⟨last, m * n, u, .cons hmove hrun, ?_⟩
    rw [List.foldl_cons, heq, hfold, emit_emit]

/-- Cancelling a role goes through its nodes. -/
theorem cancelNodes_run (role : WorkflowNodeRole) (r : Reduction O C V D) :
    ∃ m t, CancelRun reason deadline force 1 ((nodesOfRole r.state role).map Prod.fst) r.state m t ∧
      cancelNodes r role reason deadline force = r.emit m t := by
  obtain ⟨next, m, t, hrun, heq⟩ := foldl_cancelNode reason deadline force 1
    (nodesOfRole r.state role) (nodesOfRole_nodup r.state role) r (by
      intro node hmem
      obtain ⟨d, rt, hd, -, hrt, hkind⟩ := nodesOfRole_spec.mp hmem
      exact ⟨d, rt, hd, hrt, hkind⟩)
  exact ⟨m, t, hrun, by rw [cancelNodes, heq]⟩

end Cancellation

section Applying

variable [ConditionOutput V] [NodeFailureSource C] {occurrence : Occurrence O C V D}
  {rt' : StepRuntimeState C V}

/-- One reduction leads to another by steps of the reducer, with a view for every node. -/
def Applies (o : Option (Occurrence O C V D)) (r r' : Reduction O C V D) : Prop :=
  ∃ m t, LabelledRun (ReducerStep o) r.state m t ∧ r' = r.emit m t ∧ Views o r.state m t

theorem Applies.reaches (h : Applies o r r') : Reaches o r r' := by
  obtain ⟨m, t, hrun, heq, -⟩ := h
  exact ⟨m, t, hrun, heq⟩

theorem Applies.refl (r : Reduction O C V D) : Applies o r r :=
  ⟨1, r.state, .refl _, r.emit_self.symm, .frame rfl (fun _ h => nomatch h) (fun _ => rfl)⟩

section

variable (hd : r.state.definition.steps.get? id = some d) (hrt : r.state.steps.get? id = some rt)
include hd hrt

theorem Applies.node {actions : List (RequestedAction O C V D)}
    (hmove : NodeMove (some occurrence) r.state id d rt rt' actions)
    (h : OccurrenceMove occurrence r.state id d rt rt' (startsOf id actions)) :
    Applies (some occurrence) r
      (r.emit ⟨[nodeEvent r.state id d rt rt'], actions⟩ (r.state.commit id rt')) :=
  ⟨_, _, .single (.node hd hrt hmove), rfl, .commit hd hrt (fun _ => rfl)
    (fun j => by rw [movesOf_nodeEvent, movesOf_nil, List.append_nil])
    (fun _ hj => hmove.startsOf_of_ne hj) (.moved rfl h)⟩

theorem Applies.issue {issue : PrimaryIssue} (hmove : IssueMove r.state id d rt rt' issue)
    (h : OccurrenceMove occurrence r.state id d rt rt' []) :
    Applies (some occurrence) r (issueResult r id d rt rt' issue) := by
  unfold issueResult
  split
  · rename_i hsilent
    refine ⟨_, _, .single (.issue hd hrt hmove hsilent), rfl, .commit hd hrt (fun _ => rfl)
      (fun j => ?_) (fun _ _ => rfl) (.moved rfl h)⟩
    rw [movesOf_nodeEvent, movesOf_nil, List.append_nil]
  · rename_i workflow htarget
    refine ⟨_, _, .single (.primaryIssue hd hrt hmove htarget), rfl, .commit hd hrt
      (fun _ => by rw [RuntimeState.advance_steps]) (fun j => ?_) (fun _ _ => rfl) (.moved rfl h)⟩
    rw [movesOf_nodeEvent, movesOf_workflow, List.append_nil]

end

variable {phase : FailurePhase} {cause : C} {detail : FailureDetail}

omit [ConditionOutput V] in
theorem TargetFails.runsTarget (h : TargetFails occurrence id rt phase cause detail) :
    rt.RunsTarget := by
  obtain ⟨action, hreported, -⟩ := h.reported
  have hstate := h.state
  refine runsTarget_of_kind ?_
  cases occurrence <;> cases hreported <;> simp [hstate, FailurePhase.failsFrom]

section

variable (hd : r.state.definition.steps.get? id = some d) (hrt : r.state.steps.get? id = some rt)
include hd hrt

/-- Either a round is opened and the node goes on, or at most a round that leads nowhere
was recorded. -/
theorem activateRecoveryRound_applies (hfails : TargetFails occurrence id rt phase cause detail) :
    (activateRecoveryRound r id phase detail cause).1 = true ∧
        Applies (some occurrence) r (activateRecoveryRound r id phase detail cause).2 ∨
      (activateRecoveryRound r id phase detail cause).1 = false ∧
        ∃ rt₁, (rt₁ = rt ∧ openRound rt phase detail cause = none ∨
            ∃ recovery record, openRound rt phase detail cause = some (recovery, record) ∧
              next record.failedExecution.executionNumber = none ∧ rt₁ = rt.opened record) ∧
          (activateRecoveryRound r id phase detail cause).2 =
            r.emit 1 (r.state.setNode id rt₁) := by
  unfold activateRecoveryRound
  simp only [hrt, Option.bind_some]
  cases hopen : openRound rt phase detail cause with
  | none =>
    refine Or.inr ⟨rfl, rt, Or.inl ⟨rfl, rfl⟩, ?_⟩
    rw [setNode_self hrt, emit_self]
  | some opened =>
    obtain ⟨recovery, record⟩ := opened
    have hopens : rt.Opens recovery record := ⟨phase, detail, cause, hopen⟩
    have hrt' := get?_setNode_self hrt (rt.opened record)
    have hd' : (r.emit 1 (r.state.setNode id (rt.opened record))).state.definition.steps.get? id =
      some d := hd
    have hpush : modifyRecovery r.state id (fun recovery =>
        { recovery with rounds := recovery.rounds ++ [record] }) =
        r.state.setNode id (rt.opened record) := modifyRecovery_eq hrt _
    simp only [mapState_eq, hpush]
    cases hkind : recovery.handlerKind with
    | some kind =>
      have hrecovery : (rt.opened record).recovery =
          some { recovery with rounds := recovery.rounds ++ [record] } :=
        congrArg (Option.map _) hopens.spec.1
      have heq := startRecoveryHandler_eq hd' hrt' hrecovery (by simp) record.number kind
      refine Or.inl ⟨congrArg Prod.fst heq, ?_⟩
      refine (congrArg Prod.snd heq).symm ▸ ?_
      have happlies := Applies.node hd hrt (.recover kind record hfails.runsTarget hopens hkind)
        (by simpa [startsOf, startOf] using OccurrenceMove.recover kind hfails hopen hkind)
      simpa [nodeEvent, hopens.openedRound.1.state] using happlies
    | none =>
      cases hnext : next record.failedExecution.executionNumber with
      | none => exact Or.inr ⟨rfl, _, Or.inr ⟨recovery, record, rfl, hnext, rfl⟩, rfl⟩
      | some n =>
        refine Or.inl ?_
        simp only [hd', true_and]
        rw [authorizeTarget_eq hd' hrt', startResult_annotated hopens.openedRound.1.state,
          emit_state,
          (setNode_settledAlike hrt hopens.openedRound.1.state).resolvedActionInputs]
        exact .node hd hrt (.retry n record hfails.runsTarget hopens hkind hnext)
          (by simpa [startsOf, startOf] using OccurrenceMove.retry n hfails hopen hkind hnext)

theorem settleTargetFailure_applies {rt₁ : StepRuntimeState C V}
    (hfinal : rt.FinalFailure d detail rt₁)
    (h : OccurrenceMove occurrence r.state id d rt (rt₁.settled (.failed detail)) []) :
    Applies (some occurrence) r
      (settleTargetFailure (r.emit 1 (r.state.setNode id rt₁)) id d detail) := by
  rw [settleTargetFailure_eq (r := r.emit 1 (r.state.setNode id rt₁)) hd
    (get?_setNode_self hrt rt₁), issueResult_annotated hfinal.sameButRecovery.state]
  exact .issue hd hrt (.fail detail rt₁ hfinal) h

end

theorem applyStepFailure_applies (hnodes : NodesMatch r.state) (phase : FailurePhase)
    (hreported : reportedFailure occurrence = some (id, action, phase, cause)) :
    Applies (some occurrence) r (applyStepFailure r id action phase.failsFrom phase cause).2 := by
  unfold applyStepFailure
  cases haccepts : stepAccepts r.state id phase.failsFrom action with
  | false => exact .refl r
  | true =>
    obtain ⟨rt, hrt, hstate, haction⟩ := stepAccepts_iff.mp haccepts
    obtain ⟨d, hd⟩ := hnodes.definition hrt
    simp only [hd, Bool.not_true, Bool.false_eq_true, if_false]
    cases hdetail : NodeFailureSource.nodeFailureDetail cause phase with
    | error => exact .refl r
    | ok detail =>
      dsimp only
      have hfails : TargetFails occurrence id rt phase cause detail :=
        ⟨⟨action, hreported, haction⟩, hstate, hdetail⟩
      -- what is left to do when no round was activated
      have hsettle : ∀ rt₁, (rt₁ = rt ∧
            (d.role = .step → openRound rt phase detail cause = none) ∨
          ∃ recovery record, openRound rt phase detail cause = some (recovery, record) ∧
            next record.failedExecution.executionNumber = none ∧
            rt₁ = rt.opened record) → Applies (some occurrence) r (settleTargetFailure
          (if d.recovery.isSome then
            (r.emit 1 (r.state.setNode id rt₁)).mapState (markRecoveryExhausted · id)
          else r.emit 1 (r.state.setNode id rt₁)) id d detail) := by
        intro rt₁ hopened
        have hmove := OccurrenceMove.exhaust (s := r.state) (d := d) rt₁ hfails hopened
        have hfinal := StepRuntimeState.FinalFailure.target (d := d) detail rt₁
          hfails.runsTarget (hopened.imp And.left fun ⟨recovery, record, hopen, hnext, heq⟩ =>
            ⟨recovery, record, ⟨phase, detail, cause, hopen⟩, hnext, heq⟩)
        split_ifs at hmove hfinal ⊢
        · rw [mapState_eq, emit_state,
            markRecoveryExhausted_eq (get?_setNode_self hrt rt₁),
            emit_emit, setNode_setNode, one_mul]
          exact settleTargetFailure_applies hd hrt hfinal hmove
        · exact settleTargetFailure_applies hd hrt hfinal hmove
      by_cases hrole : d.role = .step
      · simp only [hrole, if_true]
        rcases activateRecoveryRound_applies hd hrt hfails with
          ⟨htrue, happlies⟩ | ⟨hfalse, rt₁, hopened, heq⟩
        · simpa only [htrue, if_true] using happlies
        · simpa only [hfalse, heq, Bool.false_eq_true, if_false] using
            hsettle rt₁ (hopened.imp_left (fun h => ⟨h.1, fun _ => h.2⟩))
      · simp only [hrole, if_false, Bool.false_eq_true]
        have h := hsettle rt (Or.inl ⟨rfl, fun h => absurd h hrole⟩)
        rwa [setNode_self hrt, emit_self] at h

section Handlers

variable {round : RecoveryRoundNumber}

/-- A handler that reports when its node has no further execution leaves a note. -/
theorem Applies.lost (hrt : r.state.steps.get? id = some rt) (hnote : rt.Annotated rt')
    (hstate : ∃ round activity, rt.state = .recovering round activity)
    (hlost : rt.latestFailure.bind (fun failure => next failure.executionNumber) = none) :
    Applies o r (r.emit 1 (r.state.setNode id rt')) := by
  refine ⟨1, _, .single (.note hrt hnote hstate hlost), rfl, fun j dj rtj _ hrtj => ?_⟩
  exact RuntimeState.setNode_view (P := fun a b => NodeReduction o _ j dj a b [] []) hrt hrtj
    (fun _ => .lost hnote hstate hlost) (fun _ => .same)

theorem settleLatestTargetFailure_applies {outcome : RecoveryHandlerOutcome C}
    {disposition : RecoveryTerminalDisposition}
    (hd : r.state.definition.steps.get? id = some d) (hrt : r.state.steps.get? id = some rt)
    (hstate : ∃ round activity, rt.state = .recovering round activity)
    (hmove : ∀ failure, rt.latestFailure = some failure → rt.FinalFailure d failure.detail
        ((rt.noteOutcome round outcome).noteDisposition disposition) ∧
      OccurrenceMove occurrence r.state id d rt
        (((rt.noteOutcome round outcome).noteDisposition disposition).settled
          (.failed failure.detail)) []) :
    Applies (some occurrence) r (settleLatestTargetFailure ((r.mapState (setHandlerOutcome · id
      round outcome)).mapState (setRecoveryDisposition · id disposition)) id) := by
  have hnoted := get?_setNode_self hrt (rt.noteOutcome round outcome)
  have hnote := rt.noteEnded_annotated round outcome disposition
  simp only [mapState_eq, setHandlerOutcome_eq hrt, emit_state,
    setRecoveryDisposition_eq hnoted, emit_emit, setNode_setNode, one_mul]
  have hlatest : ((rt.noteOutcome round outcome).noteDisposition disposition).latestFailure =
      rt.latestFailure := by
    rw [StepRuntimeState.latestFailure_noteDisposition, StepRuntimeState.latestFailure_noteOutcome]
  generalize (rt.noteOutcome round outcome).noteDisposition disposition = rt' at *
  have hd' : (r.emit 1 (r.state.setNode id rt')).state.definition.steps.get? id = some d := hd
  unfold settleLatestTargetFailure
  rw [hd', emit_state, latestTargetFailure_eq (get?_setNode_self hrt rt'), hlatest]
  cases hfailure : rt.latestFailure with
  | none => exact .lost hrt hnote hstate (by rw [hfailure]; rfl)
  | some failure =>
    obtain ⟨hfinal, hmove⟩ := hmove failure hfailure
    exact settleTargetFailure_applies hd hrt hfinal hmove

variable (hnodes : NodesMatch r.state)
include hnodes

theorem applyHandlerDecision_applies {decision : RecoveryDecision}
    (ho : occurrence = .recoveryHandlerCompleted id round action decision) :
    Applies (some occurrence) r (applyHandlerDecision r id round action decision).2 := by
  unfold applyHandlerDecision
  cases haccepts : handlerAccepts r.state id round .running action with
  | false => exact .refl r
  | true =>
    obtain ⟨rt, hrt, haction, hactive, hstate⟩ := handlerAccepts_iff.mp haccepts
    obtain ⟨d, hd⟩ := hnodes.definition hrt
    simp only [Bool.not_true, Bool.false_eq_true, if_false]
    cases hdecision : decision.kind with
    | recheck =>
      have hnote := rt.noteOutcome_annotated round (.recheck decision.summary decision.reason)
      have hrt' := get?_setNode_self hrt
        (rt.noteOutcome round (.recheck decision.summary decision.reason))
      have hd' : (r.emit 1 (r.state.setNode id (rt.noteOutcome round
        (.recheck decision.summary decision.reason)))).state.definition.steps.get? id = some d := hd
      simp only [mapState_eq, setHandlerOutcome_eq hrt, emit_state,
        latestTargetFailure_eq hrt', StepRuntimeState.latestFailure_noteOutcome,
        RuntimeState.setNode_definition, hd]
      cases hnext : rt.latestFailure.bind (fun failure =>
          next failure.executionNumber) with
      | some n =>
        dsimp only
        rw [authorizeTarget_eq hd' hrt', startResult_annotated hnote.1.state,
          (setNode_settledAlike hrt hnote.1.state).resolvedActionInputs]
        have hmove := OccurrenceMove.recheck (s := r.state) (d := d) n round action decision
          ho hdecision haction hactive hstate hnext
        exact .node hd hrt (.recheck n round _ _ hstate hnext)
          (by simpa [startsOf, startOf] using hmove)
      | none => exact .lost hrt hnote ⟨round, .running, hstate⟩ hnext
    | gaveUp =>
      exact settleLatestTargetFailure_applies hd hrt ⟨round, .running, hstate⟩
        (fun failure hfailure => ⟨.gaveUp round _ _ failure hstate hfailure,
          .gaveUp round action decision failure ho hdecision haction hactive hstate hfailure⟩)

theorem applyHandlerFailure_applies
    {activity : RecoveryHandlerActivity} {phase : RecoveryHandlerFailurePhase} {cause : C}
    (ho : reportedHandlerFailure occurrence = some (id, round, action, activity, phase, cause)) :
    Applies (some occurrence) r (applyHandlerFailure r id round action activity phase cause).2 := by
  unfold applyHandlerFailure
  cases haccepts : handlerAccepts r.state id round activity action with
  | false => exact .refl r
  | true =>
    obtain ⟨rt, hrt, haction, hactive, hstate⟩ := handlerAccepts_iff.mp haccepts
    obtain ⟨d, hd⟩ := hnodes.definition hrt
    simp only [Bool.not_true, Bool.false_eq_true, if_false]
    exact settleLatestTargetFailure_applies hd hrt ⟨round, activity, hstate⟩
      (fun failure hfailure => ⟨.handlerFailed round activity phase cause failure hstate hfailure,
        .handlerFailed failure ho haction hactive hstate hfailure⟩)

theorem applyHandlerStarted_applies (ho : occurrence = .recoveryHandlerStarted id round action) :
    Applies (some occurrence) r (applyHandlerStarted r id round action).2 := by
  unfold applyHandlerStarted
  cases haccepts : handlerAccepts r.state id round .starting action with
  | false => exact .refl r
  | true =>
    obtain ⟨rt, hrt, haction, hactive, hstate⟩ := handlerAccepts_iff.mp haccepts
    obtain ⟨d, hd⟩ := hnodes.definition hrt
    have hnote := rt.noteOutcome_annotated round .running
    have heq := setHandlerOutcome_eq hrt round .running
    have hmove := Applies.node hd hrt (.handlerRunning round hstate)
      (.handlerRunning round action ho haction hactive hstate)
    generalize rt.noteOutcome round .running = rt' at hnote heq hmove
    have hd' : (r.emit 1 (r.state.setNode id rt')).state.definition.steps.get? id = some d := hd
    have hsame : ({ rt' with state := .recovering round .running, currentAction := some action } :
        StepRuntimeState C V) = { rt' with state := .recovering round .running } := by
      rw [← haction, ← hnote.1.currentAction]
    simp only [Bool.not_true, Bool.false_eq_true, if_false, mapState_eq, heq,
      transitionStep_eq hd' (get?_setNode_self hrt rt'), emit_state,
      emit_emit, setNode_commit, one_mul, hsame]
    simpa [nodeEvent, hnote.1.state] using hmove

end Handlers

theorem applyOutputsCaptured_applies (hnodes : NodesMatch r.state) {outputs : OutputSet V}
    (ho : occurrence = .outputsCaptured id action outputs) :
    Applies (some occurrence) r (applyOutputsCaptured r id action outputs).2 := by
  unfold applyOutputsCaptured
  split_ifs with h
  · exact .refl r
  simp only [Bool.or_eq_true, Bool.not_eq_true', not_or, Bool.not_eq_false] at h
  obtain ⟨rt, hrt, hkind, haction⟩ := stepAccepts_iff.mp h.1
  obtain ⟨d, hd⟩ := hnodes.definition hrt
  have hstate : rt.state = .capturingOutputs := by
    cases hstate : rt.state <;> simp_all [StepState.kind]
  have hdeclared : outputs.keys = d.declaredOutputs := by
    simpa [outputsMatchDeclaration, hd] using h.2
  dsimp only
  rw [succeed_eq hd hrt outputs]
  exact .node hd hrt (.succeed action outputs hstate haction (congrArg some ho) hdeclared)
    (.succeed action outputs ho haction hstate hdeclared)

theorem applyQuiesced_applies (hnodes : NodesMatch r.state)
    (ho : occurrence = .stepQuiesced id action) :
    Applies (some occurrence) r (applyQuiesced r id action).2 := by
  unfold applyQuiesced
  split
  · exact .refl r
  · rename_i reason active hcancelling
    obtain ⟨rt, hrt, hstate, haction, hactive⟩ := cancellingStep_eq_some_iff.mp hcancelling
    obtain ⟨d, hd⟩ := hnodes.definition hrt
    have hnote := rt.noteCancelled_annotated active
    have heq := markRecoveryCancelled_eq hrt active
    have hmove := Applies.node hd hrt (.quiesce ⟨reason⟩
      (if action.isForceAbort then .forceAbort else reason) active hstate hactive)
      (.quiesce action reason active ho hstate haction hactive)
    generalize rt.noteCancelled active = rt' at hnote heq hmove
    have hd' : (r.emit 1 (r.state.setNode id rt')).state.definition.steps.get? id = some d := hd
    simp only [mapState_eq, heq,
      transitionStep_eq hd' (get?_setNode_self hrt rt'), emit_state,
      emit_emit, setNode_commit, clearActiveInvocation,
      modifyStep_eq (get?_commit_self hrt _),
      commit_setNode, one_mul, mul_one]
    simpa [nodeEvent, hnote.1.state, StepRuntimeState.settled] using hmove

variable [ProvisionalStepResources O]

/-- A release adds nothing to what is seen from a node. -/
theorem Applies.release (h : Applies o r r') (action : ActionId) (provisional : O) :
    Applies o r (releaseResources r' action provisional) := by
  unfold releaseResources
  split_ifs
  · obtain ⟨m, t, hrun, rfl, hviews⟩ := h
    rw [pushAction_eq, emit_emit, emit_state]
    refine ⟨_, _, hrun.tail (.release action provisional), rfl, fun id d rt hd hrt => ?_⟩
    have hquiet : startsOf id ([⟨action, .releaseStepResources provisional⟩] :
        List (RequestedAction O C V D)) = [] := rfl
    rw [Emission.mul_events, Emission.mul_actions, List.append_nil, startsOf_append, hquiet,
      List.append_nil]
    exact hviews id d rt hd hrt
  · exact h

theorem applyExecutionCompleted_applies (hnodes : NodesMatch r.state) {provisional : O}
    (ho : occurrence = .stepExecutionCompleted id action provisional) :
    Applies (some occurrence) r (applyExecutionCompleted r id action provisional).2 := by
  unfold applyExecutionCompleted
  cases haccepts : stepAccepts r.state id .running action with
  | false => exact (Applies.refl r).release action provisional
  | true =>
    obtain ⟨rt, hrt, hkind, haction⟩ := stepAccepts_iff.mp haccepts
    obtain ⟨d, hd⟩ := hnodes.definition hrt
    have hstate : rt.state = .running := by
      cases hstate : rt.state <;> simp_all [StepState.kind]
    have hdeclares : ∀ rt', stepDeclaresOutputs (r.state.commit id rt') id =
        !d.declaredOutputs.isEmpty := by
      intro rt'
      simp [stepDeclaresOutputs, hd]
    simp only [Bool.not_true, Bool.false_eq_true, if_false, transitionStep_eq hd hrt,
      emit_state, hdeclares]
    cases hdeclared : d.declaredOutputs with
    | cons output outputs =>
      have hne : d.declaredOutputs ≠ [] := by simp [hdeclared]
      simp only [List.isEmpty_cons, Bool.not_false, if_true, setCurrentAction,
        mapState_eq, emit_state, emit_emit,
        modifyStep_eq (get?_commit_self hrt _),
        commit_setNode, pushAction_eq, mul_one]
      exact .node hd hrt (.capture provisional hstate hne)
        (.capture action provisional ho haction hstate hne)
    | nil =>
      have hd' : (r.emit ⟨[nodeEvent r.state id d rt (rt.dropped .capturingOutputs)], []⟩
          (r.state.commit id (rt.dropped .capturingOutputs))).state.definition.steps.get? id =
          some d := by
        simpa using hd
      have heq := succeed_eq hd' (get?_commit_self hrt _) .empty
      simp only [List.isEmpty_nil, Bool.not_true, Bool.false_eq_true, if_false]
      refine Applies.release ?_ _ provisional
      refine heq.symm ▸ ?_
      rw [StepRuntimeState.noteExecution_dropped, emit_emit]
      refine ⟨_, _, .single (.complete hd hrt hstate hdeclared), rfl,
        .commit hd hrt (fun j => ?_) (fun j => ?_) (fun _ _ => rfl) (.completed hstate hdeclared)⟩
      · by_cases hj : j = id
        · subst hj
          rw [get?_commit_self hrt]
          exact get?_commit_self (get?_commit_self hrt _) _
        · exact ((get?_commit_of_ne hj _).trans
            (get?_commit_of_ne hj _)).trans
            (get?_commit_of_ne hj _).symm
      · simp only [movesOf_nodeEvent, movesOf_nil, List.append_nil, hstate]
        split_ifs <;> rfl

end Applying

section Acceptances

variable [ConditionOutput V]

/-- One reduction leads to another by one step that cancels nodes, if at all. -/
def Cancels (o : Option (Occurrence O C V D)) (r r' : Reduction O C V D) : Prop :=
  ∃ m t, (m = 1 ∧ t = r.state ∨ ReducerStep o r.state m t) ∧ r' = r.emit m t ∧
    Cancelling r.state m t

theorem Cancels.refl (r : Reduction O C V D) : Cancels o r r :=
  ⟨1, r.state, Or.inl ⟨rfl, rfl⟩, r.emit_self.symm, .quiet rfl⟩

theorem Cancels.run (h : Cancels o r r') : ∃ m t, LabelledRun (ReducerStep o) r.state m t ∧
    r' = r.emit m t ∧ Cancelling r.state m t := by
  obtain ⟨m, t, hstep, heq, hcancelling⟩ := h
  refine ⟨m, t, ?_, heq, hcancelling⟩
  rcases hstep with ⟨rfl, rfl⟩ | hstep
  · exact .refl _
  · exact .single hstep

theorem Cancels.applies [NodeFailureSource C] (h : Cancels o r r') : Applies o r r' := by
  obtain ⟨m, t, hrun, heq, hcancelling⟩ := h.run
  exact ⟨m, t, hrun, heq, hcancelling.views⟩

/-- A gate is closed with an event, and the nodes of its phase are cancelled. -/
theorem cancelNodes_cancels {deadline : D} {role : WorkflowNodeRole}
    {event : TransitionSequence → TransitionEvent D} {closed : RuntimeState C V D}
    (hevent : ∀ sequence, isStepEvent (event sequence) = false)
    (hdefinition : closed.definition = r.state.definition) (hsteps : closed.steps = r.state.steps)
    (hsequence : closed.lastTransitionSequence = r.state.lastTransitionSequence)
    (hstep : ∀ m t, CancelRun reason deadline force 1 ((nodesOfRole r.state role).map Prod.fst)
      closed.tick m t → ReducerStep o r.state (⟨[event r.state.nextSeq], []⟩ * m) t) :
    Cancels o r (cancelNodes (acceptEvent (r.emit 1 closed) event) role reason deadline force) := by
  rw [acceptEvent_eq]
  obtain ⟨m, t, hrun, heq⟩ := cancelNodes_run reason deadline force role
    ((r.emit 1 closed).emit ⟨[event closed.nextSeq], []⟩ closed.tick)
  have hnodes : nodesOfRole closed.tick role = nodesOfRole r.state role := by
    simp only [nodesOfRole, tick_definition, tick_steps, hdefinition, hsteps]
  have hseq : closed.nextSeq = r.state.nextSeq := by
    simp only [nextSeq_eq, hdefinition, hsequence]
  rw [emit_state, hnodes] at hrun
  rw [emit_state, heq, emit_emit, emit_emit, one_mul, hseq]
  exact ⟨_, _, Or.inr (hstep m t hrun), rfl, .run (hevent _)
    ((tick_steps _).trans hsteps) (nodesOfRole_nodup _ role) hrun⟩

variable (cancellation : CancellationRequest D)

theorem applyOrdinaryCancellation_cancels (operation : Option CancellationOperationId)
    (hrequested : ordinaryCancellable r.state.workflow = true → Requested r.state o) :
    Cancels o r (applyOrdinaryCancellation r cancellation operation).2 := by
  unfold applyOrdinaryCancellation
  split
  · exact .refl r
  · rename_i gate hgate hworkflow
    have hopen : ordinaryCancellable r.state.workflow = true := by
      rw [hworkflow]
      cases gate with
      | cancelling => exact absurd rfl (hgate _ _)
      | _ => rfl
    simp only [recordOperation_eq, mapState_eq, emit_state, emit_emit, one_mul]
    exact cancelNodes_cancels (fun _ => rfl) rfl rfl rfl
      (fun m t hrun => .cancelOrdinary hworkflow hgate hrun (hrequested hopen))
  · exact .refl r

theorem applyFinalizationCancellation_cancels {trigger : FinalizationTrigger}
    {issue : Option PrimaryIssue} (hworkflow : r.state.workflow = .finalizing trigger .open issue)
    (cancellation : CancellationRequest D) (operation : Option CancellationOperationId)
    (hrequested : Requested r.state o) :
    Cancels o r (applyFinalizationCancellation r cancellation operation).2 := by
  simp only [applyFinalizationCancellation, recordOperation_eq, mapState_eq,
    emit_state, emit_emit, hworkflow, one_mul]
  exact cancelNodes_cancels (fun _ => rfl) rfl rfl rfl
    (fun m t hrun => .cancelFinalization hworkflow hrun hrequested)

theorem applyCancellation_cancels (operation : Option CancellationOperationId)
    (hrequested : gracefullyCancellable r.state.workflow = true → Requested r.state o) :
    Cancels o r (applyCancellation r cancellation operation).2 := by
  unfold applyCancellation
  split
  · rename_i gate hworkflow
    refine applyOrdinaryCancellation_cancels cancellation operation fun hopen => hrequested ?_
    rw [hworkflow] at hopen ⊢
    exact hopen
  · rename_i trigger issue hworkflow
    refine applyFinalizationCancellation_cancels hworkflow cancellation operation (hrequested ?_)
    rw [hworkflow]
    rfl
  all_goals exact .refl r

theorem recordOperation_cancels (operation : CancellationOperationId) :
    Cancels o r (recordOperation r (some operation)) := by
  rw [recordOperation_eq]
  exact ⟨_, _, Or.inr (.operation operation), rfl, .quiet rfl⟩

theorem applyOrdinaryOnlyCancellation_cancels (operation : CancellationOperationId)
    (hrequested : cancellation.reason ≠ .forceAbort → staleOperation r.state operation = false →
      ordinaryCancellable r.state.workflow = true → Requested r.state o) :
    Cancels o r (applyOrdinaryOnlyCancellation r cancellation operation).2 := by
  unfold applyOrdinaryOnlyCancellation
  split_ifs with hrefused
  · exact .refl r
  · simp only [Bool.or_eq_true, decide_eq_true_eq, not_or, Bool.not_eq_true] at hrefused
    split
    · exact applyOrdinaryCancellation_cancels cancellation (some operation)
        (hrequested hrefused.1 hrefused.2)
    · exact recordOperation_cancels operation
    · exact recordOperation_cancels operation

theorem applyForceAbort_cancels (operation : CancellationOperationId) (deadline : D)
    (hrequested : r.state.forceAbort.isNone = true → r.state.workflow.isTerminal = false →
      Requested r.state o) :
    Cancels o r (applyForceAbort r operation deadline).2 := by
  unfold applyForceAbort
  split_ifs with hforced
  · exact .refl r
  have hfirst : r.state.forceAbort = none := by simpa using hforced
  rw [hfirst] at hrequested
  split
  · rename_i gate hworkflow
    rw [hworkflow] at hrequested
    simp only [mapState_eq]
    exact cancelNodes_cancels (fun _ => rfl) rfl rfl rfl
      (fun m t hrun => .forceOrdinary hworkflow hfirst hrun (hrequested rfl rfl))
  · rename_i trigger gate issue hworkflow
    rw [hworkflow] at hrequested
    simp only [mapState_eq]
    exact cancelNodes_cancels (fun _ => rfl) rfl rfl rfl
      (fun m t hrun => .forceFinalization hworkflow hfirst hrun (hrequested rfl rfl))
  · exact .refl r

theorem applyInitialCancellation_cancels (r : Reduction O C V D)
    (cancellation : Option (InitialCancellation D)) (hrequested : Requested r.state o) :
    Cancels o r (applyInitialCancellation r cancellation) := by
  match cancellation with
  | none => exact .refl r
  | some (.graceful request operation) =>
    exact applyCancellation_cancels request operation (fun _ => hrequested)
  | some (.forceAbort operation deadline) =>
    exact applyForceAbort_cancels operation deadline (fun _ _ => hrequested)

theorem applyInitialCancellation_reaches (r : Reduction O C V D)
    (cancellation : Option (InitialCancellation D)) (hrequested : Requested r.state o) :
    Reaches o r (applyInitialCancellation r cancellation) := by
  obtain ⟨m, t, hrun, heq, -⟩ := (applyInitialCancellation_cancels r cancellation hrequested).run
  exact ⟨m, t, hrun, heq⟩

end Acceptances

variable [ConditionOutput V] [ProvisionalStepResources O] [NodeFailureSource C]

/-- The occurrences that ask for a cancellation or an abort. -/
def isRequest : Occurrence O C V D → Bool
  | .cancellationOperationRequested _ _ _ | .ordinaryCancellationOperationRequested _ _ _
  | .forceAbortRequested _ _ => true
  | _ => false

/-- A request is applied in one step. -/
theorem applyOccurrence_cancels {occurrence : Occurrence O C V D}
    (h : isRequest occurrence = true) :
    Cancels (some occurrence) r (applyOccurrence r occurrence).2 := by
  unfold applyOccurrence
  cases occurrence with
  | cancellationOperationRequested operation reason deadline =>
    dsimp only
    split_ifs with hrefused
    · exact .refl r
    simp only [Bool.or_eq_true, decide_eq_true_eq, not_or, Bool.not_eq_true] at hrefused
    refine applyCancellation_cancels ⟨reason, deadline⟩ (some operation) fun hopen _ heq => ?_
    cases heq
    simp [closesGate, hrefused, hopen]
  | ordinaryCancellationOperationRequested operation reason deadline =>
    refine applyOrdinaryOnlyCancellation_cancels ⟨reason, deadline⟩ operation
      fun hreason hfresh hopen _ heq => ?_
    cases heq
    simp [closesGate, hreason, hfresh, hopen]
  | forceAbortRequested operation deadline =>
    dsimp only
    split_ifs with hstale
    · exact .refl r
    refine applyForceAbort_cancels operation deadline fun hfirst hphase _ heq => ?_
    cases heq
    simp [closesGate, hstale, hfirst, hphase]
  | _ => cases h

/-- What applying an occurrence does, seen from every node. -/
theorem applyOccurrence_applies (hnodes : NodesMatch r.state) (occurrence : Occurrence O C V D) :
    Applies (some occurrence) r (applyOccurrence r occurrence).2 := by
  cases occurrence with
  | stepStarted step action =>
    unfold applyOccurrence
    dsimp only
    cases haccepts : stepAccepts r.state step .starting action with
    | false => exact .refl r
    | true =>
      obtain ⟨rt, hrt, hkind, haction⟩ := stepAccepts_iff.mp haccepts
      obtain ⟨d, hd⟩ := hnodes.definition hrt
      have hstate : rt.state = .starting := by
        cases hstate : rt.state <;> simp_all [StepState.kind]
      simp only [Bool.not_true, Bool.false_eq_true, if_false, transitionStep_eq hd hrt]
      rw [← haction]
      exact .node hd hrt (.run hstate) (.run action rfl haction hstate)
  | stepStartFailed => exact applyStepFailure_applies hnodes .start rfl
  | stepExecutionCompleted =>
    exact applyExecutionCompleted_applies hnodes rfl
  | stepExecutionFailed =>
    exact applyStepFailure_applies hnodes .execution rfl
  | outputsCaptured => exact applyOutputsCaptured_applies hnodes rfl
  | outputCaptureFailed =>
    exact applyStepFailure_applies hnodes .outputCapture rfl
  | recoveryHandlerStarted => exact applyHandlerStarted_applies hnodes rfl
  | recoveryHandlerStartFailed step round action cause
  | recoveryHandlerExecutionFailed step round action cause =>
    exact applyHandlerFailure_applies hnodes rfl
  | recoveryHandlerCompleted =>
    exact applyHandlerDecision_applies hnodes rfl
  | cancellationOperationRequested | ordinaryCancellationOperationRequested
  | forceAbortRequested => exact (applyOccurrence_cancels rfl).applies
  | stepQuiesced => exact applyQuiesced_applies hnodes rfl

/-- Applying an occurrence is a run of reducer steps. -/
theorem applyOccurrence_reaches (hnodes : NodesMatch r.state) (occurrence : Occurrence O C V D) :
    Reaches (some occurrence) r (applyOccurrence r occurrence).2 :=
  (applyOccurrence_applies hnodes occurrence).reaches

end ScherzoCloud.Workflow
