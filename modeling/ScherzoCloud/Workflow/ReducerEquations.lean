import ScherzoCloud.Workflow.ReadinessLemmas
import ScherzoCloud.Workflow.ReducerSteps

/-!
# Equations of the reducer

The functions of the reducer in one form: the state after, with the events and
actions that were appended (`Reduction.emit`).  An update of a node that is
spread over several assignments becomes one `commit`, and a change of the
recovery record an exact note on it (`setHandlerOutcome_eq` and the like).
-/

namespace ScherzoCloud.Workflow

open RuntimeState (commit_workflow nextSeq tick)
open Collections

variable {O C V D : Type} {s : RuntimeState C V D} {id : String} {rt rt' : StepRuntimeState C V}
  {d : RuntimeStep} {detail : FailureDetail} {r : Reduction O C V D}
  {recovery : StepRecoveryState C} {record : RecoveryRoundRecord C} {action : ActionId}

section Equations

namespace RuntimeState

theorem nextSeq_eq (s : RuntimeState C V D) :
    s.nextSeq = if s.definition.maximumTransitions <
        TransitionSequence.next s.lastTransitionSequence then s.lastTransitionSequence
      else TransitionSequence.next s.lastTransitionSequence := by
  unfold nextSeq nextSequence
  dsimp only
  split <;> rfl

theorem tick_eq (s : RuntimeState C V D) :
    s.tick = { s with
      lastTransitionSequence := s.nextSeq
      transitionCapacityExceeded := s.transitionCapacityExceeded ||
        decide (s.definition.maximumTransitions <
          TransitionSequence.next s.lastTransitionSequence) } := by
  rw [nextSeq_eq]
  unfold tick nextSequence
  dsimp only
  split <;> simp_all

section

variable (hrt : s.steps.get? id = some rt)
include hrt

/-- A step is updated through the value it has. -/
theorem modifyStep_eq (f : StepRuntimeState C V → StepRuntimeState C V) :
    modifyStep s id f = s.setNode id (f rt) := by
  simp only [setNode, modifyStep, BTreeMap.modify_eq_of_get? hrt f]

theorem setNode_self : s.setNode id rt = s := by
  have hid : s.steps.modify id (fun _ => rt) = s.steps := by
    rw [← BTreeMap.modify_eq_of_get? hrt (fun a => a)]
    simp [BTreeMap.modify]
  simp only [setNode, modifyStep, hid]

theorem get?_setNode_self
    (rt' : StepRuntimeState C V) : (s.setNode id rt').steps.get? id = some rt' := by
  simp [setNode_get?, hrt]

theorem get?_commit_self
    (rt' : StepRuntimeState C V) : (s.commit id rt').steps.get? id = some rt' := by
  simp [commit_get?, hrt]

end

theorem get?_commit_of_ne {j : String} (h : j ≠ id) (rt' : StepRuntimeState C V) :
    (s.commit id rt').steps.get? j = s.steps.get? j := by
  simp [commit_get?, h]

section Frame

variable {j : String} {rtj rt' : StepRuntimeState C V}
  {P : StepRuntimeState C V → StepRuntimeState C V → Prop}

variable (hrt : s.steps.get? id = some rt) (hrtj : s.steps.get? j = some rtj)
  (hself : j = id → P rt rt') (hother : j ≠ id → P rtj rtj)
include hrt hrtj hself hother

/-- Any node, seen across the replacement of one. -/
theorem setNode_view : ∃ rtj', (s.setNode id rt').steps.get? j = some rtj' ∧ P rtj rtj' := by
  by_cases hj : j = id
  · subst hj
    cases hrt.symm.trans hrtj
    exact ⟨rt', get?_setNode_self hrt rt', hself rfl⟩
  · exact ⟨rtj, by simp [setNode_get?, hj, hrtj], hother hj⟩

theorem commit_view : ∃ rtj', (s.commit id rt').steps.get? j = some rtj' ∧ P rtj rtj' := by
  rw [← s.tick_steps] at hrt hrtj
  exact setNode_view hrt hrtj hself hother

end Frame

variable (s id) (rt' : StepRuntimeState C V)

@[simp] theorem setNode_nextSeq : (s.setNode id rt).nextSeq = s.nextSeq := by
  simp only [nextSeq_eq]
  rfl

@[simp] theorem setNode_actionId : (s.setNode id rt).actionId = s.actionId := by
  simp [actionId]

@[simp] theorem setNode_setNode : (s.setNode id rt).setNode id rt' = s.setNode id rt' := by
  simp [setNode, modifyStep]

@[simp] theorem setNode_tick : (s.setNode id rt).tick = s.tick.setNode id rt := by
  rw [tick_eq, tick_eq, setNode_nextSeq]
  rfl

@[simp] theorem setNode_commit : (s.setNode id rt).commit id rt' = s.commit id rt' := by
  simp [commit]

@[simp] theorem commit_setNode : (s.commit id rt).setNode id rt' = s.commit id rt' := by
  simp [commit]

end RuntimeState

namespace Reduction

variable (r : Reduction O C V D)

/-- The reduction with a new state and more events and actions. -/
def emit (m : Emission O C V D) (t : RuntimeState C V D) : Reduction O C V D :=
  ⟨t, r.events ++ m.events, r.actions ++ m.actions, r.occurrenceAccepted⟩

@[simp] theorem emit_state (m : Emission O C V D)
    (t : RuntimeState C V D) : (r.emit m t).state = t := rfl

@[simp] theorem emit_emit (m n : Emission O C V D)
    (t u : RuntimeState C V D) : (r.emit m t).emit n u = r.emit (m * n) u := by
  simp [emit]

@[simp] theorem emit_self : r.emit 1 r.state = r := by
  simp [emit]

theorem mapState_eq (f : RuntimeState C V D → RuntimeState C V D) :
    r.mapState f = r.emit 1 (f r.state) := by
  simp [emit, mapState]

theorem pushAction_eq (id : ActionId) (action : Action O C V D) :
    r.pushAction id action = r.emit ⟨[], [⟨id, action⟩]⟩ r.state := by
  simp [emit, pushAction]

end Reduction

variable (r : Reduction O C V D)

theorem transitionWorkflow_eq (target : WorkflowState D) :
    transitionWorkflow r target = (r.state.nextSeq,
      r.emit ⟨[.workflow r.state.nextSeq r.state.workflow target], []⟩
        (r.state.advance target)) := by
  simp [transitionWorkflow, Reduction.emit, RuntimeState.advance, nextSeq,
    tick]

theorem acceptEvent_eq (event : TransitionSequence → TransitionEvent D) :
    acceptEvent r event = r.emit ⟨[event r.state.nextSeq], []⟩ r.state.tick := by
  simp [acceptEvent, Reduction.emit, nextSeq, tick]

variable {r}

theorem transitionStep_eq (hd : r.state.definition.steps.get? id = some d)
    (hrt : r.state.steps.get? id = some rt) (target : StepState V) (action : Option ActionId) :
    transitionStep r id target action = (r.state.nextSeq,
      r.emit ⟨[nodeEvent r.state id d rt { rt with state := target, currentAction := action }], []⟩
        (r.state.commit id { rt with state := target, currentAction := action })) := by
  have hd' : r.state.tick.definition.steps.get? id = some d := by simpa using hd
  have hrt' : r.state.tick.steps.get? id = some rt := by simpa using hrt
  have hmodify := RuntimeState.modifyStep_eq hrt'
    (fun runtime => { runtime with state := target, currentAction := action })
  unfold tick at hd' hrt' hmodify
  simp only [transitionStep, hd', hrt', hmodify, Option.map_some, Option.getD_some]
  simp [Reduction.emit, nodeEvent, nextSeq, RuntimeState.commit, tick]

end Equations

open Reduction (emit_state emit_emit mapState_eq pushAction_eq)
open RuntimeState (modifyStep_eq setNode_commit setNode_nextSeq setNode_self commit_setNode
  get?_commit_self get?_setNode_self actionId)
section Annotations

namespace StepRuntimeState

variable {rt'' : StepRuntimeState C V}

theorem SameButRecovery.trans (h : rt.SameButRecovery rt') (h' : rt'.SameButRecovery rt'') :
    rt.SameButRecovery rt'' := by
  unfold SameButRecovery at *
  rw [h', h]

theorem Annotated.refl (rt : StepRuntimeState C V) : rt.Annotated rt := ⟨rfl, rfl⟩

theorem Annotated.trans (h : rt.Annotated rt') (h' : rt'.Annotated rt'') : rt.Annotated rt'' :=
  ⟨h.1.trans h'.1, h'.2.trans h.2⟩

variable (h : rt.SameButRecovery rt')
include h

theorem SameButRecovery.state : rt'.state = rt.state := by
  rw [h]

theorem SameButRecovery.currentAction : rt'.currentAction = rt.currentAction := by
  rw [h]

theorem SameButRecovery.activeInvocation : rt'.activeInvocation = rt.activeInvocation := by
  rw [h]

end StepRuntimeState

theorem modifyLastRound_length (f : RecoveryRoundRecord C → RecoveryRoundRecord C)
    (recovery : StepRecoveryState C) :
    (modifyLastRound f recovery).rounds.length = recovery.rounds.length := by
  unfold modifyLastRound
  cases hlast : recovery.rounds.getLast? with
  | none => rfl
  | some =>
    have hne : recovery.rounds ≠ [] := by
      intro hnil
      simp [hnil] at hlast
    have hpos := List.length_pos_iff.mpr hne
    simp only [List.length_append, List.length_dropLast, List.length_singleton]
    omega

theorem modifyLastRound_keeps (f : RecoveryRoundRecord C → RecoveryRoundRecord C)
    (recovery : StepRecoveryState C) :
    (modifyLastRound f recovery).configuredRounds = recovery.configuredRounds ∧
      (modifyLastRound f recovery).handlerKind = recovery.handlerKind ∧
      (modifyLastRound f recovery).rounds.length = recovery.rounds.length := by
  refine ⟨?_, ?_, modifyLastRound_length f recovery⟩ <;>
  · unfold modifyLastRound
    split <;> rfl

namespace StepRuntimeState

variable (rt : StepRuntimeState C V)

theorem editRecovery_annotated {f : StepRecoveryState C → StepRecoveryState C}
    (hf : ∀ r, (f r).configuredRounds = r.configuredRounds ∧
      (f r).handlerKind = r.handlerKind ∧ (f r).rounds.length = r.rounds.length) :
    rt.Annotated (rt.editRecovery f) := by
  refine ⟨rfl, ?_⟩
  unfold editRecovery
  cases rt.recovery with
  | none => rfl
  | some r =>
    obtain ⟨hconfigured, hkind, hlength⟩ := hf r
    simp [hconfigured, hkind, hlength]

variable (round : RecoveryRoundNumber)

theorem noteOutcome_annotated
    (outcome : RecoveryHandlerOutcome C) : rt.Annotated (rt.noteOutcome round outcome) :=
  rt.editRecovery_annotated (modifyLastRound_keeps _)

theorem noteDisposition_annotated (disposition : RecoveryTerminalDisposition) :
    rt.Annotated (rt.noteDisposition disposition) :=
  rt.editRecovery_annotated (fun _ => ⟨rfl, rfl, rfl⟩)

theorem noteEnded_annotated (outcome : RecoveryHandlerOutcome C)
    (disposition : RecoveryTerminalDisposition) :
    rt.Annotated ((rt.noteOutcome round outcome).noteDisposition disposition) :=
  (rt.noteOutcome_annotated round outcome).trans (noteDisposition_annotated _ disposition)

theorem noteExecution_annotated
    (disposition : TargetExecutionNumber → RecoveryTerminalDisposition) :
    rt.Annotated (rt.noteExecution disposition) := by
  unfold noteExecution
  split
  · exact .refl rt
  · exact rt.noteDisposition_annotated _

/-- A node that was only dropped into another state succeeds in the same way. -/
theorem noteExecution_dropped (disposition : TargetExecutionNumber → RecoveryTerminalDisposition)
    (state state' : StepState V) :
    ((rt.dropped state).noteExecution disposition).settled state' =
      (rt.noteExecution disposition).settled state' := by
  have hexecution : (rt.dropped state).activatedExecution = rt.activatedExecution := rfl
  unfold noteExecution
  rw [hexecution]
  cases rt.activatedExecution <;> rfl

theorem noteHandlerCancelled_annotated (active : ActiveStepInvocation) :
    rt.Annotated (rt.noteHandlerCancelled active) := by
  cases active with
  | target => exact .refl rt
  | recoveryHandler round => exact rt.noteOutcome_annotated round .cancelled

theorem noteCancelled_annotated (active : ActiveStepInvocation) :
    rt.Annotated (rt.noteCancelled active) := by
  unfold noteCancelled
  split
  · exact .refl rt
  · exact rt.noteDisposition_annotated _

/-- Noting an outcome keeps the failure that opened the round. -/
theorem latestFailure_noteOutcome (outcome : RecoveryHandlerOutcome C) :
    (rt.noteOutcome round outcome).latestFailure = rt.latestFailure := by
  unfold latestFailure lastRound noteOutcome editRecovery modifyLastRound
  cases rt.recovery with
  | none => rfl
  | some recovery =>
    cases hlast : recovery.rounds.getLast? with
    | none => simp [hlast]
    | some =>
      simp only [Option.map_some, Option.bind_some, hlast, List.getLast?_append_cons,
        List.getLast?_singleton, RecoveryRoundRecord.noteOutcome]
      split <;> rfl

theorem latestFailure_noteDisposition (disposition : RecoveryTerminalDisposition) :
    (rt.noteDisposition disposition).latestFailure = rt.latestFailure := by
  unfold latestFailure lastRound noteDisposition editRecovery
  cases rt.recovery <;> rfl

variable {rt}

theorem FinalFailure.active (h : rt.FinalFailure d detail rt') :
    rt.RunsTarget ∨ ∃ round activity, rt.state = .recovering round activity := by
  cases h with
  | target _ _ htarget => exact Or.inl htarget
  | gaveUp round _ _ _ hstate => exact Or.inr ⟨round, .running, hstate⟩
  | handlerFailed round activity _ _ _ hstate => exact Or.inr ⟨round, activity, hstate⟩

theorem FinalFailure.sameButRecovery (h : rt.FinalFailure d detail rt') :
    rt.SameButRecovery rt' := by
  cases h with
  | target _ rt₁ _ hopened =>
    have hsame : rt.SameButRecovery rt₁ := by
      rcases hopened with rfl | ⟨_, _, -, -, rfl⟩ <;> rfl
    split_ifs
    · exact hsame.trans (rt₁.noteExecution_annotated _).1
    · exact hsame
  | gaveUp | handlerFailed =>
    exact (rt.noteEnded_annotated _ _ _).1

end StepRuntimeState

variable (hrt : s.steps.get? id = some rt)
include hrt

theorem modifyRecovery_eq (f : StepRecoveryState C → StepRecoveryState C) :
    modifyRecovery s id f = s.setNode id (rt.editRecovery f) :=
  modifyStep_eq hrt _

theorem setHandlerOutcome_eq (round : RecoveryRoundNumber) (outcome : RecoveryHandlerOutcome C) :
    setHandlerOutcome s id round outcome = s.setNode id (rt.noteOutcome round outcome) :=
  modifyRecovery_eq hrt _

theorem setRecoveryDisposition_eq (disposition : RecoveryTerminalDisposition) :
    setRecoveryDisposition s id disposition = s.setNode id (rt.noteDisposition disposition) :=
  modifyRecovery_eq hrt _

theorem latestTargetFailure_eq : latestTargetFailure s id = rt.latestFailure := by
  unfold latestTargetFailure StepRuntimeState.latestFailure StepRuntimeState.lastRound
  rw [hrt]
  cases hrecovery : rt.recovery with
  | none => simp [hrecovery]
  | some recovery => cases hlast : recovery.rounds.getLast? <;> simp [hrecovery, hlast]

theorem activatedRecoveryExecution_eq :
    activatedRecoveryExecution s id = rt.activatedExecution := by
  unfold activatedRecoveryExecution StepRuntimeState.activatedExecution StepRuntimeState.lastRound
  rw [hrt]
  cases hrecovery : rt.recovery with
  | none => simp [hrecovery]
  | some recovery =>
    cases hlast : recovery.rounds.getLast? with
    | none => simp [hrecovery, List.getLast?_eq_none_iff.mp hlast]
    | some =>
      have hne : recovery.rounds ≠ [] := by
        intro hnil
        simp [hnil] at hlast
      simp [hrecovery, hlast, hne]

theorem markRecoveryExhausted_eq :
    markRecoveryExhausted s id = s.setNode id (rt.noteExecution .exhausted) := by
  unfold markRecoveryExhausted StepRuntimeState.noteExecution
  rw [activatedRecoveryExecution_eq hrt]
  cases rt.activatedExecution with
  | none => exact (setNode_self hrt).symm
  | some => exact setRecoveryDisposition_eq hrt _

theorem markRecovered_eq : markRecovered s id = s.setNode id (rt.noteExecution .recovered) := by
  unfold markRecovered StepRuntimeState.noteExecution
  rw [activatedRecoveryExecution_eq hrt]
  cases rt.activatedExecution with
  | none => exact (setNode_self hrt).symm
  | some => exact setRecoveryDisposition_eq hrt _

theorem markHandlerCancelled_eq (active : ActiveStepInvocation) :
    markHandlerCancelled s id active = s.setNode id (rt.noteHandlerCancelled active) := by
  cases active with
  | target => exact (setNode_self hrt).symm
  | recoveryHandler round => exact setHandlerOutcome_eq hrt round .cancelled

theorem markRecoveryCancelled_eq (active : ActiveStepInvocation) :
    markRecoveryCancelled s id active = s.setNode id (rt.noteCancelled active) := by
  unfold markRecoveryCancelled StepRuntimeState.noteCancelled StepRuntimeState.lastRound
  rw [hrt, Option.bind_some]
  cases rt.recovery.bind (fun recovery => recovery.rounds.getLast?) with
  | none => exact (setNode_self hrt).symm
  | some => exact setRecoveryDisposition_eq hrt _

end Annotations

section Issues

/-- A node has settled with an issue, which closed the gate if it was the first one. -/
def issueResult (r : Reduction O C V D) (id : String) (d : RuntimeStep)
    (rt rt' : StepRuntimeState C V) (issue : PrimaryIssue) :
    Reduction O C V D :=
  match issueTarget r.state.workflow d issue with
  | none => r.emit ⟨[nodeEvent r.state id d rt rt'], []⟩ (r.state.commit id rt')
  | some workflow =>
    r.emit ⟨[nodeEvent r.state id d rt rt',
        .workflow (r.state.commit id rt').nextSeq r.state.workflow workflow], []⟩
      ((r.state.commit id rt').advance workflow)

theorem commitRequiredIssue_eq (r : Reduction O C V D) (d : RuntimeStep) (issue : PrimaryIssue) :
    commitRequiredIssue r d issue =
      match issueTarget r.state.workflow d issue with
      | none => r
      | some workflow => (transitionWorkflow r workflow).2 := by
  unfold commitRequiredIssue issueTarget closeOrdinaryGateForFailure selectFinalizerPrimaryIssue
  by_cases hpolicy : d.failurePolicy = .required
  · simp only [hpolicy, if_true]
    cases d.role <;> dsimp only <;> split <;> simp_all
  · simp [hpolicy]

theorem commitRequiredIssue_emit (r : Reduction O C V D) (issue : PrimaryIssue) :
    commitRequiredIssue
        (r.emit ⟨[nodeEvent r.state id d rt rt'], []⟩ (r.state.commit id rt')) d issue =
      issueResult r id d rt rt' issue := by
  rw [commitRequiredIssue_eq, issueResult]
  simp only [emit_state, commit_workflow]
  split
  · rfl
  · rw [transitionWorkflow_eq]
    simp only [emit_state, emit_emit, commit_workflow]
    rfl

theorem issueResult_annotated (hnote : rt'.state = rt.state)
    (rt'' : StepRuntimeState C V) (issue : PrimaryIssue) :
    issueResult (r.emit 1 (r.state.setNode id rt')) id d rt' rt'' issue =
      issueResult r id d rt rt'' issue := by
  have hevent : nodeEvent (r.state.setNode id rt') id d rt' rt'' =
      nodeEvent r.state id d rt rt'' := by
    simp [nodeEvent, hnote]
  simp only [issueResult, emit_state, RuntimeState.setNode_workflow,
    setNode_commit, emit_emit, one_mul, hevent]

variable (hd : r.state.definition.steps.get? id = some d) (hrt : r.state.steps.get? id = some rt)
include hd hrt

theorem settleTargetFailure_eq (detail : FailureDetail) :
    settleTargetFailure r id d detail =
      issueResult r id d rt (rt.settled (.failed detail)) (.ofFailed ⟨id, d.role⟩ detail) := by
  rw [← commitRequiredIssue_emit]
  unfold settleTargetFailure
  simp only [transitionStep_eq hd hrt, mapState_eq, emit_state,
    emit_emit, mul_one, clearActiveInvocation,
    modifyStep_eq (get?_commit_self hrt _), commit_setNode]
  rfl

theorem settleBlocked_eq (detail : BlockedDetail) :
    settleBlocked r id detail =
      issueResult r id d rt (rt.dropped (.blocked detail)) (.ofBlocked ⟨id, d.role⟩ detail) := by
  rw [← commitRequiredIssue_emit]
  simp only [settleBlocked, hd, transitionStep_eq hd hrt]
  rfl

end Issues

theorem setNode_settledAlike (hrt : s.steps.get? id = some rt) (hstate : rt'.state = rt.state) :
    SettledAlike s (s.setNode id rt') where
  definition := rfl
  finalization := rfl
  nodes j := by
    rw [RuntimeState.setNode_get?]
    split_ifs with hj
    · subst hj
      exact Or.inr ⟨rt, rt', hrt, by simp [hrt], Or.inl hstate⟩
    · exact .refl _

theorem commit_settledAlike (hrt : s.steps.get? id = some rt) (hstate : rt.state.isTerminal = false)
    (hstate' : rt'.state.isTerminal = false) : SettledAlike s (s.commit id rt') where
  definition := s.commit_definition id rt'
  finalization := s.commit_finalization id rt'
  nodes j := by
    rw [RuntimeState.commit_get?]
    split_ifs with hj
    · subst hj
      exact Or.inr ⟨rt, rt', hrt, by simp [hrt], Or.inr ⟨hstate, hstate'⟩⟩
    · exact .refl _

/-- The reduction in which a target execution was requested. -/
def startResult (r : Reduction O C V D) (id : String) (d : RuntimeStep)
    (rt rt' : StepRuntimeState C V) (n : TargetExecutionNumber)
    (inputs : BTreeMap String (ActionInput V)) :
    Reduction O C V D :=
  r.emit ⟨[nodeEvent r.state id d rt (rt'.started r.state.actionId n)],
      [⟨r.state.actionId, .startStep id n inputs⟩]⟩
    (r.state.commit id (rt'.started r.state.actionId n))

theorem authorizeTarget_eq (hd : r.state.definition.steps.get? id = some d)
    (hrt : r.state.steps.get? id = some rt) (n : TargetExecutionNumber)
    (inputs : BTreeMap String (ActionInput V)) :
    authorizeTarget r id n inputs = startResult r id d rt rt n inputs := by
  have hrt' := get?_setNode_self hrt { rt with targetExecution := some n }
  have hd' : (r.emit 1 (r.state.setNode id
      { rt with targetExecution := some n })).state.definition.steps.get? id = some d := hd
  unfold authorizeTarget
  simp only [mapState_eq, modifyStep_eq hrt, setCurrentAction,
    emit_state, emit_emit, transitionStep_eq hd' hrt',
    setNode_commit, setNode_nextSeq,
    modifyStep_eq (get?_commit_self hrt _),
    commit_setNode, pushAction_eq, one_mul, mul_one]
  simp only [startResult, StepRuntimeState.started, actionId, nodeEvent,
    setNode_nextSeq]
  rfl

theorem startResult_annotated (hstate : rt'.state = rt.state) (n : TargetExecutionNumber)
    (inputs : BTreeMap String (ActionInput V)) :
    startResult (r.emit 1 (r.state.setNode id rt')) id d rt' rt' n inputs =
      startResult r id d rt rt' n inputs := by
  simp only [startResult, nodeEvent, hstate, emit_state, emit_emit,
    setNode_commit, setNode_nextSeq, RuntimeState.setNode_actionId,
    one_mul]

theorem startRecoveryHandler_eq (hd : r.state.definition.steps.get? id = some d)
    (hrt : r.state.steps.get? id = some rt) (hrecovery : rt.recovery = some recovery)
    (hrounds : recovery.rounds ≠ []) (round : RecoveryRoundNumber) (kind : RecoveryHandlerKind) :
    startRecoveryHandler r id round kind =
      (true, r.emit
        ⟨[nodeEvent r.state id d rt (rt.handlerStarted r.state.actionId round kind)],
          [⟨r.state.actionId, .startRecoveryHandler id round kind
            (((rt.handlerStarted r.state.actionId round kind).recovery.map
              StepRecoveryState.rounds).getD [])⟩]⟩
        (r.state.commit id (rt.handlerStarted r.state.actionId round kind))) := by
  obtain ⟨state, action, execution, invocation, active, recovery', passed⟩ := rt
  obtain rfl : recovery' = some recovery := hrecovery
  have hrt' := get?_setNode_self hrt
    ⟨state, action, execution, invocation, some (.recoveryHandler round), some recovery, passed⟩
  have hd' : (r.emit 1 (r.state.setNode id ⟨state, action, execution, invocation,
      some (.recoveryHandler round), some recovery, passed⟩)).state.definition.steps.get? id =
        some d := hd
  obtain ⟨last, hlast⟩ : ∃ last, recovery.rounds.getLast? = some last :=
    ⟨_, List.getLast?_eq_some_getLast hrounds⟩
  unfold startRecoveryHandler
  simp only [mapState_eq, modifyStep_eq hrt, emit_state,
    emit_emit, transitionStep_eq hd' hrt', setNode_commit,
    setNode_nextSeq, get?_commit_self hrt, Option.bind_some,
    hlast, modifyRecovery, setCurrentAction,
    modifyStep_eq (get?_commit_self hrt _),
    commit_setNode, Option.map_some, Option.getD_some, pushAction_eq,
    one_mul, mul_one]
  simp only [StepRuntimeState.handlerStarted, StepRuntimeState.editRecovery, Option.map_some,
    Option.getD_some, nodeEvent, actionId, setNode_nextSeq]
  rfl

/-- A round is opened for the current execution, and only if one is left. -/
theorem StepRuntimeState.Opens.spec (h : rt.Opens recovery record) :
    rt.recovery = some recovery ∧ recovery.rounds.length < recovery.configuredRounds ∧
      record.number = recovery.rounds.length + 1 ∧
      record.failedExecution.executionNumber = recovery.rounds.length + 1 ∧
      rt.targetExecution = some (recovery.rounds.length + 1) := by
  obtain ⟨phase, detail, cause, h⟩ := h
  unfold openRound at h
  simp only [Option.bind_eq_bind, Option.bind_eq_some_iff] at h
  obtain ⟨n, hexecution, invocation, -, recovery', hrecovery, h⟩ := h
  split_ifs at h with hleft hbyte hround
  simp only [Option.some.injEq, Prod.mk.injEq] at h
  obtain ⟨rfl, rfl⟩ := h
  have hround' : recovery'.rounds.length + 1 = n := not_not.mp hround
  exact ⟨hrecovery, not_le.mp hleft, rfl, hround'.symm, hround' ▸ hexecution⟩

theorem StepRuntimeState.Opens.openedRound (h : rt.Opens recovery record) :
    rt.OpenedRound (rt.opened record) := by
  obtain ⟨hrecovery, hleft, -⟩ := h.spec
  refine ⟨rfl, recovery, _, hrecovery, congrArg (Option.map _) hrecovery, hleft, rfl, rfl, ?_⟩
  simp

/-- A node whose outputs are there succeeds. -/
theorem succeed_eq (hd : r.state.definition.steps.get? id = some d)
    (hrt : r.state.steps.get? id = some rt) (outputs : OutputSet V) :
    (transitionStep (r.mapState (markRecovered · id)) id (.succeeded outputs) none).2.mapState
        (clearActiveInvocation · id) =
      r.emit ⟨[nodeEvent r.state id d rt
          ((rt.noteExecution .recovered).settled (.succeeded outputs))], []⟩
        (r.state.commit id ((rt.noteExecution .recovered).settled (.succeeded outputs))) := by
  have hnote := rt.noteExecution_annotated .recovered
  generalize hrt' : rt.noteExecution .recovered = rt' at hnote
  have hd' : (r.emit 1 (r.state.setNode id rt')).state.definition.steps.get? id = some d := hd
  simp only [mapState_eq, markRecovered_eq hrt, hrt',
    transitionStep_eq hd' (get?_setNode_self hrt rt'), emit_state,
    emit_emit, setNode_commit, clearActiveInvocation,
    modifyStep_eq (get?_commit_self hrt _),
    commit_setNode, one_mul, mul_one]
  simp [nodeEvent, hnote.1.state, StepRuntimeState.settled]

/-- The nodes of a state are those of its definition. -/
def NodesMatch (s : RuntimeState C V D) : Prop :=
  s.steps.keys = s.definition.steps.keys

theorem NodesMatch.definition (h : NodesMatch s) (hrt : s.steps.get? id = some rt) :
    ∃ d, s.definition.steps.get? id = some d := by
  rw [← BTreeMap.mem_keys_iff, ← h]
  exact BTreeMap.mem_keys_iff.mpr ⟨rt, hrt⟩

theorem NodesMatch.runtime (h : NodesMatch s) (hd : s.definition.steps.get? id = some d) :
    ∃ rt, s.steps.get? id = some rt := by
  rw [← BTreeMap.mem_keys_iff, h]
  exact BTreeMap.mem_keys_iff.mpr ⟨d, hd⟩

theorem stepAccepts_iff {kind : StepStateKind} : stepAccepts s id kind action = true ↔
      ∃ rt, s.steps.get? id = some rt ∧ rt.state.kind = kind ∧ rt.currentAction = some action := by
  simp [stepAccepts, Option.any_eq_true]

theorem handlerAccepts_iff {round : RecoveryRoundNumber} {activity : RecoveryHandlerActivity} :
    handlerAccepts s id round activity action = true ↔
      ∃ rt, s.steps.get? id = some rt ∧ rt.currentAction = some action ∧
        rt.activeInvocation = some (.recoveryHandler round) ∧
        rt.state = .recovering round activity := by
  simp only [handlerAccepts, Option.any_eq_true, Bool.and_eq_true, decide_eq_true_eq]
  constructor
  · rintro ⟨rt, hrt, ⟨haction, hactive⟩, hstate⟩
    refine ⟨rt, hrt, haction, hactive, ?_⟩
    split at hstate
    · rename_i activeRound handler heq
      simp only [Bool.and_eq_true, decide_eq_true_eq] at hstate
      rw [heq, hstate.1, hstate.2]
    · cases hstate
  · rintro ⟨rt, hrt, haction, hactive, hstate⟩
    exact ⟨rt, hrt, ⟨haction, hactive⟩, by simp [hstate]⟩

theorem cancellingStep_eq_some_iff {reason : CancellationReason} {active : ActiveStepInvocation} :
    cancellingStep s id action = some (reason, active) ↔
      ∃ rt, s.steps.get? id = some rt ∧ rt.state = .cancelling ⟨reason⟩ ∧
        rt.currentAction = some action ∧ rt.activeInvocation = some active := by
  unfold cancellingStep
  cases hrt : s.steps.get? id with
  | none => simp
  | some rt =>
    cases hstate : rt.state <;> simp [hstate]
    rename_i detail
    constructor
    · rintro ⟨haction, hactive, rfl⟩
      exact ⟨rfl, haction, hactive⟩
    · rintro ⟨rfl, haction, hactive⟩
      exact ⟨haction, hactive, rfl⟩

theorem runsTarget_of_kind (h : rt.state.kind = .starting ∨ rt.state.kind = .running ∨
      rt.state.kind = .capturingOutputs) : rt.RunsTarget := by
  unfold StepRuntimeState.RunsTarget
  cases hstate : rt.state <;> simp_all [StepState.kind]

variable {t : RuntimeState C V D}

theorem activeCount_congr (h : t.steps = s.steps) : activeCount t = activeCount s := by
  rw [activeCount, h, activeCount]

/-- Only the slot of an updated node changes hands. -/
theorem activeCount_setNode (hrt : s.steps.get? id = some rt) (rt' : StepRuntimeState C V) :
    activeCount (s.setNode id rt') + (if rt.state.isActive then 1 else 0) =
      activeCount s + (if rt'.state.isActive then 1 else 0) := by
  unfold activeCount
  rw [← List.countP_eq_length_filter, ← List.countP_eq_length_filter]
  exact BTreeMap.countP_values_modify hrt (·.state.isActive) rt'

theorem activeCount_commit (hrt : s.steps.get? id = some rt) (rt' : StepRuntimeState C V) :
    activeCount (s.commit id rt') + (if rt.state.isActive then 1 else 0) =
      activeCount s + (if rt'.state.isActive then 1 else 0) := by
  have hset := activeCount_setNode (s := s.tick) (by simpa using hrt) rt'
  rwa [activeCount_congr (RuntimeState.tick_steps s)] at hset

theorem recordOperation_eq (r : Reduction O C V D) (operation : Option CancellationOperationId) :
    recordOperation r operation = r.emit 1 { r.state with
      lastCancellationOperation := operation.or r.state.lastCancellationOperation } := by
  cases operation with
  | none => exact r.emit_self.symm
  | some => simp [recordOperation, mapState_eq]

theorem nodesOfRole_spec {role : WorkflowNodeRole} {node : String × StepStateKind} :
    node ∈ nodesOfRole s role ↔ ∃ d rt, s.definition.steps.get? node.1 = some d ∧
      d.role = role ∧ s.steps.get? node.1 = some rt ∧ rt.state.kind = node.2 := by
  obtain ⟨id, kind⟩ := node
  simp only [nodesOfRole, List.mem_filterMap]
  constructor
  · rintro ⟨⟨id', d⟩, hmem, heq⟩
    split_ifs at heq with hrole
    obtain ⟨rt, hrt, hnode⟩ := Option.map_eq_some_iff.mp heq
    simp only [Prod.mk.injEq] at hnode
    obtain ⟨rfl, rfl⟩ := hnode
    exact ⟨d, rt, BTreeMap.get?_eq_some_iff.mpr hmem, hrole, hrt, rfl⟩
  · rintro ⟨d, rt, hd, hrole, hrt, hkind⟩
    exact ⟨(id, d), BTreeMap.get?_eq_some_iff.mp hd, by simp [hrole, hrt, hkind]⟩

theorem nodesOfRole_nodup (s : RuntimeState C V D) (role : WorkflowNodeRole) :
    ((nodesOfRole s role).map Prod.fst).Nodup := by
  have hsub : ((nodesOfRole s role).map Prod.fst).Sublist s.definition.steps.keys := by
    unfold nodesOfRole BTreeMap.keys
    induction s.definition.steps.entries with
    | nil => simp
    | cons e entries ih =>
      rw [List.filterMap_cons]
      split
      · exact ih.trans (List.sublist_cons_self _ _)
      · rename_i node heq
        have hfst : node.1 = e.1 := by
          split_ifs at heq
          obtain ⟨rt, -, rfl⟩ := Option.map_eq_some_iff.mp heq
          rfl
        rw [List.map_cons, List.map_cons, hfst]
        exact ih.cons_cons _
  exact hsub.nodup (BTreeMap.keys_nodup _)

end ScherzoCloud.Workflow
