import ScherzoCloud.Workflow.Acceptances
import Mathlib.Algebra.Order.BigOperators.Group.List

/-!
# How many transitions a run commits

Every node has an effort: an upper bound for the transitions it can still
commit, from its state and its unused recovery rounds.  A step pays for its
events with effort.  The exception is an accepted cancellation: it takes one
transition of its own, and when a node is granted only four transitions per
execution, containing a node that captures its outputs costs more than the
effort that is left to it.
-/

namespace ScherzoCloud.Workflow

open Collections

variable {O C V D : Type} {rt rt' : StepRuntimeState C V} {w index : Nat}
  {o : Option (Occurrence O C V D)} {s t : RuntimeState C V D} {id : String} {d : RuntimeStep}
  {reason : CancellationReason} {deadline : D} {force : Option CancellationOperationId}
  {ids : List String} {m : Emission O C V D}

section Effort

variable (w : Nat)

/-- Transitions that unused recovery rounds can add.  A round without a handler
repeats the target; a handler adds its own start and run. -/
def roundsEffort (recovery : Option (StepRecoveryState C)) : Nat :=
  (recovery.map (fun r =>
    (r.configuredRounds - r.rounds.length) * (if r.handlerKind.isSome then 5 else w))).getD 0

/-- Transitions that a node can still commit, when `w` are granted for an execution. -/
def effort (rt : StepRuntimeState C V) : Nat :=
  match rt.state with
  | .pending => w + roundsEffort w rt.recovery
  | .starting => w - 1 + roundsEffort w rt.recovery
  | .running => w - 2 + roundsEffort w rt.recovery
  | .capturingOutputs => w - 3 + roundsEffort w rt.recovery
  | .recovering _ .starting => w + 1 + roundsEffort w rt.recovery
  | .recovering _ .running => w + roundsEffort w rt.recovery
  | .cancelling _ => 1
  | .succeeded _ | .inherited _ _ _ | .failed _ | .blocked _ | .skipped _ | .notRun _
  | .cancelled _ => 0

variable {w}

theorem effort_pending (h : rt.state = .pending) :
    effort w rt = w + roundsEffort w rt.recovery := by
  simp only [effort, h]

theorem effort_starting (h : rt.state = .starting) :
    effort w rt = w - 1 + roundsEffort w rt.recovery := by
  simp only [effort, h]

theorem effort_running (h : rt.state = .running) :
    effort w rt = w - 2 + roundsEffort w rt.recovery := by
  simp only [effort, h]

theorem effort_capturingOutputs (h : rt.state = .capturingOutputs) :
    effort w rt = w - 3 + roundsEffort w rt.recovery := by
  simp only [effort, h]

theorem effort_recovering {round : RecoveryRoundNumber} {activity : RecoveryHandlerActivity}
    (h : rt.state = .recovering round activity) :
    effort w rt = w + (if activity = .starting then 1 else 0) + roundsEffort w rt.recovery := by
  cases activity <;> simp [effort, h]

theorem effort_cancelling {detail : CancellationDetail} (h : rt.state = .cancelling detail) :
    effort w rt = 1 := by
  simp only [effort, h]

theorem effort_terminal (h : rt.state.isTerminal = true) : effort w rt = 0 := by
  unfold effort
  cases hstate : rt.state <;> rw [hstate] at h <;> first | rfl | cases h

theorem StepRuntimeState.Annotated.roundsEffort (h : rt.Annotated rt') :
    roundsEffort w rt'.recovery = roundsEffort w rt.recovery := by
  have hmap := congrArg (fun o => (o.map (fun (k : Nat × Option RecoveryHandlerKind × Nat) =>
    (k.1 - k.2.2) * (if k.2.1.isSome then 5 else w))).getD 0) h.2
  simpa [Workflow.roundsEffort, Option.map_map, Function.comp_def] using hmap

/-- Opening a round spends it. -/
theorem StepRuntimeState.OpenedRound.roundsEffort (w : Nat) (h : rt.OpenedRound rt') :
    ∃ r, rt.recovery = some r ∧ roundsEffort w rt.recovery =
      roundsEffort w rt'.recovery + (if r.handlerKind.isSome then 5 else w) := by
  obtain ⟨-, r, r', hr, hr', hlt, hconfigured, hkind, hlength⟩ := h
  refine ⟨r, hr, ?_⟩
  simp only [Workflow.roundsEffort, hr, hr', Option.map_some, Option.getD_some, hconfigured,
    hkind, hlength]
  have hleft : r.configuredRounds - r.rounds.length =
      r.configuredRounds - (r.rounds.length + 1) + 1 := by omega
  rw [hleft, Nat.add_mul, one_mul]

end Effort

section Moves

/-- A node that runs its target has at least the effort of capturing. -/
theorem StepRuntimeState.RunsTarget.effort_ge (w : Nat) (h : rt.RunsTarget) :
    w - 3 + roundsEffort w rt.recovery ≤ effort w rt := by
  rcases h with h | h | h
  · rw [effort_starting h]; omega
  · rw [effort_running h]; omega
  · rw [effort_capturingOutputs h]

variable [ConditionOutput V] {actions : List (RequestedAction O C V D)}

/-- A move pays for its event. -/
theorem NodeMove.effort (hw : 4 ≤ w) (h : NodeMove o s id d rt rt' actions) :
    effort w rt' + 1 ≤ effort w rt := by
  cases h with
  | start _ hpending =>
    rw [effort_starting rfl, effort_pending hpending, StepRuntimeState.started_recovery]
    omega
  | retry _ _ htarget hopens hkind =>
    obtain ⟨r, hr, hspent⟩ := hopens.openedRound.roundsEffort w
    cases hopens.spec.1.symm.trans hr
    have hge := htarget.effort_ge w
    rw [hkind] at hspent
    rw [effort_starting rfl, StepRuntimeState.started_recovery]
    simp only [Option.isSome_none, Bool.false_eq_true, if_false] at hspent
    omega
  | recheck _ _ _ _ hstate =>
    rw [effort_starting rfl, StepRuntimeState.started_recovery,
      (rt.noteOutcome_annotated _ _).roundsEffort, effort_recovering hstate]
    omega
  | run hstate =>
    rw [effort_running rfl, effort_starting hstate]
    dsimp only
    omega
  | capture _ hstate =>
    rw [effort_capturingOutputs rfl, effort_running hstate]
    dsimp only
    omega
  | recover kind record htarget hopens hkind =>
    obtain ⟨r, hr, hspent⟩ := hopens.openedRound.roundsEffort w
    cases hopens.spec.1.symm.trans hr
    have hge := htarget.effort_ge w
    have hnote := (rt.opened record).editRecovery_annotated (modifyLastRound_keeps
      (fun record => { record with handler := some ⟨kind, s.actionId, .starting⟩ }))
    have hkept : roundsEffort w ((rt.opened record).handlerStarted s.actionId record.number
      kind).recovery = roundsEffort w (rt.opened record).recovery := hnote.roundsEffort
    rw [hkind] at hspent
    rw [effort_recovering rfl]
    simp only [Option.isSome_some, if_true] at hspent ⊢
    omega
  | handlerRunning round hstate =>
    rw [effort_recovering rfl, effort_recovering hstate]
    simp only [(rt.noteOutcome_annotated round .running).roundsEffort, reduceCtorEq, if_false,
      if_true]
    omega
  | succeed _ _ hstate =>
    rw [effort_terminal rfl, effort_capturingOutputs hstate]
    omega
  | skip predicate trace detail hgate hpending | failureStop hpending
  | notSelected finalization hpending | forcedCancel hpending =>
    rw [effort_terminal rfl, effort_pending hpending]
    omega
  | quiesce _ _ _ hstate =>
    rw [effort_terminal rfl, effort_cancelling hstate]

/-- A move into an issue pays for its event, and with the fifth transition for the gate that
it closes. -/
theorem IssueMove.effort {issue : PrimaryIssue} (hw : 4 ≤ w) (h : IssueMove s id d rt rt' issue) :
    effort w rt' = 0 ∧ 1 ≤ effort w rt ∧ 2 ≤ effort w rt + (5 - w) := by
  cases h with
  | fail _ _ hfinal =>
    refine ⟨effort_terminal rfl, ?_⟩
    rcases hfinal.active with htarget | ⟨round, activity, hstate⟩
    · have hge := htarget.effort_ge w
      omega
    · rw [effort_recovering hstate]
      omega
  | conditionFailed predicate canonicalRef pointer detail hgate hpending
  | blockOrdinary detail hpending | blockCondition detail hpending | blockInput detail hpending =>
    refine ⟨effort_terminal rfl, ?_⟩
    rw [effort_pending hpending]
    omega

end Moves

section Totals

variable (w : Nat)

/-- Transitions that all nodes together can still commit. -/
def totalEffort (s : RuntimeState C V D) : Nat :=
  (s.steps.values.map (effort w)).sum

/-- Phase changes that are still to come. -/
def phaseEffort (s : RuntimeState C V D) : Nat :=
  match s.workflow with
  | .executing _ => if s.definition.finalizerIds = [] then 1 else 2
  | .finalizing _ _ _ => 1
  | .succeeded | .failed _ _ | .cancelled _ => 0

variable {w}

theorem totalEffort_congr (h : t.steps = s.steps) : totalEffort w t = totalEffort w s := by
  rw [totalEffort, h, totalEffort]

/-- Only the effort of a committed node changes. -/
theorem totalEffort_setNode (hrt : s.steps.get? id = some rt) (rt' : StepRuntimeState C V) :
    totalEffort w (s.setNode id rt') + effort w rt = totalEffort w s + effort w rt' :=
  BTreeMap.sum_values_modify hrt (effort w) rt'

theorem totalEffort_commit (hrt : s.steps.get? id = some rt) (rt' : StepRuntimeState C V) :
    totalEffort w (s.commit id rt') + effort w rt = totalEffort w s + effort w rt' := by
  have hset := totalEffort_setNode (w := w) (s := s.tick) (by simpa using hrt) rt'
  rwa [totalEffort_congr (RuntimeState.tick_steps s)] at hset

theorem phaseEffort_congr (hdefinition : t.definition = s.definition)
    (hworkflow : t.workflow = s.workflow) : phaseEffort t = phaseEffort s := by
  rw [phaseEffort, hdefinition, hworkflow, phaseEffort]

theorem phaseEffort_executing {gate : SchedulingGate} (h : s.workflow = .executing gate) :
    phaseEffort s = if s.definition.finalizerIds = [] then 1 else 2 := by
  simp only [phaseEffort, h]

theorem phaseEffort_finalizing {trigger : FinalizationTrigger} {gate : FinalizationGate D}
    {issue : Option PrimaryIssue} (h : s.workflow = .finalizing trigger gate issue) :
    phaseEffort s = 1 := by
  simp only [phaseEffort, h]

/-- A required issue would still close the gate. -/
def issuePossible : WorkflowState D → Bool
  | .executing .open | .finalizing .succeeded .open none => true
  | _ => false

@[simp] theorem forcedFinalizationGate_ne_open (gate : FinalizationGate D) :
    forcedFinalizationGate gate ≠ .open := by
  cases gate <;> simp [forcedFinalizationGate]

theorem issuePossible_finalizing {trigger : FinalizationTrigger} {gate : FinalizationGate D}
    {issue : Option PrimaryIssue} (h : gate ≠ .open) :
    issuePossible (.finalizing trigger gate issue) = false := by
  cases gate with
  | «open» => exact absurd rfl h
  | cancelling => cases trigger <;> rfl

/-- Transitions that a run can still commit, as long as no cancellation is accepted. -/
def need (w : Nat) (s : RuntimeState C V D) : Nat :=
  totalEffort w s + phaseEffort s + if issuePossible s.workflow then 5 - w else 0

theorem need_congr (hdefinition : t.definition = s.definition)
    (hworkflow : t.workflow = s.workflow) :
    need w t + totalEffort w s = need w s + totalEffort w t := by
  simp only [need, phaseEffort_congr hdefinition hworkflow, hworkflow]
  omega

/-- A phase that ends leaves one phase less, and no more issues than before. -/
theorem need_phase (hsteps : t.steps = s.steps) (hphase : phaseEffort t + 1 ≤ phaseEffort s)
    (hissue : issuePossible t.workflow = true → issuePossible s.workflow = true) :
    1 + need w t ≤ need w s := by
  simp only [need, totalEffort_congr hsteps]
  by_cases hpossible : issuePossible t.workflow = true
  · rw [if_pos hpossible, if_pos (hissue hpossible)]
    omega
  · rw [if_neg hpossible]
    omega

end Totals

section Cancellations

/-- Transitions that a node commits once it is cancelled: an unstarted node is dropped, and an
active one is contained and quiesces.  A node without an invocation is passed over. -/
def cancelCost (w : Nat) (rt : StepRuntimeState C V) : Nat :=
  match rt.state with
  | .pending => 1
  | .starting | .running | .capturingOutputs | .recovering _ _ =>
    if rt.activeInvocation.isSome then 2 else effort w rt
  | _ => effort w rt

/-- Transitions of all nodes, when those of a list are cancelled. -/
def windDown (w : Nat) (ids : List String) (s : RuntimeState C V D) : Nat :=
  (s.steps.entries.map (fun e => if e.1 ∈ ids then cancelCost w e.2 else effort w e.2)).sum

/-- The nodes that a cancellation of the current phase goes through. -/
def phaseNodes (s : RuntimeState C V D) : List String :=
  (nodesOfRole s (match s.workflow with | .executing _ => .step | _ => .finalizer)).map Prod.fst

/-- Transitions that a run can still commit from an accepted cancellation on. -/
def cancelNeed (w : Nat) (s : RuntimeState C V D) : Nat :=
  1 + windDown w (phaseNodes s) s + phaseEffort s

theorem windDown_nil (s : RuntimeState C V D) : windDown w [] s = totalEffort w s := by
  simp [windDown, totalEffort, BTreeMap.values, Function.comp_def]

theorem windDown_congr (ids : List String) (h : t.steps = s.steps) : windDown w ids t = windDown w ids s := by
  rw [windDown, h, windDown]

/-- With five transitions per execution, a cancellation never costs more than the effort; with
four, it may when a node is active. -/
theorem cancelCost_le (hw : 4 ≤ w) (h : 5 ≤ w ∨ rt.state.isActive = false) :
    cancelCost w rt ≤ effort w rt := by
  unfold cancelCost
  split <;> rename_i hstate
  · rw [effort_pending hstate]
    omega
  · rw [effort_starting hstate]
    split_ifs <;> simp [hstate, StepState.isActive] at h <;> omega
  · rw [effort_running hstate]
    split_ifs <;> simp [hstate, StepState.isActive] at h <;> omega
  · rw [effort_capturingOutputs hstate]
    split_ifs <;> simp [hstate, StepState.isActive] at h <;> omega
  · rw [effort_recovering hstate]
    split_ifs <;> omega
  · exact le_refl _

theorem windDown_le (hw : 4 ≤ w) (ids : List String)
    (h : 5 ≤ w ∨ ∀ rt ∈ s.steps.values, rt.state.isActive = false) :
    windDown w ids s ≤ totalEffort w s := by
  simp only [windDown, totalEffort, BTreeMap.values, List.map_map, Function.comp_def]
  refine List.sum_le_sum fun e he => ?_
  split_ifs
  · exact cancelCost_le hw (h.imp_right (fun h => h _ (List.mem_map_of_mem he)))
  · exact le_refl _

theorem windDown_setNode (hrt : s.steps.get? id = some rt) (hnew : id ∉ ids)
    (rt' : StepRuntimeState C V) :
    windDown w ids (s.setNode id rt') + cancelCost w rt =
      windDown w (id :: ids) s + effort w rt' := by
  have hsum := BTreeMap.sum_entries_modify hrt
    (fun j rt => if j ∈ id :: ids then cancelCost w rt else effort w rt)
    (fun j rt => if j ∈ ids then cancelCost w rt else effort w rt)
    (fun j _ hne => by simp only [List.mem_cons, hne, false_or]) rt'
  rwa [if_neg hnew, if_pos List.mem_cons_self] at hsum

theorem windDown_commit (hrt : s.steps.get? id = some rt) (hnew : id ∉ ids)
    (rt' : StepRuntimeState C V) :
    windDown w ids (s.commit id rt') + cancelCost w rt =
      windDown w (id :: ids) s + effort w rt' := by
  have hset := windDown_setNode (w := w) (s := s.tick) (by simpa using hrt) hnew rt'
  rwa [windDown_congr (id :: ids) (RuntimeState.tick_steps s)] at hset

/-- A cancelled node leaves what it commits afterwards. -/
theorem CancelMove.windDown {next : Nat} (h : CancelMove reason deadline force index s id next m t)
    (hnew : id ∉ ids) : m.events.length + windDown w ids t ≤ windDown w (id :: ids) s := by
  cases h with
  | @drop _ rt _ hrt hstate =>
    have hsum := windDown_commit (w := w) hrt hnew (rt.dropped (.cancelled ⟨reason⟩))
    rw [effort_terminal rfl] at hsum
    have hcost : cancelCost w rt = 1 := by simp only [cancelCost, hstate]
    simp only [List.length_singleton]
    omega
  | @contain d rt active _ hrt hstate hactive =>
    generalize rt.noteHandlerCancelled active = rt'
    have hafter : effort w ({ rt' with
        state := .cancelling ⟨reason⟩
        currentAction := some (containmentId force s index) } :
          StepRuntimeState C V) = 1 := effort_cancelling rfl
    have hsum := windDown_commit (w := w) hrt hnew { rt' with
      state := .cancelling ⟨reason⟩, currentAction := some (containmentId force s index) }
    have hcost : cancelCost w rt = 2 := by
      rcases hstate with (hstate | hstate | hstate) | ⟨round, activity, hstate⟩ <;>
        simp only [cancelCost, hstate, hactive, Option.isSome_some, if_true]
    simp only [List.length_singleton]
    omega
  | @escalate rt _ hrt hstate =>
    have hsum := windDown_setNode (w := w) hrt hnew { rt with
      currentAction := some (containmentId force s index) }
    rw [effort_cancelling (by exact hstate)] at hsum
    have hcost : cancelCost w rt = 1 := by simp only [cancelCost, hstate, effort]
    simp only [List.length_nil]
    omega
  | @pass rt hrt hstate =>
    have hsum := windDown_setNode (w := w) hrt hnew rt
    rw [RuntimeState.setNode_self hrt] at hsum
    have hcost : cancelCost w rt = effort w rt := by
      unfold cancelCost
      rcases hstate with hstate | ⟨hstate, hnone⟩ | ⟨⟨detail, hstate⟩, -⟩
      · split <;> simp_all [StepState.isTerminal]
      · split <;> simp_all [StepState.isActive]
      · simp only [hstate]
    rw [Emission.one_events, List.length_nil]
    omega

/-- A cancellation leaves what its nodes commit afterwards. -/
theorem CancelRun.windDown (h : CancelRun reason deadline force index ids s m t)
    (hnodup : ids.Nodup) : m.events.length + totalEffort w t ≤ windDown w ids s := by
  induction h with
  | nil => simp [windDown_nil]
  | cons hmove _ ih =>
    obtain ⟨hnew, hrest⟩ := List.nodup_cons.mp hnodup
    have hhead := hmove.windDown (w := w) hnew
    have htail := ih hrest
    rw [Emission.mul_events, List.length_append]
    omega

theorem phaseNodes_nodup (s : RuntimeState C V D) : (phaseNodes s).Nodup :=
  nodesOfRole_nodup _ _

/-- An accepted cancellation closes the gate and goes through the nodes of the phase. -/
theorem CancelRun.need {u : RuntimeState C V D} {closed : WorkflowState D}
    (h : CancelRun reason deadline force index (phaseNodes s) u m t) (hsteps : u.steps = s.steps)
    (hphase : phaseEffort u = phaseEffort s) (hworkflow : u.workflow = closed)
    (hclosed : issuePossible closed = false) :
    1 + m.events.length + need w t ≤ cancelNeed w s := by
  have hwind := h.windDown (w := w) (phaseNodes_nodup s)
  rw [windDown_congr _ hsteps] at hwind
  rw [Workflow.need, cancelNeed, phaseEffort_congr h.definition h.frame.1, hphase, h.frame.1,
    hworkflow, hclosed]
  simp only [Bool.false_eq_true, if_false]
  omega

end Cancellations

section Steps

/-- A step that only changes one node and pays with its effort. -/
theorem need_node (rt rt' : StepRuntimeState C V) {cost : Nat}
    (hdefinition : t.definition = s.definition) (hworkflow : t.workflow = s.workflow)
    (htotal : totalEffort w t + effort w rt = totalEffort w s + effort w rt')
    (hpaid : cost + effort w rt' ≤ effort w rt) : cost + need w t ≤ need w s := by
  have hneed := need_congr (w := w) hdefinition hworkflow
  omega

variable [ConditionOutput V] {n : Emission O C V D}

/-- A required issue closes the gate, for which the transition that is set aside pays. -/
theorem need_primaryIssue {workflow : WorkflowState D} {issue : PrimaryIssue} (hw : 4 ≤ w)
    (hrt : s.steps.get? id = some rt) (hmove : IssueMove s id d rt rt' issue)
    (htarget : issueTarget s.workflow d issue = some workflow) :
    2 + need w ((s.commit id rt').advance workflow) ≤ need w s := by
  obtain ⟨hafter, -, hpaid⟩ := hmove.effort hw
  have htotal := totalEffort_commit (w := w) hrt rt'
  have hadvance : totalEffort w ((s.commit id rt').advance workflow) =
      totalEffort w (s.commit id rt') := totalEffort_congr (by simp)
  have hphase : phaseEffort ((s.commit id rt').advance workflow) = phaseEffort s ∧
      issuePossible workflow = false ∧ issuePossible s.workflow = true := by
    rcases (issueTarget_spec htarget).2 with ⟨-, hworkflow, rfl⟩ | ⟨-, hworkflow, rfl⟩
    · rw [phaseEffort_executing hworkflow, phaseEffort_executing rfl, hworkflow]
      exact ⟨by simp, rfl, rfl⟩
    · rw [phaseEffort_finalizing hworkflow, phaseEffort_finalizing rfl, hworkflow]
      exact ⟨rfl, rfl, rfl⟩
  have hclosed : issuePossible ((s.commit id rt').advance workflow).workflow = false :=
    hphase.2.1
  rw [need, need, hadvance, hphase.1, hclosed, hphase.2.2]
  simp only [Bool.false_eq_true, if_false, if_true]
  omega

/-- Every step pays for its events with what the run needed before it, or accepts a requested
cancellation. -/
theorem ReducerStep.need (hw : 4 ≤ w) (hstep : ReducerStep o s n t) :
    n.events.length + need w t ≤ need w s ∨ Requested s o ∧
      n.events.length + need w t ≤ cancelNeed w s ∧ 1 ≤ n.events.countP isAcceptance := by
  cases hstep with
  | @node _ _ rt rt' _ _ hrt hmove =>
    have hpaid := hmove.effort hw
    refine Or.inl (need_node rt rt' (by simp) (by simp) (totalEffort_commit hrt rt') ?_)
    simp only [List.length_singleton]
    omega
  | @complete _ _ rt _ hrt hstate =>
    generalize rt.noteExecution .recovered = rt'
    have hfirst := totalEffort_commit (w := w) hrt (rt.dropped .capturingOutputs)
    have hsecond := totalEffort_commit (w := w) (RuntimeState.get?_commit_self hrt
      (rt.dropped .capturingOutputs)) (rt'.settled (.succeeded .empty))
    refine Or.inl (need_node rt (rt'.settled (.succeeded .empty)) (by simp) (by simp)
      (by omega) ?_)
    rw [effort_running hstate, effort_terminal rfl]
    simp only [List.length_cons, List.length_nil]
    omega
  | @issue _ _ rt rt' _ _ hrt hmove =>
    obtain ⟨hafter, hpaid, -⟩ := hmove.effort hw
    refine Or.inl (need_node rt rt' (by simp) (by simp) (totalEffort_commit hrt rt') ?_)
    simp only [List.length_singleton]
    omega
  | primaryIssue _ hrt hmove htarget => exact Or.inl (need_primaryIssue hw hrt hmove htarget)
  | @note _ rt rt' hrt hnote =>
    have hsame : effort w rt' = effort w rt := by
      unfold effort
      rw [hnote.1.state, hnote.roundsEffort]
    refine Or.inl (need_node rt rt' rfl rfl (totalEffort_setNode hrt rt') ?_)
    simp only [Emission.one_events, List.length_nil]
    omega
  | @passed _ _ rt _ _ hrt =>
    refine Or.inl (need_node rt _ rfl rfl (totalEffort_setNode hrt _) ?_)
    simp [effort]
  | release | operation =>
    refine Or.inl (Nat.le_of_eq ?_)
    exact Nat.zero_add _
  | @cancelOrdinary gate reason deadline operation _ _ hphase _ hcancel hrequested
  | @forceOrdinary gate deadline operation _ _ hphase _ hcancel hrequested =>
    refine Or.inr ⟨hrequested, ?_, by simp [isAcceptance]⟩
    have hnodes : phaseNodes s = (nodesOfRole s .step).map Prod.fst := by
      rw [phaseNodes, hphase]
    rw [← hnodes] at hcancel
    have hneed := hcancel.need (w := w) (RuntimeState.tick_steps _)
      (by rw [phaseEffort_executing hphase, phaseEffort_executing (RuntimeState.tick_workflow _)]
          simp)
      (RuntimeState.tick_workflow _) (by cases gate <;> rfl)
    rwa [Emission.mul_events, List.length_append]
  | @cancelFinalization trigger issue reason deadline operation _ _ hphase hcancel hrequested
  | @forceFinalization trigger gate issue deadline operation _ _ hphase _ hcancel hrequested =>
    refine Or.inr ⟨hrequested, ?_, by simp [isAcceptance]⟩
    have hnodes : phaseNodes s = (nodesOfRole s .finalizer).map Prod.fst := by
      rw [phaseNodes, hphase]
    rw [← hnodes] at hcancel
    have hneed := hcancel.need (w := w) (RuntimeState.tick_steps _)
      (by rw [phaseEffort_finalizing hphase, phaseEffort_finalizing (RuntimeState.tick_workflow _)])
      (RuntimeState.tick_workflow _) (issuePossible_finalizing (by simp))
    rwa [Emission.mul_events, List.length_append]
  | @enter outcome hsettled houtcome hfinalizers =>
    obtain ⟨gate, hworkflow⟩ := ordinaryOutcome_executing houtcome
    refine Or.inl (need_phase (by simp) ?_ ?_)
    · rw [phaseEffort_executing hworkflow, if_neg hfinalizers, phaseEffort_finalizing rfl]
    · intro hopen
      rw [ordinaryOutcome, hworkflow] at houtcome
      rw [hworkflow]
      cases outcome with
      | succeeded =>
        rcases gate with _ | _ | ⟨_, _ | _⟩
        · rfl
        all_goals cases houtcome
      | failed | cancelled => cases hopen
  | @finish outcome summary exports hready =>
    have hdone : phaseEffort { s.advance outcome.workflowState with
        exports := some exports, finalizationSummary := summary } = 0 := by
      cases outcome <;> rfl
    refine Or.inl (need_phase (by simp) ?_ ?_)
    · rw [hdone]
      cases hready with
      | ordinary _ houtcome =>
        obtain ⟨gate, hworkflow⟩ := ordinaryOutcome_executing houtcome
        rw [phaseEffort_executing hworkflow]
        split <;> omega
      | finalization hphase =>
        obtain ⟨trigger, gate, issue, hworkflow⟩ := hphase
        rw [phaseEffort_finalizing hworkflow]
    · cases outcome <;> exact fun h => absurd h Bool.false_ne_true

end Steps

section Sequences

/-- The committed transitions are numbered up to the ceiling, and those beyond it are marked. -/
def SequenceExact (committed : Nat) (s : RuntimeState C V D) : Prop :=
  committed < 2 ^ 64 →
    s.lastTransitionSequence = min committed s.definition.maximumTransitions ∧
      s.transitionCapacityExceeded = decide (s.definition.maximumTransitions < committed)

variable {n : Nat}

section

variable (h : SequenceExact n s)
include h

theorem SequenceExact.congr (hdefinition : t.definition = s.definition)
    (hexceeded : t.transitionCapacityExceeded = s.transitionCapacityExceeded)
    (hlast : t.lastTransitionSequence = s.lastTransitionSequence) : SequenceExact n t := by
  unfold SequenceExact at h ⊢
  rwa [hdefinition, hexceeded, hlast]

/-- A transition gets the next number, or marks that there is none. -/
theorem SequenceExact.tick : SequenceExact (n + 1) s.tick := by
  intro hlt
  obtain ⟨hlast, hexceeded⟩ := h (by omega)
  have hnext : TransitionSequence.next s.lastTransitionSequence =
      min n s.definition.maximumTransitions + 1 := by
    have hroom : min n s.definition.maximumTransitions + 1 ≤ 2 ^ 64 - 1 := by omega
    rw [hlast]
    exact min_eq_left hroom
  rw [RuntimeState.tick_definition]
  unfold RuntimeState.tick nextSequence
  dsimp only
  rw [hnext]
  split_ifs with hfull
  · refine ⟨hlast.trans ?_, (decide_eq_true (by omega)).symm⟩
    show min n s.definition.maximumTransitions = min (n + 1) s.definition.maximumTransitions
    omega
  · refine ⟨?_, ?_⟩
    · show min n s.definition.maximumTransitions + 1 = min (n + 1) s.definition.maximumTransitions
      omega
    · dsimp only
      rw [hexceeded, decide_eq_false (by omega), decide_eq_false (by omega)]

theorem SequenceExact.commit (id : String)
    (rt : StepRuntimeState C V) : SequenceExact (n + 1) (s.commit id rt) :=
  h.tick.congr rfl rfl rfl

theorem SequenceExact.nextSeq (hle : n < s.definition.maximumTransitions)
    (hlt : n + 1 < 2 ^ 64) : s.nextSeq = n + 1 := by
  obtain ⟨hlast, -⟩ := h (by omega)
  have hlast' : s.lastTransitionSequence = n := hlast.trans (min_eq_left (Nat.le_of_lt hle))
  have hnext : TransitionSequence.next s.lastTransitionSequence = n + 1 := by
    rw [hlast']
    exact min_eq_left (show n + 1 ≤ 2 ^ 64 - 1 by omega)
  unfold RuntimeState.nextSeq nextSequence
  dsimp only
  rw [hnext, if_neg (Nat.not_lt.mpr hle)]

end

theorem CancelRun.sequence (hcancel : CancelRun reason deadline force index ids s m t)
    (h : SequenceExact n s) : SequenceExact (n + m.events.length) t := by
  induction hcancel generalizing n with
  | nil => exact h
  | cons hmove _ ih =>
    rw [Emission.mul_events, List.length_append, ← Nat.add_assoc]
    refine ih ?_
    cases hmove with
    | drop => exact h.commit _ _
    | contain => exact h.commit _ _
    | escalate => exact h.congr rfl rfl rfl
    | pass => exact h

variable [ConditionOutput V]

/-- Every step takes one number for each event. -/
theorem ReducerStep.sequence (hstep : ReducerStep o s m t) (h : SequenceExact n s) :
    SequenceExact (n + m.events.length) t := by
  cases hstep with
  | node => exact h.commit _ _
  | complete => exact (h.commit _ _).commit _ _
  | issue => exact h.commit _ _
  | primaryIssue => exact (h.commit _ _).tick.congr rfl rfl rfl
  | note | passed | release | operation => exact h.congr rfl rfl rfl
  | cancelOrdinary _ _ hcancel | forceOrdinary _ _ hcancel | forceFinalization _ _ hcancel
  | cancelFinalization _ hcancel =>
    rw [Emission.mul_events, List.length_append, ← Nat.add_assoc]
    exact hcancel.sequence (SequenceExact.tick (h.congr rfl rfl rfl))
  | enter | finish => exact h.tick.congr rfl rfl rfl

end Sequences

variable [ConditionOutput V] {definition : RuntimeDefinition} {seed : ExecutionSeed V}

/-- With five transitions per execution, the events of a run are paid for by the initial effort
and by accepted cancellations. -/
theorem Reachable.need (h : Reachable definition seed m s) :
    m.events.length + need 5 s ≤ totalEffort 5 (initialState definition seed :
        RuntimeState C V D) + (if definition.finalizerIds = [] then 1 else 2) +
      m.events.countP isAcceptance := by
  refine h.induction (I := fun m s => m.events.length + Workflow.need 5 s ≤ _ +
    m.events.countP isAcceptance) ?_ ?_
  · rw [Workflow.need, phaseEffort_executing rfl, Emission.one_events, List.length_nil,
      Nat.sub_self, ite_self, Nat.zero_add]
    exact le_refl _
  · intro o m s n t _ hs hstep
    rw [Emission.mul_events, List.length_append, List.countP_append]
    rcases hstep.need (by decide : 4 ≤ 5) with hpaid | ⟨-, hpaid, haccepted⟩
    · omega
    · have hwind := windDown_le (s := s) (by decide : 4 ≤ 5) (phaseNodes s)
        (Or.inl (le_refl _))
      rw [cancelNeed] at hpaid
      have hneed : totalEffort 5 s + phaseEffort s ≤ Workflow.need 5 s := by
        rw [Workflow.need]
        omega
      omega

/-- How the transitions of a run are numbered. -/
theorem Reachable.sequence (h : Reachable definition seed m s) :
    SequenceExact m.events.length s := by
  refine h.induction (I := fun m s => SequenceExact m.events.length s) ?_ ?_
  · exact fun _ => ⟨(Nat.zero_min _).symm, rfl⟩
  · intro o m s n t _ hs hstep
    rw [Emission.mul_events, List.length_append]
    exact hstep.sequence hs

/-- Within the ceiling the number of transitions is the last sequence number. -/
theorem Reachable.last_eq (h : Reachable definition seed m s) (hlt : m.events.length < 2 ^ 64)
    (hle : m.events.length ≤ definition.maximumTransitions) :
    s.lastTransitionSequence = m.events.length := by
  rw [(h.sequence hlt).1, h.definition_eq]
  exact min_eq_left hle

theorem Reachable.within (h : Reachable definition seed m s) (hlt : m.events.length < 2 ^ 64) :
    s.transitionCapacityExceeded = false ↔ m.events.length ≤ definition.maximumTransitions := by
  rw [(h.sequence hlt).2, h.definition_eq, decide_eq_false_iff_not, Nat.not_lt]

end ScherzoCloud.Workflow
