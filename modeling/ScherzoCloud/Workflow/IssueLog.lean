import ScherzoCloud.Workflow.Phases

/-!
# What the transition log says about the outcome

The log of a run decides its outcome: the first issue of a required node that
was committed before any cancellation is carried by the workflow state to the
end, and a workflow state without an issue and with open gates has neither a
required issue nor an accepted cancellation in its log.
-/

namespace ScherzoCloud.Workflow

open Collections
open RuntimeState (get?_commit_self tick_finalization tick_workflow tick_definition tick_steps)

variable {O C V D : Type} {reason : CancellationReason} {force : Option CancellationOperationId}
  {s t : RuntimeState C V D} {id : String} {ids : List String} {m : Emission O C V D}
  {d : RuntimeStep} {rt rt' : StepRuntimeState C V} {o : Option (Occurrence O C V D)}
  {issue : PrimaryIssue} {events more : List (TransitionEvent D)} {outcome : OrdinaryOutcome}
  {summary : Option (FinalizationSummary D)}

/-- The required node that an event settles as failed or blocked. -/
def requiredIssue : TransitionEvent D → Option WorkflowNode
  | .step _ id role .required _ .failed | .step _ id role .required _ .blocked =>
    some ⟨id, role⟩
  | _ => none

/-- The issue that decides the outcome, as the workflow state carries it. -/
def carriedIssue : WorkflowState D → Option PrimaryIssue
  | .executing (.failureStopped issue) => some issue
  | .executing (.cancelling _ issue) => issue
  | .finalizing _ _ issue => issue
  | .failed issue _ => some issue
  | .executing .open | .succeeded | .cancelled _ => none

/-- Nothing stands against success. -/
def isClean : WorkflowState D → Bool
  | .executing .open | .finalizing .succeeded .open none | .succeeded => true
  | _ => false

/-- A cancellation shows in the workflow state. -/
def isCancelled : WorkflowState D → Bool
  | .executing (.cancelling _ _) | .finalizing .cancelled _ _
  | .finalizing _ (.cancelling _ _ _) _ | .cancelled _ => true
  | _ => false

/-- An issue was committed first: before it the log has no required issue and no
accepted cancellation. -/
def FirstIssue (events : List (TransitionEvent D)) (issue : PrimaryIssue) : Prop :=
  ∃ earlier event later, events = earlier ++ event :: later ∧
    requiredIssue event = some issue.node ∧
    ∀ e ∈ earlier, requiredIssue e = none ∧ isAcceptance e = false

/-- A required node is in the state that an issue describes. -/
def IssueHolds (s : RuntimeState C V D) (issue : PrimaryIssue) : Prop :=
  ∃ d rt, s.definition.steps.get? issue.node.id = some d ∧ d.role = issue.node.role ∧
    d.failurePolicy = .required ∧ s.steps.get? issue.node.id = some rt ∧
    ((∃ detail, rt.state = .failed detail ∧ issue = .ofFailed issue.node detail) ∨
      ∃ detail, rt.state = .blocked detail ∧ issue = .ofBlocked issue.node detail)

/-- Every required node that failed or was blocked is in the log. -/
def LoggedIssues (events : List (TransitionEvent D)) (s : RuntimeState C V D) : Prop :=
  ∀ id d rt, s.definition.steps.get? id = some d → s.steps.get? id = some rt →
    d.failurePolicy = .required → rt.state.kind = .failed ∨ rt.state.kind = .blocked →
    ∃ e ∈ events, requiredIssue e = some ⟨id, d.role⟩

/-- How the log, the nodes and the workflow state of a run fit together. -/
structure IssueLog (events : List (TransitionEvent D)) (s : RuntimeState C V D) : Prop where
  logged : LoggedIssues events s
  clean : isClean s.workflow = true → ∀ e ∈ events, requiredIssue e = none ∧ isAcceptance e = false
  cancelled : isCancelled s.workflow = true ∨ s.forceAbort.isSome = true →
    ∃ e ∈ events, isAcceptance e = true
  carried : ∀ issue, carriedIssue s.workflow = some issue →
    FirstIssue events issue ∧ IssueHolds s issue ∧
      (issue.node.role = .finalizer → ∃ finalization, s.finalization = some finalization ∧
        finalization.ordinaryOutcome = .succeeded)

section EmittedEvents

variable {deadline : D} {index next : Nat}

theorem requiredIssue_nodeEvent :
    requiredIssue (nodeEvent s id d rt rt') =
      if d.failurePolicy = .required ∧
          (rt'.state.kind = .failed ∨ rt'.state.kind = .blocked) then some ⟨id, d.role⟩
      else none := by
  unfold nodeEvent
  cases d.failurePolicy <;> cases rt'.state.kind <;> simp [requiredIssue]

@[simp] theorem isAcceptance_nodeEvent : isAcceptance (nodeEvent s id d rt rt') = false := rfl

@[simp] theorem isAcceptance_workflow (sequence : TransitionSequence)
    (source target : WorkflowState D) :
    isAcceptance (.workflow sequence source target) = false := rfl

/-- A cancellation raises no issue. -/
theorem CancelRun.silent (h : CancelRun reason deadline force index ids s m t) :
    ∀ e ∈ m.events, requiredIssue e = none ∧ isAcceptance e = false := by
  intro e he
  obtain ⟨_, _, d, _, _, _, _, rfl, rfl | rfl⟩ := h.mem_events he <;>
    cases d.failurePolicy <;> exact ⟨rfl, rfl⟩

variable [ConditionOutput V] {actions : List (RequestedAction O C V D)}

/-- Moves without an issue do not fail or block their node. -/
theorem NodeMove.kind_ne (h : NodeMove o s id d rt rt' actions) :
    rt'.state.kind ≠ .failed ∧ rt'.state.kind ≠ .blocked := by
  cases h <;> simp [StepState.kind]

theorem IssueMove.settles (h : IssueMove s id d rt rt' issue) : issue.node = ⟨id, d.role⟩ ∧
      ((∃ detail, rt'.state = .failed detail ∧ issue = .ofFailed ⟨id, d.role⟩ detail) ∨
        ∃ detail, rt'.state = .blocked detail ∧ issue = .ofBlocked ⟨id, d.role⟩ detail) := by
  cases h with
  | fail detail | conditionFailed _ _ _ detail => exact ⟨rfl, Or.inl ⟨detail, rfl, rfl⟩⟩
  | blockOrdinary detail | blockCondition detail | blockInput detail =>
    exact ⟨rfl, Or.inr ⟨detail, rfl, rfl⟩⟩

/-- A required issue that meets open gates decides the outcome. -/
theorem issueTarget_isSome (h : IssueMove s id d rt rt' issue) (hinv : PhaseInvariant s)
    (hcoherent : s.definition.Coherent) (hd : s.definition.steps.get? id = some d)
    (hrt : s.steps.get? id = some rt) (hpolicy : d.failurePolicy = .required)
    (hclean : isClean s.workflow = true) : (issueTarget s.workflow d issue).isSome = true := by
  have hafter := h.phaseAllows hinv hcoherent hd hrt
  have hunsettled := h.unsettled
  have hkind : rt'.state.kind = .failed ∨ rt'.state.kind = .blocked := by
    rcases h.settles.2 with ⟨detail, hstate, -⟩ | ⟨detail, hstate, -⟩ <;>
      simp [hstate, StepState.kind]
  unfold issueTarget
  rw [if_pos hpolicy]
  cases hworkflow : s.workflow with
  | executing gate =>
    cases gate with
    | «open» =>
      cases hrole : d.role with
      | step => rfl
      | finalizer =>
        rw [hworkflow, hrole] at hafter
        rcases hkind with hk | hk <;> rw [hk] at hafter <;> cases hafter
    | failureStopped | cancelling => rw [hworkflow] at hclean; cases hclean
  | finalizing trigger gate issue =>
    rw [hworkflow] at hclean
    cases hrole : d.role with
    | step =>
      rw [hinv.step_settled ⟨_, _, _, hworkflow⟩ hd hrt hrole] at hunsettled
      cases hunsettled
    | finalizer =>
      cases trigger <;> cases gate <;> cases issue <;> first | rfl | cases hclean
  | succeeded =>
    rw [hinv.node_settled (by rw [hworkflow]; rfl) hd hrt] at hunsettled
    cases hunsettled
  | failed | cancelled => rw [hworkflow] at hclean; cases hclean

end EmittedEvents

theorem LoggedIssues.mono (h : LoggedIssues events s) (hdefinition : t.definition = s.definition)
    (hsteps : t.steps = s.steps) : LoggedIssues (events ++ more) t := by
  intro id d rt hd hrt hpolicy hkind
  rw [hdefinition] at hd
  rw [hsteps] at hrt
  obtain ⟨e, he, hissue⟩ := h id d rt hd hrt hpolicy hkind
  exact ⟨e, List.mem_append_left _ he, hissue⟩

theorem LoggedIssues.commit (h : LoggedIssues events s)
    (hd : s.definition.steps.get? id = some d) (hrt : s.steps.get? id = some rt)
    (rt' : StepRuntimeState C V) :
    LoggedIssues (events ++ [nodeEvent s id d rt rt']) (s.commit id rt') := by
  intro j dj rtj hdj hrtj hpolicy hkind
  rw [RuntimeState.commit_definition] at hdj
  by_cases hj : j = id
  · subst hj
    rw [get?_commit_self hrt] at hrtj
    cases hrtj
    cases hd.symm.trans hdj
    refine ⟨_, List.mem_append_right _ List.mem_cons_self, ?_⟩
    rw [requiredIssue_nodeEvent, if_pos ⟨hpolicy, hkind⟩]
  · rw [RuntimeState.get?_commit_of_ne hj] at hrtj
    obtain ⟨e, he, hissue⟩ := h j dj rtj hdj hrtj hpolicy hkind
    exact ⟨e, List.mem_append_left _ he, hissue⟩

theorem LoggedIssues.setNode (h : LoggedIssues events s) (hrt : s.steps.get? id = some rt)
    (hstate : rt'.state = rt.state) : LoggedIssues events (s.setNode id rt') := by
  intro j dj rtj hdj hrtj hpolicy hkind
  rw [RuntimeState.setNode_get?] at hrtj
  split_ifs at hrtj with hj
  · subst hj
    rw [hrt] at hrtj
    cases hrtj
    rw [hstate] at hkind
    exact h j dj rt hdj hrt hpolicy hkind
  · exact h j dj rtj hdj hrtj hpolicy hkind

theorem CancelRun.logged {deadline : D} {index : Nat}
    (h : CancelRun reason deadline force index ids s m t) (hs : LoggedIssues events s) :
    LoggedIssues (events ++ m.events) t := by
  induction h generalizing events with
  | nil => simpa using hs
  | cons hmove _ ih =>
    rw [Emission.mul_events, ← List.append_assoc]
    refine ih ?_
    cases hmove with
    | drop hd hrt | contain hd hrt => exact hs.commit hd hrt _
    | escalate hrt =>
      rw [List.append_nil]
      exact hs.setNode hrt rfl
    | pass => simpa using hs

section Carried

theorem FirstIssue.append (h : FirstIssue events issue) : FirstIssue (events ++ more) issue := by
  obtain ⟨earlier, event, later, rfl, hevent, hearlier⟩ := h
  exact ⟨earlier, event, later ++ more, by simp, hevent, hearlier⟩

theorem carriedIssue_outcome (h : ordinaryOutcome s = some outcome) :
    carriedIssue s.workflow = outcome.primaryIssue := by
  unfold ordinaryOutcome at h
  split at h <;> cases h <;> rename_i hworkflow <;> rw [hworkflow] <;> rfl

theorem carriedIssue_finish (hinv : PhaseInvariant s) (h : FinishReady s outcome summary) :
    carriedIssue (outcome.workflowState : WorkflowState D) = carriedIssue s.workflow := by
  have houtcome : ∀ outcome : OrdinaryOutcome,
      carriedIssue (outcome.workflowState : WorkflowState D) = outcome.primaryIssue := by
    intro outcome
    cases outcome <;> rfl
  cases h with
  | ordinary _ hordinary => rw [houtcome, carriedIssue_outcome hordinary]
  | @finalization finalization hphase _ hfinalization =>
    obtain ⟨trigger, gate, issue, hworkflow⟩ := hphase
    obtain ⟨finalization', hsome, -, -, hissue⟩ := hinv.finalizing trigger gate issue hworkflow
    cases hfinalization.symm.trans hsome
    rw [houtcome, hworkflow]
    unfold composeFinalOutcome
    dsimp only
    cases hordinary : finalization.ordinaryOutcome with
    | failed | cancelled =>
      rw [hordinary] at hissue
      exact (hissue (by simp)).symm
    | succeeded =>
      rw [hworkflow]
      cases issue with
      | some => rfl
      | none => cases gate <;> rfl

variable [ConditionOutput V]

/-- A settled issue stays settled. -/
theorem IssueHolds.step (h : IssueHolds s issue) (hstep : ReducerStep o s m t) :
    IssueHolds t issue := by
  obtain ⟨d, rt, hd, hrole, hpolicy, hrt, hstate⟩ := h
  obtain ⟨rt', hrt', hchange⟩ := hstep.nodeChange hd hrt
  have hterminal : rt.state.isTerminal = true := by
    rcases hstate with ⟨detail, h, -⟩ | ⟨detail, h, -⟩ <;> rw [h] <;> rfl
  refine ⟨d, rt', by rw [hstep.definition, hd], hrole, hpolicy, hrt', ?_⟩
  rw [hchange.settled_fixed hterminal]
  exact hstate

/-- The record of the ordinary phase is fixed when finalization is entered. -/
theorem ReducerStep.finalization_kept (hstep : ReducerStep o s m t) (hinv : PhaseInvariant s)
    {finalization : FinalizationRuntime D} (h : s.finalization = some finalization) :
    ∃ finalization', t.finalization = some finalization' ∧
      finalization'.trigger = finalization.trigger ∧ finalization'.context = finalization.context ∧
      finalization'.ordinaryOutcome = finalization.ordinaryOutcome := by
  cases hstep with
  | cancelOrdinary _ _ hcancel | forceOrdinary _ _ hcancel =>
    refine ⟨finalization, ?_, rfl, rfl, rfl⟩
    rw [hcancel.frame.2.1]
    exact (tick_finalization _).trans h
  | cancelFinalization _ hcancel | forceFinalization _ _ hcancel =>
    have hmap := hcancel.frame.2.1.trans (tick_finalization _)
    dsimp only at hmap
    rw [h, Option.map_some] at hmap
    exact ⟨_, hmap, rfl, rfl, rfl⟩
  | enter _ houtcome =>
    obtain ⟨gate, hworkflow⟩ := ordinaryOutcome_executing houtcome
    rw [hinv.executing gate hworkflow] at h
    cases h
  | _ => exact ⟨finalization, by simpa using h, rfl, rfl, rfl⟩

/-- A carried issue is never replaced. -/
theorem ReducerStep.carriedIssue_kept (hstep : ReducerStep o s m t) (hinv : PhaseInvariant s)
    (h : carriedIssue s.workflow = some issue) : carriedIssue t.workflow = some issue := by
  cases hstep with
  | primaryIssue _ _ _ htarget =>
    obtain ⟨-, ⟨-, hworkflow, -⟩ | ⟨-, hworkflow, -⟩⟩ := issueTarget_spec htarget <;>
      rw [hworkflow] at h <;> cases h
  | @cancelOrdinary gate _ _ _ _ _ hphase _ hcancel
  | @forceOrdinary gate _ _ _ _ hphase _ hcancel =>
    rw [hcancel.frame.1.trans (tick_workflow _)]
    rw [hphase] at h
    cases gate with
    | «open» => cases h
    | failureStopped => exact h
    | cancelling => exact h
  | cancelFinalization hphase hcancel | forceFinalization hphase _ hcancel =>
    rw [hcancel.frame.1.trans (tick_workflow _)]
    rw [hphase] at h
    exact h
  | enter _ houtcome =>
    rw [carriedIssue_outcome houtcome] at h
    exact h
  | finish hready =>
    rw [← carriedIssue_finish hinv hready] at h
    exact h
  | _ => simpa using h

end Carried

/-- More silent events do not matter. -/
theorem IssueLog.clean_append (h : IssueLog events s)
    (hsilent : ∀ e ∈ more, requiredIssue e = none ∧ isAcceptance e = false)
    (hclean : isClean s.workflow = true) :
    ∀ e ∈ events ++ more, requiredIssue e = none ∧ isAcceptance e = false := by
  intro e he
  rcases List.mem_append.mp he with he | he
  · exact h.clean hclean e he
  · exact hsilent e he

theorem IssueLog.cancelled_append (h : IssueLog events s)
    (hcancelled : isCancelled s.workflow = true ∨ s.forceAbort.isSome = true) :
    ∃ e ∈ events ++ more, isAcceptance e = true := by
  obtain ⟨e, he, haccept⟩ := h.cancelled hcancelled
  exact ⟨e, List.mem_append_left _ he, haccept⟩

theorem ordinaryOutcome_clean (h : ordinaryOutcome s = some .succeeded) :
    isClean s.workflow = true := by
  unfold ordinaryOutcome at h
  split at h <;> cases h
  rename_i hworkflow
  rw [hworkflow]
  rfl

theorem ordinaryOutcome_cancelled (h : ordinaryOutcome s = some (.cancelled reason)) :
    isCancelled s.workflow = true := by
  unfold ordinaryOutcome at h
  split at h <;> cases h
  rename_i hworkflow
  rw [hworkflow]
  rfl

/-- The reported outcome tells whether the state is clean or cancelled. -/
theorem FinishReady.phase {outcome : OrdinaryOutcome} (h : FinishReady s outcome summary)
    (hinv : PhaseInvariant s) : (outcome = .succeeded → isClean s.workflow = true) ∧
      ∀ reason, outcome = .cancelled reason → isCancelled s.workflow = true := by
  cases h with
  | ordinary _ hordinary =>
    refine ⟨?_, fun reason => ?_⟩
    · rintro rfl
      exact ordinaryOutcome_clean hordinary
    · rintro rfl
      exact ordinaryOutcome_cancelled hordinary
  | @finalization finalization hphase _ hfinalization =>
    obtain ⟨trigger, gate, issue, hworkflow⟩ := hphase
    obtain ⟨finalization', hsome, -, htrigger, -⟩ := hinv.finalizing trigger gate issue hworkflow
    cases hfinalization.symm.trans hsome
    unfold composeFinalOutcome
    dsimp only
    rw [hworkflow]
    split
    · exact ⟨nofun, nofun⟩
    · rename_i hordinary
      rw [hordinary] at htrigger
      cases htrigger
      exact ⟨nofun, fun _ _ => rfl⟩
    · rename_i hordinary
      rw [hordinary] at htrigger
      cases htrigger
      cases issue <;> cases gate <;> refine ⟨fun h => ?_, fun reason h => ?_⟩ <;> cases h <;> rfl

theorem initialState_issueLog (definition : RuntimeDefinition) (seed : ExecutionSeed V) :
    IssueLog [] (initialState definition seed : RuntimeState C V D) where
  logged id d rt hd hrt _ hkind := by
    cases (get?_initialState hd seed).symm.trans hrt
    simp only [initialStep] at hkind
    split at hkind <;> rcases hkind with hk | hk <;> cases hk
  clean _ e he := nomatch he
  cancelled h := by rcases h with h | h <;> cases h
  carried issue h := nomatch h

variable [ConditionOutput V] {n : Emission O C V D}

section

variable (h : IssueLog events s) (hinv : PhaseInvariant s) (hstep : ReducerStep o s n t)
include h hinv hstep

/-- An issue that was carried before the step is still first and still holds. -/
theorem IssueLog.carried_step (hissue : carriedIssue s.workflow = some issue) :
    FirstIssue (events ++ more) issue ∧ IssueHolds t issue ∧
      (issue.node.role = .finalizer → ∃ finalization, t.finalization = some finalization ∧
        finalization.ordinaryOutcome = .succeeded) := by
  obtain ⟨hfirst, hholds, hfinalizer⟩ := h.carried issue hissue
  refine ⟨hfirst.append, hholds.step hstep, fun hrole => ?_⟩
  obtain ⟨finalization, hsome, houtcome⟩ := hfinalizer hrole
  obtain ⟨finalization', hsome', -, -, hkept⟩ := hstep.finalization_kept hinv hsome
  exact ⟨finalization', hsome', hkept.trans houtcome⟩

/-- A step that commits no issue and leaves the workflow state alone. -/
theorem IssueLog.silent_step (hworkflow : t.workflow = s.workflow)
    (hforce : t.forceAbort = s.forceAbort) (hlogged : LoggedIssues (events ++ n.events) t)
    (hsilent : isClean s.workflow = true →
      ∀ e ∈ n.events, requiredIssue e = none ∧ isAcceptance e = false) :
    IssueLog (events ++ n.events) t where
  logged := hlogged
  clean hclean := by
    rw [hworkflow] at hclean
    exact h.clean_append (hsilent hclean) hclean
  cancelled hcancelled := by
    rw [hworkflow, hforce] at hcancelled
    exact h.cancelled_append hcancelled
  carried issue hissue := by
    rw [hworkflow] at hissue
    exact h.carried_step hinv hstep hissue

/-- An accepted cancellation keeps the carried issue. -/
theorem IssueLog.accepted_step {e : TransitionEvent D} {deadline : D} {closed : RuntimeState C V D}
    {w : WorkflowState D} (hn : n = ⟨[e], []⟩ * m)
    (hcancel : CancelRun reason deadline force 1 ids closed m t)
    (hdefinition : closed.definition = s.definition) (hsteps : closed.steps = s.steps)
    (hw : closed.workflow = w) (haccept : isAcceptance e = true) (hclean : isClean w = false)
    (hcarried : carriedIssue w = carriedIssue s.workflow) : IssueLog (events ++ n.events) t where
  logged := by
    rw [hn, Emission.mul_events, ← List.append_assoc]
    exact hcancel.logged (h.logged.mono hdefinition hsteps)
  clean hclean' := by
    rw [hcancel.frame.1, hw, hclean] at hclean'
    cases hclean'
  cancelled _ := ⟨e, List.mem_append_right _ (by simp [hn]), haccept⟩
  carried issue hissue := by
    rw [hcancel.frame.1, hw, hcarried] at hissue
    exact h.carried_step hinv hstep hissue

end

/-- Every step keeps log, nodes and workflow state together. -/
theorem ReducerStep.issueLog (hstep : ReducerStep o s n t) (h : IssueLog events s)
    (hinv : PhaseInvariant s) (hcoherent : s.definition.Coherent) :
    IssueLog (events ++ n.events) t := by
  have hstep' := hstep
  cases hstep with
  | node hd hrt hmove =>
    refine h.silent_step hinv hstep' (by simp) (by simp) (h.logged.commit hd hrt _) ?_
    intro _ e he
    rw [List.mem_singleton.mp he, requiredIssue_nodeEvent, if_neg]
    · exact ⟨rfl, rfl⟩
    · rintro ⟨-, hk | hk⟩
      · exact hmove.kind_ne.1 hk
      · exact hmove.kind_ne.2 hk
  | complete hd hrt =>
    refine h.silent_step hinv hstep' (by simp) (by simp) ?_ ?_
    · rw [List.append_cons]
      exact (h.logged.commit hd hrt _).commit (by simpa using hd) (get?_commit_self hrt _) _
    · intro _ e he
      simp only [List.mem_cons, List.not_mem_nil, or_false] at he
      rcases he with rfl | rfl <;> simp [requiredIssue_nodeEvent, StepState.kind]
  | @issue _ d _ _ _ hd hrt hmove hsilent =>
    refine h.silent_step hinv hstep' (by simp) (by simp) (h.logged.commit hd hrt _) ?_
    intro hclean e he
    have hpolicy : d.failurePolicy ≠ .required := by
      intro hpolicy
      have hsome := issueTarget_isSome hmove hinv hcoherent hd hrt hpolicy hclean
      rw [hsilent] at hsome
      cases hsome
    rw [List.mem_singleton.mp he, requiredIssue_nodeEvent, if_neg (fun hk => hpolicy hk.1)]
    exact ⟨rfl, rfl⟩
  | @primaryIssue _ d _ rt' issue workflow hd hrt hmove htarget =>
    obtain ⟨hpolicy, htarget'⟩ := issueTarget_spec htarget
    obtain ⟨hnode, hsettles⟩ := hmove.settles
    have hkind : rt'.state.kind = .failed ∨ rt'.state.kind = .blocked := by
      rcases hsettles with ⟨detail, hstate, -⟩ | ⟨detail, hstate, -⟩ <;>
        simp [hstate, StepState.kind]
    have hclean : isClean s.workflow = true := by
      rcases htarget' with ⟨-, hworkflow, -⟩ | ⟨-, hworkflow, -⟩ <;> rw [hworkflow] <;> rfl
    refine ⟨?_, ?_, ?_, ?_⟩
    · rw [List.append_cons]
      exact (h.logged.commit hd hrt _).mono (RuntimeState.advance_definition _ _)
        (RuntimeState.advance_steps _ _)
    · intro hclean'
      rcases htarget' with ⟨-, -, rfl⟩ | ⟨-, -, rfl⟩ <;> cases hclean'
    · intro hcancelled
      have hnone : s.forceAbort = none := by
        rcases htarget' with ⟨-, hworkflow, -⟩ | ⟨-, hworkflow, -⟩
        · exact hinv.forceAbort_eq_none .step (phaseGateOpen_step.mpr hworkflow)
        · exact hinv.forceAbort_eq_none .finalizer (phaseGateOpen_finalizer.mpr ⟨_, _, hworkflow⟩)
      rcases htarget' with ⟨-, -, rfl⟩ | ⟨-, -, rfl⟩ <;> simp [isCancelled, hnone] at hcancelled
    · intro issue' hissue'
      have hsame : issue' = issue := by
        rcases htarget' with ⟨-, -, rfl⟩ | ⟨-, -, rfl⟩ <;> cases hissue' <;> rfl
      subst hsame
      refine ⟨⟨events, _, _, rfl, ?_, h.clean hclean⟩, ?_, ?_⟩
      · rw [requiredIssue_nodeEvent, if_pos ⟨hpolicy, hkind⟩, hnode]
      · refine ⟨d, rt', ?_, ?_, hpolicy, ?_, ?_⟩
        · simpa [hnode] using hd
        · rw [hnode]
        · simpa [hnode] using get?_commit_self hrt rt'
        · rwa [hnode]
      · intro hrole
        rw [hnode] at hrole
        rcases htarget' with ⟨hstep, -⟩ | ⟨-, hworkflow, -⟩
        · rw [hstep] at hrole
          cases hrole
        · obtain ⟨finalization, hsome, -, htrigger, -⟩ := hinv.finalizing _ _ _ hworkflow
          refine ⟨finalization, by simpa using hsome, ?_⟩
          cases hordinary : finalization.ordinaryOutcome with
          | succeeded => rfl
          | failed | cancelled => rw [hordinary] at htrigger; cases htrigger
  | note hrt hnote =>
    exact h.silent_step hinv hstep' rfl rfl
      (by simpa using h.logged.setNode hrt hnote.1.state) (by simp)
  | passed _ hrt =>
    refine h.silent_step hinv hstep' rfl rfl ?_ (by simp)
    rw [Emission.one_events, List.append_nil]
    exact h.logged.setNode hrt rfl
  | release | operation => exact h.silent_step hinv hstep' rfl rfl (h.logged.mono rfl rfl) (by simp)
  | @cancelFinalization trigger _ _ _ _ _ _ hphase hcancel =>
    exact h.accepted_step hinv hstep' rfl hcancel (tick_definition _) (tick_steps _)
      (tick_workflow _) rfl (by cases trigger <;> rfl) (by rw [hphase]; rfl)
  | @cancelOrdinary gate _ _ _ _ _ hphase _ hcancel
  | @forceOrdinary gate _ _ _ _ hphase _ hcancel =>
    exact h.accepted_step hinv hstep' rfl hcancel (tick_definition _) (tick_steps _)
      (tick_workflow _) rfl (by cases gate <;> rfl) (by rw [hphase]; cases gate <;> rfl)
  | @forceFinalization trigger gate _ _ _ _ _ hphase _ hcancel =>
    exact h.accepted_step hinv hstep' rfl hcancel (tick_definition _) (tick_steps _)
      (tick_workflow _) rfl (by cases trigger <;> cases gate <;> rfl) (by rw [hphase]; rfl)
  | @enter outcome _ houtcome =>
    refine ⟨h.logged.mono (by simp) (by simp), ?_, ?_, ?_⟩
    · intro hclean
      refine h.clean_append (by simp [requiredIssue]) ?_
      cases outcome with
      | succeeded => exact ordinaryOutcome_clean houtcome
      | failed | cancelled => cases hclean
    · rintro (hcancelled | hforced)
      · refine h.cancelled_append ?_
        cases outcome with
        | cancelled => exact Or.inl (ordinaryOutcome_cancelled houtcome)
        | succeeded | failed =>
          refine Or.inr ?_
          cases hforced : forceAbortedOrdinary s with
          | true => exact Option.isSome_of_any hforced
          | false =>
            simp [isCancelled, RuntimeState.entryGate, hforced,
              OrdinaryOutcome.trigger] at hcancelled
      · exact h.cancelled_append (Or.inr (by simpa using hforced))
    · intro issue hissue
      refine h.carried_step hinv hstep' ?_
      rw [carriedIssue_outcome houtcome]
      exact hissue
  | @finish outcome _ _ hready =>
    refine ⟨h.logged.mono (by simp) (by simp), ?_, ?_, ?_⟩
    · intro hclean
      refine h.clean_append (by simp [requiredIssue]) ?_
      cases outcome with
      | succeeded => exact (hready.phase hinv).1 rfl
      | failed | cancelled => cases hclean
    · rintro (hcancelled | hforced)
      · refine h.cancelled_append (Or.inl ?_)
        cases outcome with
        | cancelled => exact (hready.phase hinv).2 _ rfl
        | succeeded | failed => cases hcancelled
      · exact h.cancelled_append (Or.inr (by simpa using hforced))
    · intro issue hissue
      refine h.carried_step hinv hstep' ?_
      rw [← carriedIssue_finish hinv hready]
      exact hissue

variable {definition : RuntimeDefinition} {seed : ExecutionSeed V}

theorem Reachable.issueLog (h : Reachable definition seed m s)
    (hcoherent : definition.Coherent) : IssueLog m.events s := by
  refine h.induction (I := fun m s => IssueLog m.events s)
    (initialState_issueLog definition seed) ?_
  intro o m s n t hreach hs hstep
  exact hstep.issueLog hs (hreach.phase hcoherent) (hreach.coherent hcoherent)

end ScherzoCloud.Workflow
