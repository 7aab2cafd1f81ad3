import ScherzoCloud.Workflow.Acceptances

/-!
# What a step does to the phase

`ReducerStep.phaseChange` is the view of a step from the workflow state: it emits
step events only and leaves workflow state, finalization record and force abort
alone, or it emits one event about the run and changes them as the event says.
What an observer can rebuild from the events is proved by cases on it.
-/

namespace ScherzoCloud.Workflow

open Collections

variable {O C V D : Type} {s t : RuntimeState C V D} {m : Emission O C V D}
  {reason : CancellationReason} {force : Option CancellationOperationId} {index : Nat}
  {ids : List String} {e : TransitionEvent D} {o : Option (Occurrence O C V D)}
  {outcome : OrdinaryOutcome}

section PhaseChange

/-- The changes of workflow state, finalization record and force abort that one
event about the run stands for. -/
inductive PhaseMove (s : RuntimeState C V D) :
    TransitionEvent D → WorkflowState D →
    Option (FinalizationRuntime D) → Option ForceAbortEvidence → Prop
  | issue {sequence : TransitionSequence} {d : RuntimeStep} {issue : PrimaryIssue}
      {workflow : WorkflowState D}
      (htarget : issueTarget s.workflow d issue = some workflow) :
      PhaseMove s (.workflow sequence s.workflow workflow) workflow s.finalization s.forceAbort
  | cancelOrdinary {sequence : TransitionSequence} {gate : SchedulingGate}
      {reason : CancellationReason} {deadline : D}
      (hphase : s.workflow = .executing gate)
      (hgate : ∀ earlier issue, gate ≠ .cancelling earlier issue) :
      PhaseMove s (.cancellationAccepted sequence reason deadline)
        (.executing (.cancelling reason (priorIssue gate))) s.finalization s.forceAbort
  | cancelFinalization {sequence : TransitionSequence} {trigger : FinalizationTrigger}
      {issue : Option PrimaryIssue} {reason : CancellationReason} {deadline : D}
      (hphase : s.workflow = .finalizing trigger .open issue) :
      PhaseMove s (.finalizationCancellationAccepted sequence reason deadline)
        (.finalizing trigger (.cancelling reason (some deadline) false) issue)
        (s.finalization.map (fun (finalization : FinalizationRuntime D) =>
          { finalization with cancellation := some ⟨reason, some deadline⟩ })) s.forceAbort
  | forceOrdinary {sequence : TransitionSequence} {gate : SchedulingGate}
      (hphase : s.workflow = .executing gate) (hfirst : s.forceAbort = none) :
      PhaseMove s (.forceAbortAccepted sequence .forceAbort .ordinary)
        (.executing (forcedGate gate)) s.finalization (some ⟨.forceAbort, .ordinary⟩)
  | forceFinalization {sequence : TransitionSequence} {trigger : FinalizationTrigger}
      {gate : FinalizationGate D} {issue : Option PrimaryIssue}
      (hphase : s.workflow = .finalizing trigger gate issue) (hfirst : s.forceAbort = none) :
      PhaseMove s (.forceAbortAccepted sequence .forceAbort .finalization)
        (.finalizing trigger (forcedFinalizationGate gate) issue)
        (s.finalization.map (fun (finalization : FinalizationRuntime D) =>
          { finalization with
            forceAbort := true
            cancellation := finalization.cancellation.or (some ⟨.forceAbort, none⟩) }))
        (some ⟨.forceAbort, .finalization⟩)
  | enter {sequence : TransitionSequence} {outcome : OrdinaryOutcome}
      (hsettled : allSettled s .step = true) (houtcome : ordinaryOutcome s = some outcome)
      (hfinalizers : s.definition.finalizerIds ≠ []) :
      PhaseMove s (.workflow sequence s.workflow
          (.finalizing outcome.trigger s.entryGate outcome.primaryIssue))
        (.finalizing outcome.trigger s.entryGate outcome.primaryIssue)
        (some (s.entryRuntime outcome)) s.forceAbort
  | finish {sequence : TransitionSequence} {outcome : OrdinaryOutcome}
      {summary : Option (FinalizationSummary D)}
      (hready : FinishReady s outcome summary) :
      PhaseMove s (.workflow sequence s.workflow outcome.workflowState) outcome.workflowState
        s.finalization s.forceAbort

/-- The possible effects of one step on the phase. -/
inductive PhaseChange (s : RuntimeState C V D)
    (events : List (TransitionEvent D)) (t : RuntimeState C V D) : Prop
  | quiet (hevents : ∀ e ∈ events, isStepEvent e = true) (hworkflow : t.workflow = s.workflow)
      (hfinalization : t.finalization = s.finalization) (hforce : t.forceAbort = s.forceAbort)
  | move {e : TransitionEvent D} {before after : List (TransitionEvent D)}
      (hsplit : events = before ++ e :: after)
      (hbefore : ∀ e ∈ before, isStepEvent e = true)
      (hafter : ∀ e ∈ after, isStepEvent e = true)
      (hmove : PhaseMove s e t.workflow t.finalization t.forceAbort)

@[simp] theorem isStepEvent_nodeEvent {id : String} {d : RuntimeStep}
    {rt rt' : StepRuntimeState C V} : isStepEvent (nodeEvent s id d rt rt') = true := rfl

/-- An acceptance is followed by the events of the nodes it contains. -/
theorem CancelRun.phaseChange {deadline : D} {u : RuntimeState C V D}
    (h : CancelRun reason deadline force index ids u.tick m t)
    (hmove : PhaseMove s e u.workflow u.finalization u.forceAbort) :
    PhaseChange s (e :: m.events) t := by
  obtain ⟨hworkflow, hfinalization, hforce⟩ := h.frame
  refine .move (List.nil_append _).symm (by simp) (fun e he => ?_) ?_
  · obtain ⟨_, _, _, _, _, _, _, rfl, -⟩ := h.mem_events he
    rfl
  · rw [hworkflow, hfinalization, hforce]
    simpa using hmove

variable [ConditionOutput V]

theorem ReducerStep.phaseChange (hstep : ReducerStep o s m t) : PhaseChange s m.events t := by
  cases hstep with
  | node | complete | issue | note | passed => exact .quiet (by simp) (by simp) (by simp) (by simp)
  | release | operation => exact .quiet (by simp) rfl rfl rfl
  | @primaryIssue _ _ _ _ issue _ _ _ _ htarget =>
    refine .move (show [_, _] = [_] ++ _ :: [] from rfl) (by simp) (by simp) ?_
    simpa using PhaseMove.issue (s := s) htarget
  | cancelOrdinary hphase hgate hcancel =>
    exact hcancel.phaseChange (.cancelOrdinary hphase hgate)
  | cancelFinalization hphase hcancel =>
    exact hcancel.phaseChange (.cancelFinalization hphase)
  | forceOrdinary hphase hfirst hcancel =>
    exact hcancel.phaseChange (.forceOrdinary hphase hfirst)
  | forceFinalization hphase hfirst hcancel =>
    exact hcancel.phaseChange (.forceFinalization hphase hfirst)
  | enter hsettled houtcome hfinalizers =>
    refine .move (List.nil_append _).symm (by simp) (by simp) ?_
    simpa using PhaseMove.enter (s := s) hsettled houtcome hfinalizers
  | finish hready =>
    refine .move (List.nil_append _).symm (by simp) (by simp) ?_
    simpa using PhaseMove.finish (s := s) hready

end PhaseChange

/-- The reason of an accepted cancellation. -/
def acceptedReason : TransitionEvent D → Option CancellationReason
  | .cancellationAccepted _ reason _ | .finalizationCancellationAccepted _ reason _
  | .forceAbortAccepted _ reason _ => some reason
  | .step _ _ _ _ _ _ | .workflow _ _ _ => none

def SchedulingGate.cancellation : SchedulingGate → Option CancellationReason
  | .cancelling reason _ => some reason
  | .open | .failureStopped _ => none

def FinalizationGate.cancellation : FinalizationGate D → Option CancellationReason
  | .cancelling reason _ _ => some reason
  | .open => none

/-- The cancellation that a run carries into its outcome. -/
def carriedCancellation (s : RuntimeState C V D) : Option CancellationReason :=
  match s.workflow with
  | .executing gate => gate.cancellation
  | .finalizing _ _ _ => s.finalization.bind (fun finalization =>
    finalization.ordinaryOutcome.cancellation.or
      (finalization.cancellation.map FinalizationCancellation.reason))
  | .succeeded => none
  | .failed _ later => later
  | .cancelled reason => some reason

/-- The carried cancellation is the first accepted one, no other one precedes that of
the ordinary phase, and the gate of the finalization phase agrees with the record. -/
structure CancellationTrace (events : List (TransitionEvent D))
    (s : RuntimeState C V D) : Prop where
  first : carriedCancellation s = events.findSome? acceptedReason
  ordinary : ∀ e ∈ events, isOrdinaryAcceptance e = true → events.find? isAcceptance = some e
  gate : ∀ trigger gate issue finalization, s.workflow = .finalizing trigger gate issue →
    s.finalization = some finalization →
    finalization.cancellation.map FinalizationCancellation.reason = gate.cancellation

variable {events : List (TransitionEvent D)}

theorem acceptedReason_of_step (h : isStepEvent e = true) : acceptedReason e = none := by
  cases e <;> first | rfl | cases h

theorem findSome?_of_steps {α : Type} {f : TransitionEvent D → Option α}
    (hf : ∀ e, isStepEvent e = true → f e = none)
    (h : ∀ e ∈ events, isStepEvent e = true) : events.findSome? f = none := by
  rw [List.findSome?_eq_none_iff]
  exact fun e he => hf e (h e he)

theorem acceptedReason_isSome (e : TransitionEvent D) :
    (acceptedReason e).isSome = isAcceptance e := by
  cases e <;> rfl

theorem isOrdinaryAcceptance_of_step (h : isStepEvent e = true) :
    isOrdinaryAcceptance e = false := by
  cases e <;> first | rfl | cases h

/-- An ordinary cancellation is refused once the ordinary phase is being cancelled. -/
theorem PhaseMove.ordinary_first {workflow : WorkflowState D}
    {record : Option (FinalizationRuntime D)} {force : Option ForceAbortEvidence}
    (h : PhaseMove s e workflow record force) (he : isOrdinaryAcceptance e = true) :
    carriedCancellation s = none := by
  cases h with
  | @cancelOrdinary _ gate _ _ hphase hgate =>
    cases gate with
    | cancelling earlier issue => exact absurd rfl (hgate earlier issue)
    | «open» | failureStopped => simp [carriedCancellation, hphase, SchedulingGate.cancellation]
  | issue | cancelFinalization | forceOrdinary | forceFinalization | enter | finish => cases he

theorem ordinaryOutcome_cancellation (h : ordinaryOutcome s = some outcome) :
    carriedCancellation s = outcome.cancellation := by
  unfold ordinaryOutcome at h
  unfold carriedCancellation
  split at h <;> rename_i hworkflow <;> rw [hworkflow] <;> cases h <;> rfl

theorem carriedCancellation_workflowState (outcome : OrdinaryOutcome)
    (h : s.workflow = outcome.workflowState) : carriedCancellation s = outcome.cancellation := by
  unfold carriedCancellation
  rw [h]
  cases outcome <;> rfl

/-- The outcome with which `execute_workflow` returns. -/
def executionOutcome : WorkflowState D → Option RunOutcome
  | .succeeded => some .succeeded
  | .failed primaryIssue laterCancellation => some (.failed primaryIssue laterCancellation)
  | .cancelled reason => some (.cancelled reason)
  | .executing _ | .finalizing _ _ _ => none

def RunOutcome.cancellation : RunOutcome → Option CancellationReason
  | .failed _ laterCancellation => laterCancellation
  | .cancelled reason => some reason
  | .succeeded => none

theorem findSome?_acceptedReason (events : List (TransitionEvent D)) :
    events.findSome? acceptedReason = (events.find? isAcceptance).bind acceptedReason := by
  induction events with
  | nil => rfl
  | cons e events ih =>
    rw [List.findSome?_cons, List.find?_cons, ← acceptedReason_isSome, ih]
    cases hreason : acceptedReason e with
    | none => rfl
    | some => simp [hreason]

theorem executionOutcome_cancellation {outcome : RunOutcome}
    (h : executionOutcome s.workflow = some outcome) :
    outcome.cancellation = carriedCancellation s := by
  unfold carriedCancellation
  cases hworkflow : s.workflow <;> rw [hworkflow] at h <;> cases h <;> rfl

/-- The composed outcome has the carried cancellation. -/
theorem CancellationTrace.composed {finalization : FinalizationRuntime D}
    (h : CancellationTrace events s) (hphase : s.Finalizing)
    (hfinalization : s.finalization = some finalization) :
    (composeFinalOutcome s finalization).cancellation = carriedCancellation s := by
  obtain ⟨trigger, gate, issue, hworkflow⟩ := hphase
  have hgate := h.gate trigger gate issue finalization hworkflow hfinalization
  unfold composeFinalOutcome carriedCancellation
  rw [hworkflow, hfinalization]
  cases houtcome : finalization.ordinaryOutcome with
  | failed | cancelled => simp [houtcome, OrdinaryOutcome.cancellation]
  | succeeded =>
    cases issue with
    | some => simp [houtcome, OrdinaryOutcome.cancellation]
    | none =>
      cases gate <;>
        simp [houtcome, OrdinaryOutcome.cancellation, hgate, FinalizationGate.cancellation]

/-- A force abort of the ordinary phase closes its gate, so the outcome that enters
finalization carries a cancellation. -/
theorem PhaseInvariant.forced_outcome (hinv : PhaseInvariant s)
    (houtcome : ordinaryOutcome s = some outcome) (hforced : forceAbortedOrdinary s = true) :
    outcome.cancellation.isSome = true := by
  have hsome : s.forceAbort.isSome = true := by
    unfold forceAbortedOrdinary at hforced
    cases hforce : s.forceAbort with
    | none => rw [hforce] at hforced; cases hforced
    | some => rfl
  obtain ⟨hopen, -, hstopped⟩ := hinv.forced hsome
  obtain ⟨gate, hworkflow⟩ := ordinaryOutcome_executing houtcome
  unfold ordinaryOutcome at houtcome
  rw [hworkflow] at houtcome
  cases gate with
  | «open» => simp [phaseGateOpen, hworkflow] at hopen
  | failureStopped => simp [failureStopped, hworkflow] at hstopped
  | cancelling _ issue => cases issue <;> cases houtcome <;> rfl

/-- What an event about the run does to the carried cancellation and to the gate. -/
theorem CancellationTrace.move (h : CancellationTrace events s) (hinv : PhaseInvariant s)
    (hmove : PhaseMove s e t.workflow t.finalization t.forceAbort) :
    carriedCancellation t = (carriedCancellation s).or (acceptedReason e) ∧
      ∀ trigger gate issue finalization, t.workflow = .finalizing trigger gate issue →
        t.finalization = some finalization →
        finalization.cancellation.map FinalizationCancellation.reason = gate.cancellation := by
  generalize hworkflow : t.workflow = workflow at hmove ⊢
  generalize hfinalization : t.finalization = record at hmove ⊢
  generalize t.forceAbort = force at hmove
  cases hmove with
  | issue htarget =>
    obtain ⟨-, ⟨-, hphase, rfl⟩ | ⟨-, hphase, rfl⟩⟩ := issueTarget_spec htarget
    · refine ⟨?_, fun _ _ _ _ hfinalizing => by cases hfinalizing⟩
      simp [carriedCancellation, hworkflow, hphase, SchedulingGate.cancellation, acceptedReason]
    · refine ⟨?_, ?_⟩
      · simp [carriedCancellation, hworkflow, hphase, hfinalization, acceptedReason]
      · rintro trigger gate issue finalization hfinalizing hsome
        cases hfinalizing
        exact h.gate _ _ _ finalization hphase hsome
  | @cancelOrdinary _ gate _ _ hphase hgate =>
    refine ⟨?_, fun _ _ _ _ hfinalizing => by cases hfinalizing⟩
    cases gate with
    | cancelling earlier issue => exact absurd rfl (hgate earlier issue)
    | «open» | failureStopped =>
      simp [carriedCancellation, hworkflow, hphase, SchedulingGate.cancellation, acceptedReason]
  | @cancelFinalization _ _ _ _ _ hphase =>
    obtain ⟨finalization, hsome, -⟩ := hinv.finalizing _ _ _ hphase
    have hopen := h.gate _ _ _ finalization hphase hsome
    rw [hsome, Option.map_some] at hfinalization
    refine ⟨?_, ?_⟩
    · simp [carriedCancellation, hworkflow, hphase, hfinalization, hsome, acceptedReason, hopen,
        FinalizationGate.cancellation]
    · rintro _ _ _ _ hfinalizing hsome'
      rw [hsome] at hsome'
      cases hfinalizing
      cases hsome'
      rfl
  | @forceOrdinary _ gate hphase =>
    refine ⟨?_, fun _ _ _ _ hfinalizing => by cases hfinalizing⟩
    cases gate <;>
      simp [carriedCancellation, hworkflow, hphase, SchedulingGate.cancellation, forcedGate,
        acceptedReason]
  | @forceFinalization _ _ gate _ hphase =>
    obtain ⟨finalization, hsome, -⟩ := hinv.finalizing _ _ _ hphase
    have hopen := h.gate _ _ _ finalization hphase hsome
    rw [hsome, Option.map_some] at hfinalization
    refine ⟨?_, ?_⟩
    · simp only [carriedCancellation, hworkflow, hphase, hfinalization, hsome, acceptedReason,
        Option.bind_some, Option.or_assoc]
      cases finalization.cancellation <;> rfl
    · rintro _ _ _ _ hfinalizing hsome'
      rw [hsome] at hsome'
      cases hfinalizing
      cases hsome'
      cases gate <;> cases hcancellation : finalization.cancellation <;>
        simp_all [FinalizationGate.cancellation, forcedFinalizationGate]
  | @enter _ _ _ houtcome =>
    refine ⟨?_, ?_⟩
    · rw [ordinaryOutcome_cancellation houtcome]
      simp only [carriedCancellation, hworkflow, hfinalization, Option.bind_some,
        RuntimeState.entryRuntime, acceptedReason, Option.or_none]
      split_ifs with hforced
      · obtain ⟨reason, hreason⟩ := Option.isSome_iff_exists.mp
          (hinv.forced_outcome houtcome hforced)
        rw [hreason]
        rfl
      · simp
    · rintro _ _ _ _ hfinalizing hsome
      cases hfinalizing
      cases hsome
      unfold RuntimeState.entryRuntime RuntimeState.entryGate
      dsimp only
      split_ifs <;> rfl
  | @finish _ outcome _ hready =>
    refine ⟨?_, ?_⟩
    · rw [carriedCancellation_workflowState outcome hworkflow]
      cases hready with
      | ordinary _ houtcome =>
        rw [ordinaryOutcome_cancellation houtcome]
        simp [acceptedReason]
      | finalization hphase _ hsome =>
        rw [h.composed hphase hsome]
        simp [acceptedReason]
    · intro _ _ _ _ hfinalizing
      cases outcome <;> cases hfinalizing

theorem isAcceptance_of_ordinary (h : isOrdinaryAcceptance e = true) : isAcceptance e = true := by
  cases e <;> first | rfl | cases h

theorem find?_isAcceptance_of_steps (h : ∀ e ∈ events, isStepEvent e = true) :
    events.find? isAcceptance = none := by
  rw [List.find?_eq_none]
  intro e he
  rw [← acceptedReason_isSome, acceptedReason_of_step (h e he)]
  simp

/-- An ordinary cancellation among later events comes first when none was carried
before them. -/
theorem CancellationTrace.ordinary_append {more : List (TransitionEvent D)}
    (h : CancellationTrace events s) (hmore : ∀ e ∈ more, isOrdinaryAcceptance e = true →
      carriedCancellation s = none ∧ more.find? isAcceptance = some e) :
    ∀ e ∈ events ++ more, isOrdinaryAcceptance e = true →
      (events ++ more).find? isAcceptance = some e := by
  intro e he haccepted
  rw [List.find?_append]
  rcases List.mem_append.mp he with he | he
  · rw [h.ordinary e he haccepted, Option.some_or]
  · obtain ⟨hnone, hfirst⟩ := hmore e he haccepted
    rw [h.first, List.findSome?_eq_none_iff] at hnone
    have hquiet : events.find? isAcceptance = none := by
      rw [List.find?_eq_none]
      intro e' he'
      rw [← acceptedReason_isSome, hnone e' he']
      simp
    rw [hquiet, hfirst, Option.none_or]

variable [ConditionOutput V]

theorem ReducerStep.cancellationTrace (hstep : ReducerStep o s m t) (hinv : PhaseInvariant s)
    (h : CancellationTrace events s) : CancellationTrace (events ++ m.events) t := by
  cases hstep.phaseChange with
  | quiet hevents hworkflow hfinalization =>
    refine ⟨?_, h.ordinary_append (fun e he haccepted => ?_), ?_⟩
    · rw [List.findSome?_append, findSome?_of_steps (fun _ => acceptedReason_of_step) hevents,
        Option.or_none, ← h.first, carriedCancellation, carriedCancellation, hworkflow,
        hfinalization]
    · rw [isOrdinaryAcceptance_of_step (hevents e he)] at haccepted
      cases haccepted
    · rw [hworkflow, hfinalization]
      exact h.gate
  | @move _ _ _ hsplit hbefore hafter hmove =>
    obtain ⟨hcarried, hgate⟩ := h.move hinv hmove
    refine ⟨?_, ?_, hgate⟩
    · rw [hcarried, h.first, hsplit, List.findSome?_append, List.findSome?_append,
        List.findSome?_cons, findSome?_of_steps (fun _ => acceptedReason_of_step) hbefore,
        findSome?_of_steps (fun _ => acceptedReason_of_step) hafter]
      cases acceptedReason _ <;> rfl
    · refine h.ordinary_append (fun e' he' haccepted => ?_)
      rw [hsplit, List.mem_append, List.mem_cons] at he'
      rcases he' with he' | rfl | he'
      · rw [isOrdinaryAcceptance_of_step (hbefore e' he')] at haccepted
        cases haccepted
      · refine ⟨hmove.ordinary_first haccepted, ?_⟩
        rw [hsplit, List.find?_append, List.find?_cons_of_pos (isAcceptance_of_ordinary haccepted),
          find?_isAcceptance_of_steps hbefore, Option.none_or]
      · rw [isOrdinaryAcceptance_of_step (hafter e' he')] at haccepted
        cases haccepted

/-- The cancellation a run carries into its outcome is the first one it accepted. -/
theorem Reachable.cancellationTrace {definition : RuntimeDefinition} {seed : ExecutionSeed V}
    (h : Reachable definition seed m s) (hcoherent : definition.Coherent) :
    CancellationTrace m.events s := by
  refine h.induction (I := fun m s => CancellationTrace m.events s) ?_ ?_
  · exact ⟨rfl, by simp, fun _ _ _ _ hfinalizing => by cases hfinalizing⟩
  · intro o m s n t hreach hs hstep
    exact hstep.cancellationTrace (hreach.phase hcoherent) hs

end ScherzoCloud.Workflow
