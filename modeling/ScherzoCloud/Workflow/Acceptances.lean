import ScherzoCloud.Workflow.IssueLog

/-!
# Accepted cancellations

A graceful cancellation of the ordinary phase, one of finalization and a force
abort are each accepted at most once, because each acceptance closes what it
cancels.
-/

namespace ScherzoCloud.Workflow

open Collections

variable {O C V D : Type} {more : List (TransitionEvent D)}

/-- An accepted cancellation of the ordinary phase. -/
def isOrdinaryAcceptance : TransitionEvent D → Bool
  | .cancellationAccepted _ _ _ => true
  | _ => false

/-- An accepted cancellation of the finalization phase. -/
def isFinalizationAcceptance : TransitionEvent D → Bool
  | .finalizationCancellationAccepted _ _ _ => true
  | _ => false

/-- An accepted force abort. -/
def isForceAcceptance : TransitionEvent D → Bool
  | .forceAbortAccepted _ _ _ => true
  | _ => false

/-- The finalization phase can still be cancelled. -/
def finalizationCancellable : WorkflowState D → Bool
  | .executing _ | .finalizing _ .open _ => true
  | _ => false

/-- Every kind of cancellation is accepted at most once. -/
structure AcceptedOnce (events : List (TransitionEvent D)) (s : RuntimeState C V D) : Prop where
  ordinary : events.countP isOrdinaryAcceptance +
    (if ordinaryCancellable s.workflow then 1 else 0) ≤ 1
  finalization : events.countP isFinalizationAcceptance +
    (if finalizationCancellable s.workflow then 1 else 0) ≤ 1
  force : events.countP isForceAcceptance + (if s.forceAbort.isNone then 1 else 0) ≤ 1
  phase : (∃ trigger gate issue, s.workflow = .finalizing trigger gate issue) ∨
    0 < events.countP isFinalizationAcceptance → s.definition.finalizerIds ≠ []

variable {events : List (TransitionEvent D)} {s t : RuntimeState C V D}

theorem countP_isAcceptance (events : List (TransitionEvent D)) :
    events.countP isAcceptance = events.countP isOrdinaryAcceptance +
      events.countP isFinalizationAcceptance + events.countP isForceAcceptance := by
  induction events with
  | nil => rfl
  | cons e events ih =>
    simp only [List.countP_cons, ih]
    cases e <;> simp [isAcceptance, isOrdinaryAcceptance, isFinalizationAcceptance,
      isForceAcceptance] <;> omega

theorem AcceptedOnce.count (h : AcceptedOnce events s) :
    events.countP isAcceptance ≤ if s.definition.finalizerIds = [] then 2 else 3 := by
  have hordinary := h.ordinary
  have hfinalization := h.finalization
  have hforce := h.force
  rw [countP_isAcceptance]
  split_ifs with hnone
  · have hzero : events.countP isFinalizationAcceptance = 0 := by
      by_contra hpos
      exact h.phase (Or.inr (Nat.pos_of_ne_zero hpos)) hnone
    omega
  · omega

theorem countP_eq_zero_of_silent (h : ∀ e ∈ events, isAcceptance e = false) :
    events.countP isOrdinaryAcceptance = 0 ∧ events.countP isFinalizationAcceptance = 0 ∧
      events.countP isForceAcceptance = 0 := by
  have hzero : events.countP isAcceptance = 0 := by
    rw [List.countP_eq_zero]
    intro e he
    rw [h e he]
    simp
  rw [countP_isAcceptance] at hzero
  omega

/-- A step keeps the counts when every acceptance closes what it cancels. -/
theorem AcceptedOnce.step (h : AcceptedOnce events s) (hdefinition : t.definition = s.definition)
    (hordinary : more.countP isOrdinaryAcceptance +
        (if ordinaryCancellable t.workflow then 1 else 0) ≤
      if ordinaryCancellable s.workflow then 1 else 0)
    (hfinalization : more.countP isFinalizationAcceptance +
        (if finalizationCancellable t.workflow then 1 else 0) ≤
      if finalizationCancellable s.workflow then 1 else 0)
    (hforce : more.countP isForceAcceptance + (if t.forceAbort.isNone then 1 else 0) ≤
      if s.forceAbort.isNone then 1 else 0)
    (hphase : t.Finalizing ∨
      0 < more.countP isFinalizationAcceptance → s.definition.finalizerIds ≠ []) :
    AcceptedOnce (events ++ more) t := by
  have hordinary' := h.ordinary
  have hfinalization' := h.finalization
  have hforce' := h.force
  refine ⟨?_, ?_, ?_, ?_⟩
  · rw [List.countP_append]
    omega
  · rw [List.countP_append]
    omega
  · rw [List.countP_append]
    omega
  · rw [hdefinition, List.countP_append]
    rintro (hfinalizing | hpos)
    · exact hphase (Or.inl hfinalizing)
    · rcases Nat.eq_zero_or_pos (more.countP isFinalizationAcceptance) with hzero | hmore
      · exact h.phase (Or.inr (by omega))
      · exact hphase (Or.inr hmore)

section

variable (h : AcceptedOnce events s) (hsilent : ∀ e ∈ more, isAcceptance e = false)
  (hdefinition : t.definition = s.definition)
include h hsilent hdefinition

/-- A step without an acceptance opens no gate. -/
theorem AcceptedOnce.quiet
    (hordinary : ordinaryCancellable t.workflow = true → ordinaryCancellable s.workflow = true)
    (hfinalization : finalizationCancellable t.workflow = true →
      finalizationCancellable s.workflow = true) (hforce : t.forceAbort = s.forceAbort)
    (hphase : t.Finalizing → s.definition.finalizerIds ≠ []) : AcceptedOnce (events ++ more) t := by
  obtain ⟨hzero, hzero', hzero''⟩ := countP_eq_zero_of_silent hsilent
  refine h.step hdefinition ?_ ?_ ?_ ?_
  · rw [hzero, zero_add]
    split_ifs with ht hs
    · rfl
    · exact absurd (hordinary ht) hs
    · exact Nat.zero_le _
    · rfl
  · rw [hzero', zero_add]
    split_ifs with ht hs
    · rfl
    · exact absurd (hfinalization ht) hs
    · exact Nat.zero_le _
    · rfl
  · rw [hzero'', hforce, zero_add]
  · rw [hzero']
    rintro (hfinalizing | hpos)
    · exact hphase hfinalizing
    · omega

theorem AcceptedOnce.frame
    (hworkflow : t.workflow = s.workflow) (hforce : t.forceAbort = s.forceAbort) :
    AcceptedOnce (events ++ more) t :=
  h.quiet hsilent hdefinition (fun ht => hworkflow ▸ ht) (fun ht => hworkflow ▸ ht) hforce
    (fun hphase => h.phase (Or.inl (hworkflow ▸ hphase)))

end

variable {u : RuntimeState C V D} {reason : CancellationReason} {deadline : D}
  {force : Option CancellationOperationId} {index : Nat} {ids : List String} {n : Emission O C V D}

/-- An acceptance is counted against the gate it closes; the nodes it contains do
not matter. -/
theorem AcceptedOnce.accepted {e : TransitionEvent D} (h : AcceptedOnce events s)
    (hcancel : CancelRun reason deadline force index ids u n t)
    (hdefinition : u.definition = s.definition)
    (hordinary : [e].countP isOrdinaryAcceptance +
        (if ordinaryCancellable u.workflow then 1 else 0) ≤
      if ordinaryCancellable s.workflow then 1 else 0)
    (hfinalization : [e].countP isFinalizationAcceptance +
        (if finalizationCancellable u.workflow then 1 else 0) ≤
      if finalizationCancellable s.workflow then 1 else 0)
    (hforce : [e].countP isForceAcceptance + (if u.forceAbort.isNone then 1 else 0) ≤
      if s.forceAbort.isNone then 1 else 0)
    (hphase : u.Finalizing ∨
      0 < [e].countP isFinalizationAcceptance → s.definition.finalizerIds ≠ []) :
    AcceptedOnce (events ++ e :: n.events) t := by
  rw [List.append_cons]
  exact (h.step hdefinition hordinary hfinalization hforce hphase).frame
    (fun e he => (hcancel.silent e he).2) hcancel.definition hcancel.frame.1 hcancel.frame.2.2

variable [ConditionOutput V] {o : Option (Occurrence O C V D)}

theorem ReducerStep.acceptedOnce (hstep : ReducerStep o s n t) (h : AcceptedOnce events s) :
    AcceptedOnce (events ++ n.events) t := by
  cases hstep with
  | node | complete | issue | note | passed => exact h.frame (by simp) (by simp) (by simp) (by simp)
  | release | operation => exact h.frame (by simp) rfl rfl rfl
  | @primaryIssue _ _ _ _ _ _ _ _ _ htarget =>
    obtain ⟨-, ⟨-, hworkflow, rfl⟩ | ⟨-, hworkflow, rfl⟩⟩ := issueTarget_spec htarget
    · refine h.quiet (by simp) (by simp) ?_ ?_ (by simp) (by simp)
      · exact fun _ => by rw [hworkflow]; rfl
      · exact fun _ => by rw [hworkflow]; rfl
    · refine h.quiet (by simp) (by simp) ?_ ?_ (by simp) ?_
      · exact fun ht => by cases ht
      · exact fun _ => by rw [hworkflow]; rfl
      · exact fun _ => h.phase (Or.inl ⟨_, _, _, hworkflow⟩)
  | @cancelOrdinary gate _ _ _ _ _ hphase hgate hcancel =>
    cases gate with
    | cancelling earlier issue => exact absurd rfl (hgate earlier issue)
    | «open» | failureStopped =>
      refine h.accepted hcancel (by simp) ?_ ?_ ?_ ?_ <;>
        simp [RuntimeState.closeOrdinary, hphase, ordinaryCancellable,
          finalizationCancellable, isOrdinaryAcceptance, isFinalizationAcceptance,
          isForceAcceptance]
  | @cancelFinalization _ _ _ _ _ _ _ hphase hcancel =>
    have hids := h.phase (Or.inl ⟨_, _, _, hphase⟩)
    refine h.accepted hcancel (by simp) ?_ ?_ ?_
      (fun _ => hids) <;>
      simp [RuntimeState.closeFinalization, hphase, ordinaryCancellable,
        finalizationCancellable, isOrdinaryAcceptance, isFinalizationAcceptance,
        isForceAcceptance]
  | @forceOrdinary gate _ _ _ _ hphase hfirst hcancel =>
    refine h.accepted hcancel (by simp) ?_ ?_ ?_ ?_ <;>
      cases gate <;>
      simp [RuntimeState.forceOrdinary, forcedGate, hphase, hfirst, ordinaryCancellable,
        finalizationCancellable, isOrdinaryAcceptance, isFinalizationAcceptance,
        isForceAcceptance]
  | @forceFinalization _ gate _ _ _ _ _ hphase hfirst hcancel =>
    have hids := h.phase (Or.inl ⟨_, _, _, hphase⟩)
    refine h.accepted hcancel (by simp) ?_ ?_ ?_
      (fun _ => hids) <;>
      cases gate <;>
      simp [RuntimeState.forceFinalization, forcedFinalizationGate, hphase, hfirst,
        ordinaryCancellable, finalizationCancellable, isOrdinaryAcceptance,
        isFinalizationAcceptance, isForceAcceptance]
  | @enter _ _ houtcome hfinalizers =>
    obtain ⟨gate, hworkflow⟩ := ordinaryOutcome_executing houtcome
    refine h.quiet (by simp) (by simp) ?_ ?_ (by simp) (fun _ => hfinalizers)
    · exact fun ht => by cases ht
    · exact fun _ => by rw [hworkflow]; rfl
  | @finish outcome =>
    refine h.quiet (by simp) (by simp) ?_ ?_ (by simp) ?_
    · exact fun ht => by cases outcome <;> cases ht
    · exact fun ht => by cases outcome <;> cases ht
    · rintro ⟨trigger, gate, issue, hfinalizing⟩
      cases outcome <;> cases hfinalizing

variable {definition : RuntimeDefinition} {seed : ExecutionSeed V} {m : Emission O C V D}

theorem Reachable.acceptedOnce (h : Reachable definition seed m s) : AcceptedOnce m.events s := by
  refine h.induction (I := fun m s => AcceptedOnce m.events s) ?_ ?_
  · exact ⟨by simp [initialState, ordinaryCancellable],
      by simp [initialState, finalizationCancellable], by simp [initialState],
      by simp [initialState]⟩
  · intro o m s n t _ hs hstep
    exact hstep.acceptedOnce hs

/-- A run accepts at most two cancellations, or three when it has finalizers. -/
theorem Reachable.acceptances (h : Reachable definition seed m s) :
    m.events.countP isAcceptance ≤ if definition.finalizerIds = [] then 2 else 3 := by
  rw [← h.definition_eq]
  exact h.acceptedOnce.count

end ScherzoCloud.Workflow
