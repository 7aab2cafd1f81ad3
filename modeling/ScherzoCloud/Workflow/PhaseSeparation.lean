import ScherzoCloud.Workflow.Exports
import ScherzoCloud.Workflow.Stabilization

/-!
# The two phases of a run do not overlap

Ordinary steps move before finalization is entered and finalizers after it.  The
separation is read off the log, where one event enters finalization, and off the
states.  Finalizers that the trigger does not select are settled in the pass
after the entry, before any of them could be cancelled.
-/

namespace ScherzoCloud.Workflow

open Collections
open RuntimeState (get?_commit_self advance_steps tick_steps tick_workflow advance_definition
  tick_finalization)

variable {O C V D : Type} {s t : RuntimeState C V D} {id : String} {d : RuntimeStep}
  {rt rt' : StepRuntimeState C V} {m n : Emission O C V D} {reason : CancellationReason}
  {force : Option CancellationOperationId} {index : Nat} {ids : List String}
  {o : Option (Occurrence O C V D)} {actions : List (RequestedAction O C V D)}
  {issue : PrimaryIssue} {definition : RuntimeDefinition} {seed : ExecutionSeed V}
  {finalization : FinalizationRuntime D} {r run : Reduction O C V D} {start : ExecutionStart D}

section Slots

/-- A node that was not active before takes no slot when it is updated. -/
theorem activeCount_commit_le (hrt : s.steps.get? id = some rt)
    (hactive : rt'.state.isActive = true → rt.state.isActive = true) :
    activeCount (s.commit id rt') ≤ activeCount s := by
  have hcount := activeCount_commit hrt rt'
  cases h : rt'.state.isActive with
  | false =>
    rw [h] at hcount
    simp only [Bool.false_eq_true, if_false] at hcount
    omega
  | true =>
    rw [h, hactive h] at hcount
    omega

theorem activeCount_setNode_eq (hrt : s.steps.get? id = some rt) (hstate : rt'.state = rt.state) :
    activeCount (s.setNode id rt') = activeCount s := by
  have hcount := activeCount_setNode hrt rt'
  rw [hstate] at hcount
  omega

theorem CancelRun.slots {deadline : D} (h : CancelRun reason deadline force index ids s m t) :
    activeCount t ≤ activeCount s := by
  induction h with
  | nil => exact Nat.le_refl _
  | cons hmove _ ih =>
    refine ih.trans ?_
    cases hmove with
    | drop _ hrt => exact activeCount_commit_le hrt nofun
    | contain _ hrt hstate =>
      refine activeCount_commit_le hrt (fun _ => ?_)
      rcases hstate with (h | h | h) | ⟨round, activity, h⟩ <;> rw [h] <;> rfl
    | escalate hrt => exact Nat.le_of_eq (activeCount_setNode_eq hrt rfl)
    | pass => exact Nat.le_refl _

theorem activeCount_initialState (definition : RuntimeDefinition) (seed : ExecutionSeed V) :
    activeCount (initialState definition seed : RuntimeState C V D) = 0 := by
  unfold activeCount
  rw [List.length_eq_zero_iff, List.filter_eq_nil_iff]
  intro rt hmem
  obtain ⟨id, hrt⟩ := BTreeMap.mem_values_iff.mp hmem
  simp only [initialState, BTreeMap.get?_mapWithKey, Option.map_eq_some_iff] at hrt
  obtain ⟨d, -, rfl⟩ := hrt
  unfold initialStep
  dsimp only
  split <;> exact Bool.false_ne_true

variable [ConditionOutput V]

/-- Only a start takes a slot. -/
theorem NodeMove.slots (h : NodeMove o s id d rt rt' actions) :
    activeCount s < s.definition.maximumParallelSteps ∨
      (rt'.state.isActive = true → rt.state.isActive = true) := by
  have hruns : rt.RunsTarget → rt.state.isActive = true := by
    rintro (h | h | h) <;> rw [h] <;> rfl
  cases h with
  | start _ _ _ _ hslot => exact Or.inl hslot
  | retry _ _ htarget | recover _ _ htarget => exact Or.inr (fun _ => hruns htarget)
  | recheck _ _ _ _ hstate | run hstate | capture _ hstate | handlerRunning _ hstate =>
    exact Or.inr (fun _ => by rw [hstate]; rfl)
  | succeed | skip | failureStop | notSelected | forcedCancel | quiesce => exact Or.inr nofun

theorem IssueMove.slots (h : IssueMove s id d rt rt' issue) : rt'.state.isActive = false := by
  cases h <;> rfl

theorem ReducerStep.slots (hstep : ReducerStep o s m t)
    (h : activeCount s ≤ s.definition.maximumParallelSteps) :
    activeCount t ≤ t.definition.maximumParallelSteps := by
  rw [hstep.definition]
  have hissue : ∀ {id : String} {d : RuntimeStep} {rt rt' : StepRuntimeState C V}
      {issue : PrimaryIssue}, s.steps.get? id = some rt → IssueMove s id d rt rt' issue →
      activeCount (s.commit id rt') ≤ s.definition.maximumParallelSteps := by
    intro id d rt rt' issue hrt hmove
    refine (activeCount_commit_le hrt (fun hactive => ?_)).trans h
    rw [hmove.slots] at hactive
    cases hactive
  cases hstep with
  | @node _ _ _ rt' _ _ hrt hmove =>
    rcases hmove.slots with hslot | hactive
    · have hcount := activeCount_commit hrt rt'
      split_ifs at hcount <;> omega
    · exact (activeCount_commit_le hrt hactive).trans h
  | @complete id _ rt _ hrt hstate =>
    have hcapturing : activeCount (s.commit id (rt.dropped .capturingOutputs)) ≤ activeCount s :=
      activeCount_commit_le hrt (fun _ => by rw [hstate]; rfl)
    refine Nat.le_trans (activeCount_commit_le (get?_commit_self hrt _) ?_) (hcapturing.trans h)
    exact nofun
  | issue _ hrt hmove => exact hissue hrt hmove
  | primaryIssue _ hrt hmove =>
    rw [activeCount_congr (advance_steps _ _)]
    exact hissue hrt hmove
  | note hrt hnote =>
    rw [activeCount_setNode_eq hrt hnote.1.state]
    exact h
  | @passed id _ rt _ _ hrt =>
    have hcount : activeCount (s.setNode id { rt with conditionPassed := true }) =
        activeCount s := activeCount_setNode_eq hrt rfl
    exact hcount ▸ h
  | release | operation => exact h
  | cancelOrdinary _ _ hcancel | cancelFinalization _ hcancel | forceOrdinary _ _ hcancel
  | forceFinalization _ _ hcancel =>
    exact hcancel.slots.trans ((Nat.le_of_eq (activeCount_congr (tick_steps _))).trans h)
  | enter | finish =>
    refine (Nat.le_of_eq (activeCount_congr ?_)).trans h
    simp

/-- Active nodes fit in the slots of the definition. -/
theorem Reachable.slots (h : Reachable definition seed m s) :
    activeCount s ≤ definition.maximumParallelSteps := by
  rw [← h.definition_eq]
  refine h.invariant (I := fun s => activeCount s ≤ s.definition.maximumParallelSteps) ?_
    (fun _ _ _ _ _ hs hstep => hstep.slots hs)
  rw [activeCount_initialState]
  exact Nat.zero_le _

end Slots

section Finishing

/-- The action ends the run. -/
def finishesRun (a : RequestedAction O C V D) : Bool :=
  match a.action with
  | .finishRun _ _ => true
  | _ => false

theorem finishesRun_of_work {a : RequestedAction O C V D} (h : workTarget a = some id) :
    finishesRun a = false := by
  obtain ⟨action, work⟩ := a
  cases work <;> first | rfl | cases h

theorem FinishReady.unfinished {outcome : OrdinaryOutcome}
    {summary : Option (FinalizationSummary D)} (h : FinishReady s outcome summary) :
    s.workflow.isTerminal = false := by
  cases h with
  | ordinary _ houtcome =>
    obtain ⟨gate, hworkflow⟩ := ordinaryOutcome_executing houtcome
    rw [hworkflow]
    rfl
  | finalization hphase =>
    obtain ⟨trigger, gate, issue, hworkflow⟩ := hphase
    rw [hworkflow]
    rfl

variable [ConditionOutput V]

/-- The end of a run is requested by the step that finishes it. -/
theorem ReducerStep.finishedOnce (hstep : ReducerStep o s m t) :
    m.actions.countP finishesRun + (if s.workflow.isTerminal then 1 else 0) =
      if t.workflow.isTerminal then 1 else 0 := by
  -- a step that requests no end and does not finish the run
  have hkept : (∀ a ∈ m.actions, finishesRun a = false) →
      t.workflow.isTerminal = s.workflow.isTerminal →
      m.actions.countP finishesRun + (if s.workflow.isTerminal then 1 else 0) =
        if t.workflow.isTerminal then 1 else 0 := by
    intro hnone hsame
    rw [List.countP_eq_zero.mpr (by simpa using hnone), hsame, Nat.zero_add]
  cases hstep with
  | node _ _ hmove =>
    refine hkept (fun a ha => ?_) (by simp)
    exact finishesRun_of_work (hmove.eq_singleton ha).2
  | complete | issue => exact hkept (fun _ ha => by cases ha) (by simp)
  | primaryIssue _ _ _ htarget =>
    refine hkept (fun _ ha => by cases ha) ?_
    obtain ⟨-, ⟨-, hworkflow, rfl⟩ | ⟨-, hworkflow, rfl⟩⟩ := issueTarget_spec htarget <;>
    · rw [hworkflow]
      rfl
  | note | passed | operation => exact hkept (fun _ ha => by cases ha) rfl
  | release => exact hkept (fun a ha => by rw [List.mem_singleton.mp ha]; rfl) rfl
  | cancelOrdinary hphase _ hcancel | cancelFinalization hphase hcancel
  | forceOrdinary hphase _ hcancel | forceFinalization hphase _ hcancel =>
    refine hkept (fun a ha => ?_) ?_
    · obtain ⟨number, id, active, rfl | rfl⟩ := hcancel.mem_actions ha <;> rfl
    · rw [hcancel.frame.1.trans (tick_workflow _), hphase]
      rfl
  | enter _ houtcome =>
    obtain ⟨gate, hworkflow⟩ := ordinaryOutcome_executing houtcome
    refine hkept (fun _ ha => by cases ha) ?_
    rw [hworkflow]
    rfl
  | @finish outcome _ _ hready =>
    have hterminal : (outcome.workflowState : WorkflowState D).isTerminal = true := by
      cases outcome <;> rfl
    rw [hready.unfinished]
    dsimp only
    rw [RuntimeState.advance_workflow, hterminal]
    rfl

/-- A run has requested its end if it has finished, and has done so once. -/
theorem Reachable.finishedOnce (h : Reachable definition seed m s) :
    m.actions.countP finishesRun = if s.workflow.isTerminal then 1 else 0 := by
  refine h.induction (I := fun m s => m.actions.countP finishesRun =
    if s.workflow.isTerminal then 1 else 0) rfl ?_
  intro o m s n t _ hs hstep
  have hcount := hstep.finishedOnce
  rw [Emission.mul_actions, List.countP_append, hs, Nat.add_comm]
  exact hcount

end Finishing

section Log

/-- The role of the node that an event is about. -/
def TransitionEvent.nodeRole : TransitionEvent D → Option WorkflowNodeRole
  | .step _ _ role _ _ _ => some role
  | _ => none

/-- The event that enters finalization. -/
def entersFinalization : TransitionEvent D → Bool
  | .workflow _ (.executing _) (.finalizing _ _ _) => true
  | _ => false

/-- The phase that moves the nodes of a role. -/
def inPhaseOf : WorkflowNodeRole → WorkflowState D → Bool
  | .step, .executing _ => true
  | .finalizer, .finalizing _ _ _ => true
  | _, _ => false

/-- What holds of every entry of a log and the part before it, in two parts. -/
theorem forall_split_append {α : Type} {P : List α → α → Prop} {as bs : List α}
    (has : ∀ before e after, as = before ++ e :: after → P before e)
    (hbs : ∀ before e after, bs = before ++ e :: after → P (as ++ before) e) :
    ∀ before e after, as ++ bs = before ++ e :: after → P before e := by
  intro before e after heq
  rcases List.append_eq_append_iff.mp heq with ⟨later, rfl, hlater⟩ | ⟨later, rfl, hlater⟩
  · exact hbs later e after hlater
  · cases later with
    | nil =>
      rw [List.append_nil] at hbs
      have hhead := hbs [] e after hlater.symm
      rwa [List.append_nil] at hhead
    | cons e' later =>
      rw [List.cons_append, List.cons.injEq] at hlater
      obtain ⟨rfl, -⟩ := hlater
      exact has before e later rfl

/-- How the log of a run separates the phases. -/
structure PhaseLog (events : List (TransitionEvent D)) (workflow : WorkflowState D) : Prop where
  ordinary : inPhaseOf .step workflow = true → ∀ e ∈ events, entersFinalization e = false
  finalization : inPhaseOf .finalizer workflow = true → ∃ e ∈ events, entersFinalization e = true
  separated : ∀ before e after, events = before ++ e :: after →
    (e.nodeRole = some .finalizer → ∃ entry ∈ before, entersFinalization entry = true) ∧
    (e.nodeRole = some .step → ∀ entry ∈ before, entersFinalization entry = false)

/-- A node that is not settled and was moved belongs to the current phase. -/
theorem inPhaseOf_of_moved {w : WorkflowState D} {forced : Bool} {role : WorkflowNodeRole}
    {old new : StepState V} (hold : phaseAllows w forced role old.kind = true)
    (hopen : old.isTerminal = false) (hnew : phaseAllows w forced role new.kind = true)
    (hmoved : new.kind ≠ .pending ∧ new.kind ≠ .inherited) : inPhaseOf role w = true := by
  have hsettled : (old.kind != .pending && old.kind != .starting && old.kind != .running &&
      old.kind != .capturingOutputs && old.kind != .recovering &&
      old.kind != .cancelling) ≠ true := by
    intro h
    rw [isTerminal_iff_kind.mpr h] at hopen
    cases hopen
  cases role with
  | step =>
    cases w with
    | executing => rfl
    | finalizing | succeeded | failed | cancelled => exact absurd hold hsettled
  | finalizer =>
    cases w with
    | executing =>
      simp only [phaseAllows, Bool.or_eq_true, beq_iff_eq] at hnew
      exact absurd hnew (not_or.mpr hmoved)
    | finalizing => rfl
    | succeeded | failed | cancelled => exact absurd hold hsettled

/-- Accepting a cancellation stays in the phase that is cancelled. -/
theorem CancelRun.phaseEvents {deadline : D} {role : WorkflowNodeRole} {u : RuntimeState C V D}
    {e e' : TransitionEvent D}
    (h : CancelRun reason deadline force 1 ((nodesOfRole s role).map Prod.fst) u m t)
    (hdefinition : u.definition = s.definition) (hphase : inPhaseOf role s.workflow = true)
    (henters : entersFinalization e = false) (hrole : e.nodeRole = none)
    (he' : e' ∈ (⟨[e], []⟩ * m : Emission O C V D).events) : entersFinalization e' = false ∧
      ∀ role, e'.nodeRole = some role → inPhaseOf role s.workflow = true := by
  rcases List.mem_cons.mp he' with rfl | he'
  · exact ⟨henters, fun role h => by rw [hrole] at h; cases h⟩
  · obtain ⟨id, hid, d, hd, _, _, _, rfl, -⟩ := h.mem_events he'
    obtain ⟨node, hnode, rfl⟩ := List.mem_map.mp hid
    obtain ⟨d', rt', hd', rfl, -⟩ := nodesOfRole_spec.mp hnode
    rw [hdefinition, hd'] at hd
    cases hd
    refine ⟨rfl, fun role' heq => ?_⟩
    cases heq
    exact hphase

variable [ConditionOutput V]

theorem NodeMove.moved (h : NodeMove o s id d rt rt' actions) :
    rt'.state.kind ≠ .pending ∧ rt'.state.kind ≠ .inherited := by
  cases h <;> exact ⟨nofun, nofun⟩

theorem IssueMove.moved (h : IssueMove s id d rt rt' issue) :
    rt'.state.kind ≠ .pending ∧ rt'.state.kind ≠ .inherited := by
  cases h <;> exact ⟨nofun, nofun⟩

/-- What the events of a step say about the phases: the step is the one that enters
finalization, or it stays in the phase of the nodes it moves. -/
theorem ReducerStep.phaseEvents (hstep : ReducerStep o s n t) (hinv : PhaseInvariant s)
    (hcoherent : s.definition.Coherent) :
    (inPhaseOf .step s.workflow = true ∧ inPhaseOf .finalizer t.workflow = true ∧
      ∃ e, n.events = [e] ∧ entersFinalization e = true ∧ e.nodeRole = none) ∨
    (∀ role, inPhaseOf role t.workflow = true → inPhaseOf role s.workflow = true) ∧
      ∀ e ∈ n.events, entersFinalization e = false ∧
        ∀ role, e.nodeRole = some role → inPhaseOf role s.workflow = true := by
  cases hstep with
  | node hd hrt hmove | issue hd hrt hmove =>
    refine Or.inr ⟨fun role h => by simpa using h, fun e he => ?_⟩
    rw [List.mem_singleton.mp he]
    refine ⟨rfl, fun role h => ?_⟩
    cases h
    exact inPhaseOf_of_moved (hinv.nodes _ _ _ hd hrt) hmove.unsettled
      (hmove.phaseAllows hinv hcoherent hd hrt) hmove.moved
  | @complete _ d _ hd hrt hstate =>
    have hrole : inPhaseOf d.role s.workflow = true :=
      inPhaseOf_of_moved (hinv.nodes _ _ _ hd hrt) (by rw [hstate]; rfl)
        (hinv.nodes _ _ _ hd hrt) (by rw [hstate]; exact ⟨nofun, nofun⟩)
    refine Or.inr ⟨fun role h => by simpa using h, fun e he => ?_⟩
    rcases List.mem_pair.mp he with rfl | rfl <;>
    · refine ⟨rfl, fun role h => ?_⟩
      cases h
      exact hrole
  | @primaryIssue _ d _ _ _ _ hd hrt hmove htarget =>
    have hrole : inPhaseOf d.role s.workflow = true :=
      inPhaseOf_of_moved (hinv.nodes _ _ _ hd hrt) hmove.unsettled
        (hmove.phaseAllows hinv hcoherent hd hrt) hmove.moved
    refine Or.inr ⟨fun role h => ?_, fun e he => ?_⟩
    · obtain ⟨-, ⟨-, hworkflow, rfl⟩ | ⟨-, hworkflow, rfl⟩⟩ := issueTarget_spec htarget <;>
      · rw [hworkflow]
        cases role <;> exact h
    · rcases List.mem_pair.mp he with rfl | rfl
      · refine ⟨rfl, fun role h => ?_⟩
        cases h
        exact hrole
      · refine ⟨?_, nofun⟩
        obtain ⟨-, ⟨-, hworkflow, rfl⟩ | ⟨-, hworkflow, rfl⟩⟩ := issueTarget_spec htarget <;>
        · rw [hworkflow]
          rfl
  | note | passed | release | operation =>
    exact Or.inr ⟨fun role h => h, fun e he => by cases he⟩
  | cancelOrdinary hphase _ hcancel | forceOrdinary hphase _ hcancel
  | cancelFinalization hphase hcancel | forceFinalization hphase _ hcancel =>
    refine Or.inr ⟨fun role h => ?_, fun _ => hcancel.phaseEvents (RuntimeState.tick_definition _)
      (by rw [hphase]; rfl) rfl rfl⟩
    rw [hcancel.frame.1.trans (tick_workflow _)] at h
    rw [hphase]
    cases role <;> exact h
  | enter _ houtcome =>
    obtain ⟨gate, hworkflow⟩ := ordinaryOutcome_executing houtcome
    refine Or.inl ⟨by rw [hworkflow]; rfl, rfl, _, rfl, ?_, rfl⟩
    rw [hworkflow]
    rfl
  | @finish outcome =>
    refine Or.inr ⟨fun role h => ?_, fun e he => ?_⟩
    · cases outcome <;> cases role <;> cases h
    · rw [List.mem_singleton.mp he]
      refine ⟨?_, nofun⟩
      cases outcome <;> cases s.workflow <;> rfl

theorem PhaseLog.step {events : List (TransitionEvent D)} (h : PhaseLog events s.workflow)
    (hstep : ReducerStep o s n t) (hinv : PhaseInvariant s) (hcoherent : s.definition.Coherent) :
    PhaseLog (events ++ n.events) t.workflow := by
  rcases hstep.phaseEvents hinv hcoherent with
    ⟨_, hfinalization, e, hevents, henters, hrole⟩ | ⟨hphase, hquiet⟩
  · rw [hevents]
    refine ⟨fun hstill => ?_, fun _ => ⟨e, by simp, henters⟩,
      forall_split_append h.separated ?_⟩
    · cases hworkflow : t.workflow <;> simp [inPhaseOf, hworkflow] at hstill hfinalization
    · intro before e' after heq
      have he' : e' ∈ [e] := by
        rw [heq]
        simp
      rw [List.mem_singleton.mp he', hrole]
      exact ⟨nofun, nofun⟩
  · refine ⟨fun hnow e he => ?_, fun hnow => ?_, forall_split_append h.separated ?_⟩
    · rcases List.mem_append.mp he with he | he
      · exact h.ordinary (hphase .step hnow) e he
      · exact (hquiet e he).1
    · obtain ⟨e, he, henters⟩ := h.finalization (hphase .finalizer hnow)
      exact ⟨e, List.mem_append_left _ he, henters⟩
    · intro before e after heq
      obtain ⟨-, hroles⟩ := hquiet e (by rw [heq]; simp)
      constructor
      · intro hrole
        obtain ⟨entry, hentry, henters⟩ := h.finalization (hroles .finalizer hrole)
        exact ⟨entry, List.mem_append_left _ hentry, henters⟩
      · intro hrole entry hentry
        rcases List.mem_append.mp hentry with hentry | hentry
        · exact h.ordinary (hroles .step hrole) entry hentry
        · exact (hquiet entry (by rw [heq]; exact List.mem_append_left _ hentry)).1

/-- The log of every run separates the phases. -/
theorem Reachable.phaseLog (h : Reachable definition seed m s) (hcoherent : definition.Coherent) :
    PhaseLog m.events s.workflow := by
  refine h.induction (I := fun m s => PhaseLog m.events s.workflow) ?_ ?_
  · exact ⟨fun _ _ he => (by cases he), nofun, fun before e after heq => (by simp at heq)⟩
  · intro o m s n t hreach hs hstep
    exact hs.step hstep (hreach.phase hcoherent) (hreach.coherent hcoherent)

end Log

section Unselected

/-- What can have become of a finalizer that the trigger does not select. -/
def Unselected (state : StepState V) : Prop :=
  state = .pending ∨ state = .notRun ⟨.finalizerTriggerNotSelected⟩ ∨ state.kind = .inherited

/-- While finalization is stabilized, finalizers that were not selected are not touched but to
settle them. -/
def UnselectedIdle (s : RuntimeState C V D) : Prop :=
  ∀ finalization, s.finalization = some finalization → ∀ id d rt,
    s.definition.steps.get? id = some d → d.role = .finalizer → s.steps.get? id = some rt →
    finalization.trigger ∉ d.when → Unselected rt.state

theorem PhaseInvariant.selected_of_gate (hinv : PhaseInvariant s) (hrole : d.role = .finalizer)
    (hgate : conditionPhaseGateOpen s d = true) :
    ∃ finalization, s.finalization = some finalization ∧ finalization.trigger ∈ d.when := by
  unfold conditionPhaseGateOpen at hgate
  split at hgate
  · rename_i hstep
    rw [hrole] at hstep
    cases hstep
  · rename_i trigger issue hworkflow _
    obtain ⟨finalization, hsome, htrigger, -⟩ := hinv.finalizing _ _ _ hworkflow
    rw [← htrigger] at hgate
    exact ⟨finalization, hsome, of_decide_eq_true hgate⟩
  · cases hgate

theorem UnselectedIdle.commit (h : UnselectedIdle s) (hrt : s.steps.get? id = some rt)
    (hnode : ∀ finalization d, s.finalization = some finalization →
      s.definition.steps.get? id = some d → d.role = .finalizer → finalization.trigger ∉ d.when →
      Unselected rt'.state) : UnselectedIdle (s.commit id rt') := by
  intro finalization hfinalization j dj rtj hdj hrole hrtj hwhen
  rw [RuntimeState.commit_finalization] at hfinalization
  rw [RuntimeState.commit_definition] at hdj
  by_cases hj : j = id
  · subst hj
    rw [get?_commit_self hrt] at hrtj
    cases hrtj
    exact hnode finalization dj hfinalization hdj hrole hwhen
  · rw [RuntimeState.get?_commit_of_ne hj] at hrtj
    exact h finalization hfinalization j dj rtj hdj hrole hrtj hwhen

theorem UnselectedIdle.congr (h : UnselectedIdle s) (hdefinition : t.definition = s.definition)
    (hsteps : t.steps = s.steps) (hfinalization : t.finalization = s.finalization) :
    UnselectedIdle t := by
  unfold UnselectedIdle
  rw [hdefinition, hsteps, hfinalization]
  exact h

variable [ConditionOutput V]

section

variable (hinv : PhaseInvariant s) (hcoherent : s.definition.Coherent)
  (hd : s.definition.steps.get? id = some d) (hrole : d.role = .finalizer)
  (hfinalization : s.finalization = some finalization) (hpending : rt.state = .pending)
include hinv hcoherent hd hrole hfinalization hpending

theorem NodeMove.unselected (h : NodeMove o s id d rt rt' actions)
    (hwhen : finalization.trigger ∉ d.when) : Unselected rt'.state := by
  have hstate : ∀ {state : StepState V}, rt.state = state → state = .pending :=
    fun h => h.symm.trans hpending
  cases h with
  | start _ _ _ hready =>
    rw [hrole] at hready
    simp only [nodeReady, Bool.and_eq_true] at hready
    obtain ⟨finalization', hsome, -, htrigger, -⟩ := finalizerReady_iff.mp hready.1
    cases hfinalization.symm.trans hsome
    exact absurd htrigger hwhen
  | retry _ _ htarget | recover _ _ htarget =>
    rcases htarget with h | h | h <;> exact absurd (hstate h) (by simp)
  | recheck _ _ _ _ h | run h | capture _ h | succeed _ _ h | handlerRunning _ h
  | quiesce _ _ _ h => exact absurd (hstate h) (by simp)
  | skip _ _ _ hgate =>
    obtain ⟨d', -, hd', -, -, -, -, hopen, -⟩ := conditionGateReady_iff.mp hgate
    cases hd.symm.trans hd'
    obtain ⟨finalization', hsome, htrigger⟩ := hinv.selected_of_gate hrole hopen
    cases hfinalization.symm.trans hsome
    exact absurd htrigger hwhen
  | failureStop _ hid =>
    rw [hcoherent.role_eq .step hid hd] at hrole
    cases hrole
  | notSelected => exact Or.inr (Or.inl rfl)
  | forcedCancel _ _ _ _ hselected => exact absurd (hselected finalization hfinalization) hwhen

omit hfinalization in
theorem IssueMove.selected (h : IssueMove s id d rt rt' issue) :
    ∃ finalization, s.finalization = some finalization ∧ finalization.trigger ∈ d.when := by
  cases h with
  | fail _ _ hfinal =>
    have hactive := hfinal.active
    rw [hpending] at hactive
    simp [StepRuntimeState.RunsTarget, hpending] at hactive
  | conditionFailed _ _ _ _ hgate =>
    obtain ⟨d', -, hd', -, -, -, -, hopen, -⟩ := conditionGateReady_iff.mp hgate
    cases hd.symm.trans hd'
    exact hinv.selected_of_gate hrole hopen
  | blockOrdinary _ _ hid =>
    rw [hcoherent.role_eq .step hid hd] at hrole
    cases hrole
  | blockCondition _ _ _ _ _ hgate => exact hinv.selected_of_gate hrole hgate
  | blockInput _ _ _ _ hready =>
    obtain ⟨finalization, hsome, -, htrigger, -⟩ := finalizerReady_iff.mp hready
    exact ⟨finalization, hsome, htrigger⟩

end

/-- Stabilizing leaves finalizers alone that were not selected. -/
theorem StabilizeStep.unselectedIdle (hstep : StabilizeStep o s m t) (h : UnselectedIdle s)
    (hinv : PhaseInvariant s) (hcoherent : s.definition.Coherent) : UnselectedIdle t := by
  have hissue : ∀ {id : String} {d : RuntimeStep} {rt rt' : StepRuntimeState C V}
      {issue : PrimaryIssue}, s.definition.steps.get? id = some d → s.steps.get? id = some rt →
      rt.state = .pending → IssueMove s id d rt rt' issue → UnselectedIdle (s.commit id rt') := by
    intro id d rt rt' issue hd hrt hpending hmove
    refine h.commit hrt (fun finalization d' hfinalization hd' hrole hwhen => ?_)
    cases hd.symm.trans hd'
    obtain ⟨finalization', hsome, htrigger⟩ := hmove.selected hinv hcoherent hd hrole hpending
    cases hfinalization.symm.trans hsome
    exact absurd htrigger hwhen
  cases hstep with
  | node hd hrt hpending hmove =>
    refine h.commit hrt (fun finalization d' hfinalization hd' hrole hwhen => ?_)
    cases hd.symm.trans hd'
    exact hmove.unselected hinv hcoherent hd hrole hfinalization hpending hwhen
  | issue hd hrt hpending hmove => exact hissue hd hrt hpending hmove
  | primaryIssue hd hrt hpending hmove =>
    exact (hissue hd hrt hpending hmove).congr (advance_definition _ _)
      (advance_steps _ _) (RuntimeState.advance_finalization _ _)
  | @passed _ _ rt _ _ hrt =>
    intro finalization hfinalization j dj rtj hdj hrole hrtj hwhen
    rw [RuntimeState.setNode_get?] at hrtj
    split_ifs at hrtj with hj
    · rw [hj, hrt] at hrtj
      cases hrtj
      exact h finalization hfinalization j dj rt hdj hrole (hj ▸ hrt) hwhen
    · exact h finalization hfinalization j dj rtj hdj hrole hrtj hwhen
  | enter _ houtcome =>
    -- up to the entry no finalizer has left the state that the run found it in
    obtain ⟨gate, hworkflow⟩ := ordinaryOutcome_executing houtcome
    intro finalization _ j dj rtj hdj hrole hrtj _
    dsimp only at hdj hrtj
    rw [advance_definition] at hdj
    rw [advance_steps] at hrtj
    have hallow := hinv.nodes j dj rtj hdj hrtj
    rw [hworkflow, hrole] at hallow
    simp only [phaseAllows, Bool.or_eq_true, beq_iff_eq] at hallow
    rcases hallow with hkind | hkind
    · exact Or.inl (by cases hstate : rtj.state <;> rw [hstate] at hkind <;>
        first | rfl | cases hkind)
    · exact Or.inr (Or.inr hkind)
  | finish =>
    exact h.congr (by simp) (by simp) (by simp)

/-- Finalization is entered only while the reducer stabilizes. -/
theorem ReducerStep.finalization_none (hstep : ReducerStep o s m t) (ho : o ≠ none)
    (h : s.finalization = none) : t.finalization = none := by
  cases hstep with
  | enter _ _ _ hnone => exact absurd hnone ho
  | cancelOrdinary _ _ hcancel | forceOrdinary _ _ hcancel | cancelFinalization _ hcancel
  | forceFinalization _ _ hcancel =>
    rw [hcancel.frame.2.1.trans (tick_finalization _)]
    simp [h]
  | _ => simpa using h

end Unselected

section Runs

variable [ConditionOutput V]

/-- At rest, a finalizer that is pending is selected by the trigger. -/
theorem LastPass.selected (h : LastPass definition seed r s) (hcoherent : definition.Coherent)
    (hfinalization : s.finalization = some finalization)
    (hd : definition.steps.get? id = some d) (hrole : d.role = .finalizer)
    (hrt : s.steps.get? id = some rt) (hpending : rt.state = .pending) :
    finalization.trigger ∈ d.when := by
  obtain ⟨m, hreach⟩ := h.reachable
  have hinv := hreach.phase hcoherent
  have hcoherent' := hreach.coherent hcoherent
  have hd' : r.state.definition.steps.get? id = some d := by rwa [hreach.definition_eq]
  have hpass := (stabilizePass_stabilizes hreach.nodesMatch hcoherent').quiet h.silent
  rw [h.result] at hfinalization hrt
  rw [hpass.finalization] at hfinalization
  cases hworkflow : r.state.workflow with
  | executing gate =>
    rw [hinv.executing gate hworkflow] at hfinalization
    cases hfinalization
  | finalizing trigger gate issue =>
    have hphase : r.state.Finalizing :=
      ⟨trigger, gate, issue, hworkflow⟩
    have htrigger := propagateFinalizerTriggerDispositions_stabilizes (o := none) hcoherent'
    have hrest := (settleFinalizationPhase_rest hreach.nodesMatch hcoherent' hphase).trans
      (stabilizePass_finalizing hreach.nodesMatch hcoherent' hphase)
    obtain ⟨-, hsilent⟩ := htrigger.events_left hrest h.silent
    obtain ⟨rt₀, hrt₀, hstate⟩ := (hrest.quiet hsilent).node hrt
    exact propagateFinalizerTriggerDispositions_selected hfinalization
      ((hcoherent'.mem_idsOf .finalizer id).mpr ⟨d, hd', hrole⟩) hd' hrt₀ (hstate.trans hpending)
  | succeeded | failed | cancelled =>
    obtain ⟨rt₀, hrt₀, hstate⟩ := hpass.node hrt
    have hsettled := hinv.node_settled (by rw [hworkflow]; rfl) hd' hrt₀
    rw [hstate, hpending] at hsettled
    cases hsettled

/-- The finalizers that were not selected have been settled as such. -/
def UnselectedSettled (s : RuntimeState C V D) : Prop :=
  ∀ finalization, s.finalization = some finalization → ∀ id d rt,
    s.definition.steps.get? id = some d → d.role = .finalizer → s.steps.get? id = some rt →
    finalization.trigger ∉ d.when →
    rt.state = .notRun ⟨.finalizerTriggerNotSelected⟩ ∨ rt.state.kind = .inherited

/-- Stabilizing settles the finalizers that were not selected, unless it exceeds the ceiling. -/
theorem Reachable.stabilize_unselected (h : Reachable definition seed m r.state)
    (hcoherent : definition.Coherent) (hlt : ∀ (m : Emission O C V D) (s : RuntimeState C V D),
      Reachable definition seed m s → m.events.length < 2 ^ 64)
    (hwithin : (stabilize r).state.transitionCapacityExceeded = false)
    (hidle : UnselectedIdle r.state) : UnselectedSettled (stabilize r).state := by
  obtain ⟨pass, hpass⟩ := h.stabilize_atRest hcoherent hlt hwithin
  obtain ⟨n, t, hrun, heq⟩ := stabilizeLoop_stabilizes (r.state.definition.steps.size + 4) r
    h.nodesMatch (h.coherent hcoherent)
  have hstable : (stabilize r).state = t := congrArg Reduction.state heq
  rw [hstable] at hpass ⊢
  obtain ⟨hreach, hidle'⟩ := hrun.history
    (I := fun m s => Reachable definition seed m s ∧ UnselectedIdle s)
    (fun m s n t hs hstep => ⟨hs.1.tail ⟨none, hstep.reducerStep⟩,
      hstep.unselectedIdle hs.2 (hs.1.phase hcoherent) (hs.1.coherent hcoherent)⟩) ⟨h, hidle⟩
  intro finalization hfinalization id d rt hd hrole hrt hwhen
  rcases hidle' finalization hfinalization id d rt hd hrole hrt hwhen with hpending | hsettled
  · rw [hreach.definition_eq] at hd
    exact absurd (hpass.selected hcoherent hfinalization hd hrole hrt hpending) hwhen
  · exact hsettled

/-- What was settled because it was not selected stays so. -/
theorem UnselectedSettled.continued (hs : UnselectedSettled s) (h : Reachable definition seed m s)
    (hcoherent : definition.Coherent) (hrun : Run s n t) (hentered : s.finalization.isSome = true) :
    UnselectedSettled t := by
  obtain ⟨finalization, hfinalization⟩ := Option.isSome_iff_exists.mp hentered
  obtain ⟨later, hlater, htrigger, -⟩ := h.finalization_kept hcoherent hrun hfinalization
  have hreach : Reachable definition seed (m * n) t := h.trans hrun
  intro finalization' hfinalization' id d rt hd hrole hrt hwhen
  cases hlater.symm.trans hfinalization'
  rw [hreach.definition_eq, ← h.definition_eq] at hd
  obtain ⟨rt₀, hrt₀⟩ := h.nodesMatch.runtime hd
  have hsettled := hs finalization hfinalization id d rt₀ hd hrole hrt₀ (htrigger ▸ hwhen)
  have hterminal : rt₀.state.isTerminal = true := by
    rcases hsettled with hstate | hkind
    · rw [hstate]
      rfl
    · exact isTerminal_iff_kind.mpr (by rw [hkind]; rfl)
  cases (hrun.settled hd hrt₀ hterminal).symm.trans hrt
  exact hsettled

section

variable (h : Reachable definition seed m s)
include h

/-- Before finalization a finalizer is in the state that the run found it in. -/
theorem Reachable.finalizer_waits
    (hcoherent : definition.Coherent) (hd : definition.steps.get? id = some d)
    (hrole : d.role = .finalizer) (hrt : s.steps.get? id = some rt)
    (hmoved : rt.state.kind ≠ seededKind seed id) : allSettled s .step = true := by
  have hinv := h.phase hcoherent
  have hd' : s.definition.steps.get? id = some d := by rwa [h.definition_eq]
  have hwaits : ∀ gate, s.workflow ≠ .executing gate := by
    intro gate hworkflow
    have hallow := hinv.nodes id d rt hd' hrt
    rw [hworkflow, hrole] at hallow
    simp only [phaseAllows, Bool.or_eq_true, beq_iff_eq] at hallow
    have hseeded := h.inherited_iff hd hrt
    refine hmoved ?_
    unfold seededKind
    rcases hallow with hkind | hkind
    · rw [if_neg (fun hseed => by rw [hseeded.mpr hseed] at hkind; cases hkind), hkind]
    · rw [if_pos (hseeded.mp hkind), hkind]
  refine (allSettled_iff (h.coherent hcoherent)).mpr (fun j dj hdj hrolej => ?_)
  obtain ⟨rtj, hrtj⟩ := h.nodesMatch.runtime hdj
  refine ⟨rtj, hrtj, ?_⟩
  cases hworkflow : s.workflow with
  | executing gate => exact absurd hworkflow (hwaits gate)
  | finalizing trigger gate issue =>
    exact hinv.step_settled ⟨trigger, gate, issue, hworkflow⟩ hdj hrtj hrolej
  | succeeded | failed | cancelled =>
    exact hinv.node_settled (by rw [hworkflow]; rfl) hdj hrtj

/-- The record of the ordinary phase: its trigger classifies the ordinary outcome. -/
theorem Reachable.trigger_eq (hcoherent : definition.Coherent)
    (hfinalization : s.finalization = some finalization) :
    finalization.trigger = finalization.ordinaryOutcome.trigger := by
  refine h.invariant (I := fun s => ∀ finalization, s.finalization = some finalization →
    finalization.trigger = finalization.ordinaryOutcome.trigger)
    (fun _ hnone => by cases hnone) ?_ finalization hfinalization
  rintro o s n t ⟨m, hreach⟩ hs hstep later hlater
  cases hbefore : s.finalization with
  | some finalization =>
    obtain ⟨later', hlater', htrigger, -, houtcome⟩ :=
      hstep.finalization_kept (hreach.phase hcoherent) hbefore
    cases hlater.symm.trans hlater'
    rw [htrigger, houtcome]
    exact hs finalization hbefore
  | none =>
    cases hstep with
    | enter =>
      cases hlater
      rfl
    | cancelOrdinary _ _ hcancel | forceOrdinary _ _ hcancel | cancelFinalization _ hcancel
    | forceFinalization _ _ hcancel =>
      rw [hcancel.frame.2.1.trans (tick_finalization _)] at hlater
      simp [hbefore] at hlater
    | _ => simp [hbefore] at hlater

end

variable [ProvisionalStepResources O] [NodeFailureSource C]

/-- In a run within its ceiling, finalizers that were not selected are not run. -/
theorem ledger_notRun (hcoherent : start.definition.Coherent)
    (hretries : ∀ id d, start.definition.steps.get? id = some d →
      ∀ policy ∈ d.recovery, policy.retries ≤ 10)
    (hlt : ∀ (m : Emission O C V D) (s : RuntimeState C V D),
      Reachable start.definition seed m s → m.events.length < 2 ^ 64)
    (occurrences : List (Occurrence O C V D))
    (hwithin : (ledger start seed occurrences).state.transitionCapacityExceeded = false) :
    UnselectedSettled (ledger start seed occurrences).state := by
  refine ledger_induction (P := fun s => s.transitionCapacityExceeded = false →
    UnselectedSettled s) hcoherent hretries ?_ occurrences hwithin
  intro occurrence m n s r hreach hbefore hsteps hwithin
  have hrun : Run s n r.state := hsteps.mono (fun _ _ _ hstep => ⟨_, hstep⟩)
  have hreach' : Reachable start.definition seed (m * n) r.state := hreach.trans hrun
  cases hfinalization : s.finalization with
  | none =>
    -- the steps of an occurrence do not enter finalization
    have hnone : r.state.finalization = none :=
      hsteps.invariant (I := fun s => s.finalization = none)
        (fun _ _ _ hs hstep => hstep.finalization_none (Option.some_ne_none _) hs) hfinalization
    refine hreach'.stabilize_unselected hcoherent hlt hwithin ?_
    intro finalization hsome
    cases hnone.symm.trans hsome
  | some =>
    obtain ⟨k, hstable⟩ :=
      (stabilize_reaches hreach'.nodesMatch (hreach'.coherent hcoherent)).run
    have hlast : Reachable start.definition seed (m * n * k) (stabilize r).state :=
      hreach'.trans hstable
    rcases hbefore with rfl | hbefore
    · cases hfinalization
    · refine (hbefore ?_).continued hreach hcoherent (hrun.trans hstable)
        (by rw [hfinalization]; rfl)
      rw [hlast.within (hlt _ _ hlast)] at hwithin
      rw [hreach.within (hlt _ _ hreach)]
      refine Nat.le_trans ?_ hwithin
      simp [Emission.mul_events]

end Runs

/-- The coordinator ends a run with an error instead of committing a reduction that exceeds
the ceiling. -/
def commitReduction (reduction : Reduction O C V D) : Option (Reduction O C V D) :=
  if reduction.state.transitionCapacityExceeded then none else some reduction

theorem commitReduction_eq_some (h : commitReduction r = some run) :
    run = r ∧ run.state.transitionCapacityExceeded = false := by
  unfold commitReduction at h
  split_ifs at h with hexceeded
  cases h
  exact ⟨rfl, by simpa using hexceeded⟩

variable [ConditionOutput V] [ProvisionalStepResources O] [NodeFailureSource C]

/-- What the coordinator has committed after a list of occurrences. -/
def committedRun (start : ExecutionStart D) (seed : ExecutionSeed V)
    (occurrences : List (Occurrence O C V D)) : Option (Reduction O C V D) :=
  occurrences.foldl (fun run occurrence => run.bind (fun r =>
      commitReduction (r.followedBy (reduce r.state occurrence))))
    (commitReduction (initializeSeededDefinition start seed))

/-- What is committed is a run within its ceiling. -/
theorem committedRun_eq_some {occurrences : List (Occurrence O C V D)}
    (h : committedRun start seed occurrences = some run) :
    run = ledger start seed occurrences ∧ run.state.transitionCapacityExceeded = false := by
  induction occurrences using List.reverseRecOn generalizing run with
  | nil => exact commitReduction_eq_some h
  | append_singleton os o ih =>
    unfold committedRun at h ih
    rw [List.foldl_append, List.foldl_cons, List.foldl_nil] at h
    obtain ⟨before, hbefore, hcommit⟩ := Option.bind_eq_some_iff.mp h
    obtain ⟨rfl, -⟩ := ih hbefore
    rw [ledger_concat]
    exact commitReduction_eq_some hcommit

/-- The phases of a run.  No finalizer moves before every ordinary step is settled, and by the
log none moves before finalization is entered and no ordinary step after that.  What was
recorded on entry stays for the rest of the run, as do the ordinary steps; finalizers that the
trigger does not select are not run.  Active nodes fit in the slots, and the end of the run is
requested once, by the reduction that finishes it; then every occurrence is refused. -/
theorem phase_separation {decoded : DecodedDocument} {workflow : ValidatedWorkflow}
    (hvalid : validate decoded.document = .ok workflow)
    (inputs : BTreeMap String ResolvedInput)
    (parallel transitions : Nat)
    (initial : Option (InitialCancellation D))
    (seed : ExecutionSeed V)
    (occurrences : List (Occurrence O C V D))
    {start : ExecutionStart D}
    (hstart : start =
      ⟨RuntimeDefinition.fromAdmitted workflow inputs parallel transitions, initial⟩)
    {run : Reduction O C V D}
    (hrun : run = ledger start seed occurrences) :
    (∀ id d rt, start.definition.steps.get? id = some d → d.role = .finalizer →
      run.state.steps.get? id = some rt → rt.state.kind ≠ seededKind seed id →
      allSettled run.state .step = true) ∧
    (∀ before e after, run.events = before ++ e :: after →
      (e.nodeRole = some .finalizer → ∃ entry ∈ before, entersFinalization entry = true) ∧
      (e.nodeRole = some .step → ∀ entry ∈ before, entersFinalization entry = false)) ∧
    (∀ finalization, run.state.finalization = some finalization →
      finalization.trigger = finalization.ordinaryOutcome.trigger ∧
      (∀ future : List (Occurrence O C V D), ∃ later,
        (ledger start seed (occurrences ++ future)).state.finalization = some later ∧
        later.trigger = finalization.trigger ∧ later.context = finalization.context ∧
        later.ordinaryOutcome = finalization.ordinaryOutcome ∧
        ∀ id d, start.definition.steps.get? id = some d → d.role = .step →
          (ledger start seed (occurrences ++ future)).state.steps.get? id =
            run.state.steps.get? id) ∧
      (committedRun start seed occurrences = some run →
        ∀ id d, start.definition.steps.get? id = some d → d.role = .finalizer →
          finalization.trigger ∉ d.when → seed.steps.get? id = none →
          ∃ rt, run.state.steps.get? id = some rt ∧
            rt.state = .notRun ⟨.finalizerTriggerNotSelected⟩)) ∧
    activeCount run.state ≤ parallel ∧
    run.actions.countP finishesRun = (if run.state.workflow.isTerminal then 1 else 0) ∧
    ∀ occurrence : Occurrence O C V D,
      (reduce run.state occurrence).actions.countP finishesRun =
        (if !run.state.workflow.isTerminal &&
          (reduce run.state occurrence).state.workflow.isTerminal then 1 else 0) ∧
      (run.state.workflow.isTerminal = true →
        (reduce run.state occurrence).occurrenceAccepted = false ∧
        (reduce run.state occurrence).state = run.state) := by
  have hcoherent : start.definition.Coherent := by
    rw [hstart]
    exact fromAdmitted_coherent hvalid ..
  have hreach := ledger_reachable start seed hcoherent occurrences
  rw [← hrun] at hreach
  have hcounted := hreach.finishedOnce
  refine ⟨fun id d rt hd hrole hrt hmoved => hreach.finalizer_waits hcoherent hd hrole hrt hmoved,
    (hreach.phaseLog hcoherent).separated, ?_, ?_, hcounted, ?_⟩
  · intro finalization hfinalization
    refine ⟨hreach.trigger_eq hcoherent hfinalization, ?_, ?_⟩
    · intro future
      obtain ⟨n, hcontinued, -⟩ := ledger_append start seed hcoherent occurrences future
      rw [← hrun] at hcontinued
      obtain ⟨later, hlater, htrigger, hcontext, houtcome⟩ :=
        hreach.finalization_kept hcoherent hcontinued hfinalization
      refine ⟨later, hlater, htrigger, hcontext, houtcome, fun id d hd hrole => ?_⟩
      rw [← hreach.definition_eq] at hd
      obtain ⟨rt, hrt⟩ := hreach.nodesMatch.runtime hd
      have hinv := hreach.phase hcoherent
      -- finalization was entered, so the ordinary steps are settled
      have hsettled : rt.state.isTerminal = true := by
        cases hworkflow : run.state.workflow with
        | executing gate =>
          rw [hinv.executing gate hworkflow] at hfinalization
          cases hfinalization
        | finalizing trigger gate issue =>
          exact hinv.step_settled ⟨trigger, gate, issue, hworkflow⟩ hd hrt hrole
        | succeeded | failed | cancelled =>
          exact hinv.node_settled (by rw [hworkflow]; rfl) hd hrt
      rw [hrt]
      exact hcontinued.settled hd hrt hsettled
    · intro hcommitted id d hd hrole hwhen hseed
      obtain ⟨-, hwithin⟩ := committedRun_eq_some hcommitted
      have hretries : ∀ id d, start.definition.steps.get? id = some d →
          ∀ policy ∈ d.recovery, policy.retries ≤ 10 := by
        subst hstart
        exact fun id d hd policy hmem =>
          (validate_accepted hvalid).retries_le decoded.structural hd hmem
      have hlt : ∀ (m : Emission O C V D)
          (s : RuntimeState C V D),
          Reachable start.definition seed m s → m.events.length < 2 ^ 64 := by
        subst hstart
        exact fun m s h => (h.length_events_lt hvalid decoded.structural).trans (by decide)
      have hnotRun := ledger_notRun hcoherent hretries hlt occurrences (hrun ▸ hwithin)
      rw [← hrun] at hnotRun
      have hd' : run.state.definition.steps.get? id = some d := by rwa [hreach.definition_eq]
      obtain ⟨rt, hrt⟩ := hreach.nodesMatch.runtime hd'
      refine ⟨rt, hrt, ?_⟩
      rcases hnotRun finalization hfinalization id d rt hd' hrole hrt hwhen with hstate | hkind
      · exact hstate
      · rw [hreach.inherited_iff hd hrt, hseed] at hkind
        cases hkind
  · have hslots := hreach.slots
    rw [hstart] at hslots
    exact hslots
  · intro occurrence
    have hnext := Reachable.finishedOnce (hreach.trans
      (reduce_run hreach.nodesMatch (hreach.coherent hcoherent) occurrence))
    rw [Emission.mul_actions, List.countP_append, hcounted] at hnext
    have hreduced : ∀ n : Nat,
      (reduce run.state occurrence).emission.actions.countP finishesRun = n →
        (reduce run.state occurrence).actions.countP finishesRun = n := fun _ h => h
    cases hterminal : run.state.workflow.isTerminal with
    | false =>
      rw [hterminal] at hnext
      refine ⟨hreduced _ ?_, nofun⟩
      simpa using hnext
    | true =>
      have hdiscard : reduce run.state occurrence = discardOccurrence run.state occurrence := by
        rw [reduce, if_pos hterminal]
      rw [hdiscard]
      refine ⟨?_, fun _ => ⟨rfl, rfl⟩⟩
      rw [hdiscard] at hnext
      simp only [hterminal, discardOccurrence, if_true] at hnext
      simp only [Bool.not_true, Bool.false_and, Bool.false_eq_true, if_false]
      exact Nat.add_eq_left.mp hnext

/-- A step with a finalizer that reports failures. -/
def failureReportDecoded : DecodedDocument where
  document := commandDocument [] [("build", ⟨textCommand .required none [] [], [], none⟩)]
    [("report", ⟨textCommand .required none [] [], [], {.failed}⟩)] []
  structural := by decide

/-- The step succeeds, so there is nothing to report. -/
def succeededBuild : Reduction Unit FailureDetail String Nat :=
  ledger ⟨RuntimeDefinition.fromAdmitted (acceptedWorkflow failureReportDecoded.document)
    .empty 1 16, none⟩ .empty
    [.stepStarted "build" ⟨1⟩, .stepExecutionCompleted "build" ⟨1⟩ ()]

theorem succeededBuild_separated :
    activeCount succeededBuild.state ≤ 1 ∧ succeededBuild.actions.countP finishesRun = 1 ∧
      ∃ rt, succeededBuild.state.steps.get? "report" = some rt ∧
        rt.state = .notRun ⟨.finalizerTriggerNotSelected⟩ := by
  obtain ⟨d, hd, hrole, hwhen⟩ : ∃ d, (RuntimeDefinition.fromAdmitted
      (acceptedWorkflow failureReportDecoded.document) .empty 1 16).steps.get? "report" =
        some d ∧ d.role = .finalizer ∧ FinalizationTrigger.succeeded ∉ d.when :=
    ⟨_, rfl, rfl, by decide⟩
  obtain ⟨finalization, hfinalization, htrigger⟩ : ∃ finalization,
      succeededBuild.state.finalization = some finalization ∧
        finalization.trigger = .succeeded := ⟨_, rfl, rfl⟩
  obtain ⟨-, -, hentered, hslots, hfinished, -⟩ := phase_separation
    (show validate failureReportDecoded.document =
      .ok (acceptedWorkflow failureReportDecoded.document) from rfl)
    .empty 1 16 none .empty _ rfl (show succeededBuild = _ from rfl)
  obtain ⟨-, -, hnotRun⟩ := hentered finalization hfinalization
  exact ⟨hslots, hfinished, hnotRun rfl "report" d hd hrole (htrigger ▸ hwhen) rfl⟩

end ScherzoCloud.Workflow
