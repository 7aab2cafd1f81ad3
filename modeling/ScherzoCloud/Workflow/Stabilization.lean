import ScherzoCloud.Workflow.Refusals
import ScherzoCloud.Workflow.TransitionLog

/-!
# Stabilizing comes to rest

Every transition of a stabilization settles or starts a pending node or leaves a
phase, so the number of passes is bounded by the number of pending nodes and of
phases: the loop always ends with a pass that committed nothing.  A state of a
run within its ceiling is therefore at rest: it is the result of such a pass.
-/

namespace ScherzoCloud.Workflow

open Collections

variable {O C V D : Type} {s t : RuntimeState C V D} {id : String} {rt : StepRuntimeState C V}
  {o : Option (Occurrence O C V D)} {m : Emission O C V D} {r : Reduction O C V D}

section Potential

/-- The number of nodes that were neither started nor settled. -/
def pendingCount (s : RuntimeState C V D) : Nat :=
  s.steps.values.countP (fun rt => rt.state.isPending)

/-- The number of phases that are left. -/
def phaseRank : WorkflowState D → Nat
  | .executing _ => 2
  | .finalizing _ _ _ => 1
  | .succeeded | .failed _ _ | .cancelled _ => 0

/-- A bound on the transitions that a stabilization can still commit. -/
def potential (s : RuntimeState C V D) : Nat :=
  pendingCount s + phaseRank s.workflow

variable {rt' : StepRuntimeState C V}

theorem pendingCount_congr (h : t.steps = s.steps) : pendingCount t = pendingCount s := by
  rw [pendingCount, h, pendingCount]

theorem pendingCount_setNode (hrt : s.steps.get? id = some rt) (rt' : StepRuntimeState C V) :
    pendingCount (s.setNode id rt') + (if rt.state.isPending then 1 else 0) =
      pendingCount s + (if rt'.state.isPending then 1 else 0) :=
  BTreeMap.countP_values_modify hrt (·.state.isPending) rt'

theorem pendingCount_commit_lt (hrt : s.steps.get? id = some rt) (hpending : rt.state = .pending)
    (hleft : rt'.state ≠ .pending) : pendingCount (s.commit id rt') < pendingCount s := by
  have hset := pendingCount_setNode (s := s.tick) (by simpa using hrt) rt'
  have hleft' : rt'.state.isPending = false := by
    cases h : rt'.state.isPending with
    | true => exact absurd (isPending_iff.mp h) hleft
    | false => rfl
  rw [pendingCount_congr (RuntimeState.tick_steps s), hpending, hleft'] at hset
  simp only [StepState.isPending, if_true, Bool.false_eq_true, if_false] at hset
  rw [RuntimeState.commit]
  omega

theorem pendingCount_le_size (hnodes : NodesMatch s) :
    pendingCount s ≤ s.definition.steps.size := by
  have hlength : s.steps.values.length = s.steps.keys.length := by
    simp [BTreeMap.values, BTreeMap.keys]
  have hsize : s.definition.steps.size = s.definition.steps.keys.length := by
    simp [BTreeMap.size, BTreeMap.keys]
  rw [hsize, ← (hnodes : s.steps.keys = s.definition.steps.keys), ← hlength]
  exact List.countP_le_length

theorem potential_lt_of_leave (hsteps : t.steps = s.steps)
    (hrank : phaseRank t.workflow < phaseRank s.workflow) : potential t < potential s := by
  unfold potential
  rw [pendingCount_congr hsteps]
  omega

theorem potential_commit_lt (hrt : s.steps.get? id = some rt) (hpending : rt.state = .pending)
    (hleft : rt'.state ≠ .pending) : potential (s.commit id rt') < potential s := by
  have hlt := pendingCount_commit_lt hrt hpending hleft
  unfold potential
  rw [RuntimeState.commit_workflow]
  omega

theorem potential_le_size (hnodes : NodesMatch s) : potential s ≤ s.definition.steps.size + 2 := by
  have hpending := pendingCount_le_size hnodes
  have hrank : phaseRank s.workflow ≤ 2 := by
    cases s.workflow <;> simp [phaseRank]
  unfold potential
  omega

variable [ConditionOutput V] {d : RuntimeStep}

theorem NodeMove.leaves_pending {actions : List (RequestedAction O C V D)}
    (h : NodeMove o s id d rt rt' actions) : rt'.state ≠ .pending := by
  cases h <;> exact nofun

theorem IssueMove.leaves_pending {issue : PrimaryIssue} (h : IssueMove s id d rt rt' issue) :
    rt'.state ≠ .pending := by
  cases h <;> exact nofun

/-- Every transition lowers the potential; a passed condition is not a transition. -/
theorem StabilizeStep.potential (h : StabilizeStep o s m t) :
    m.events = [] ∧ Workflow.potential t = Workflow.potential s ∨
      Workflow.potential t < Workflow.potential s := by
  cases h with
  | node _ hrt hpending hmove | issue _ hrt hpending hmove =>
    exact Or.inr (potential_commit_lt hrt hpending hmove.leaves_pending)
  | @primaryIssue _ _ _ _ _ _ _ hrt hpending hmove htarget =>
    refine Or.inr (Nat.lt_of_le_of_lt ?_ (potential_commit_lt hrt hpending hmove.leaves_pending))
    unfold Workflow.potential
    rw [pendingCount_congr (RuntimeState.advance_steps _ _), RuntimeState.advance_workflow,
      RuntimeState.commit_workflow]
    obtain ⟨-, ⟨-, hworkflow, rfl⟩ | ⟨-, hworkflow, rfl⟩⟩ := issueTarget_spec htarget <;>
      rw [hworkflow, phaseRank, phaseRank]
  | @passed _ _ rt _ _ hrt =>
    have hset := pendingCount_setNode hrt { rt with conditionPassed := true }
    refine Or.inl ⟨rfl, ?_⟩
    unfold Workflow.potential
    rw [RuntimeState.setNode_workflow, Nat.add_right_cancel hset]
  | enter _ houtcome =>
    obtain ⟨gate, hworkflow⟩ := ordinaryOutcome_executing houtcome
    refine Or.inr (potential_lt_of_leave (by simp) ?_)
    rw [hworkflow]
    exact Nat.lt_succ_self 1
  | @finish outcome _ _ hready =>
    have hrank : phaseRank (outcome.workflowState : WorkflowState D) = 0 := by
      cases outcome <;> rfl
    refine Or.inr (potential_lt_of_leave (by simp) (hrank.trans_lt ?_))
    cases hready with
    | ordinary _ houtcome =>
      obtain ⟨gate, hworkflow⟩ := ordinaryOutcome_executing houtcome
      rw [hworkflow]
      exact Nat.zero_lt_two
    | finalization hphase =>
      obtain ⟨trigger, gate, issue, hworkflow⟩ := hphase
      rw [hworkflow]
      exact Nat.zero_lt_one

theorem StabilizeStep.run_potential (h : LabelledRun (StabilizeStep o) s m t) :
    Workflow.potential t ≤ Workflow.potential s ∧
      (m.events ≠ [] → Workflow.potential t < Workflow.potential s) := by
  induction h with
  | refl => exact ⟨Nat.le_refl _, fun h => absurd rfl h⟩
  | tail _ hstep ih =>
    obtain ⟨hle, hlt⟩ := ih
    rcases hstep.potential with ⟨hsilent, heq⟩ | hless
    · rw [Emission.mul_events, hsilent, List.append_nil, heq]
      exact ⟨hle, hlt⟩
    · exact ⟨by omega, fun _ => by omega⟩

end Potential

section Loop

/-- One state comes after another without a transition: at most, conditions have passed. -/
structure Quiet (s t : RuntimeState C V D) : Prop where
  definition : t.definition = s.definition
  workflow : t.workflow = s.workflow
  finalization : t.finalization = s.finalization
  forceAbort : t.forceAbort = s.forceAbort
  sequence : t.lastTransitionSequence = s.lastTransitionSequence
  states : ∀ id, (t.steps.get? id).map StepRuntimeState.state =
    (s.steps.get? id).map StepRuntimeState.state

theorem Quiet.refl (s : RuntimeState C V D) : Quiet s s :=
  ⟨rfl, rfl, rfl, rfl, rfl, fun _ => rfl⟩

theorem Quiet.trans {u : RuntimeState C V D} (h : Quiet s t) (h' : Quiet t u) : Quiet s u :=
  ⟨h'.definition.trans h.definition, h'.workflow.trans h.workflow,
    h'.finalization.trans h.finalization, h'.forceAbort.trans h.forceAbort,
    h'.sequence.trans h.sequence, fun id => (h'.states id).trans (h.states id)⟩

theorem Quiet.node (h : Quiet s t) (hrt : t.steps.get? id = some rt) :
    ∃ rt₀, s.steps.get? id = some rt₀ ∧ rt₀.state = rt.state := by
  have hstates := h.states id
  rw [hrt, Option.map_some] at hstates
  exact Option.map_eq_some_iff.mp hstates.symm

variable [ConditionOutput V] {r' : Reduction O C V D}

theorem StabilizeStep.quiet (h : StabilizeStep o s m t) (hevents : m.events = []) : Quiet s t := by
  cases h with
  | node | issue | primaryIssue | enter | finish => cases hevents
  | @passed _ _ _ _ _ hrt =>
    refine ⟨rfl, rfl, rfl, rfl, rfl, fun j => ?_⟩
    rw [RuntimeState.setNode_get?]
    split_ifs with hj
    · rw [hj, hrt]
      rfl
    · rfl

/-- A stabilization without events is quiet. -/
theorem Stabilizes.quiet (h : Stabilizes o r r') (hevents : r'.events = r.events) :
    Quiet r.state r'.state := by
  obtain ⟨m, t, hrun, rfl⟩ := h
  have hsilent : m.events = [] := by
    simpa [Reduction.emit] using hevents
  clear hevents
  induction hrun with
  | refl => exact .refl _
  | tail _ hstep ih =>
    rw [Emission.mul_events, List.append_eq_nil_iff] at hsilent
    exact (ih hsilent.1).trans (hstep.quiet hsilent.2)

/-- Stages of a stabilization without events have no events. -/
theorem Stabilizes.events_left {r'' : Reduction O C V D}
    (h : Stabilizes o r r') (h' : Stabilizes o r' r'') (hevents : r''.events = r.events) :
    r'.events = r.events ∧ r''.events = r'.events := by
  obtain ⟨m, t, -, rfl⟩ := h
  obtain ⟨n, u, -, rfl⟩ := h'
  simpa [Reduction.emit] using hevents

/-- The loop ends with a pass that takes no sequence number, as long as its bound exceeds the
potential. -/
theorem stabilizeLoop_ends (fuel : Nat) (r : Reduction O C V D)
    (hnodes : NodesMatch r.state) (hcoherent : r.state.definition.Coherent)
    (hfuel : potential r.state < fuel) :
    ∃ r', Stabilizes none r r' ∧ stabilizeLoop fuel r = stabilizePass r' ∧
      (stabilizePass r').state.lastTransitionSequence = r'.state.lastTransitionSequence := by
  induction fuel generalizing r with
  | zero => omega
  | succ fuel ih =>
    have hpass := stabilizePass_stabilizes hnodes hcoherent
    unfold stabilizeLoop
    dsimp only
    split_ifs with hlast
    · exact ⟨r, .refl r, rfl, hlast⟩
    · -- a pass that took a number committed an event, which lowered the potential
      have hless : potential (stabilizePass r).state < potential r.state := by
        obtain ⟨m, t, hrun, heq⟩ := hpass
        rw [heq]
        refine (StabilizeStep.run_potential hrun).2 (fun hsilent => hlast ?_)
        refine (Stabilizes.quiet ⟨m, t, hrun, heq⟩ ?_).sequence
        rw [heq]
        simp [Reduction.emit, hsilent]
      obtain ⟨r', hreach, hend⟩ := ih (stabilizePass r) (hpass.nodesMatch hnodes)
        (by rw [hpass.definition]; exact hcoherent) (by omega)
      exact ⟨r', hpass.trans hreach, hend⟩

/-- Stabilizing ends by itself: its last pass takes no sequence number. -/
theorem stabilize_ends (hnodes : NodesMatch r.state) (hcoherent : r.state.definition.Coherent) :
    ∃ r', Stabilizes none r r' ∧ stabilize r = stabilizePass r' ∧
      (stabilizePass r').state.lastTransitionSequence = r'.state.lastTransitionSequence := by
  have hsize := potential_le_size hnodes
  exact stabilizeLoop_ends _ r hnodes hcoherent (by omega)

end Loop

variable [ConditionOutput V] {definition : RuntimeDefinition} {seed : ExecutionSeed V}

/-- The pass that a stabilization of a run ended with: it committed nothing. -/
structure LastPass (definition : RuntimeDefinition) (seed : ExecutionSeed V)
    (r : Reduction O C V D) (s : RuntimeState C V D) : Prop where
  reachable : ∃ m : Emission O C V D, Reachable definition seed m r.state
  result : s = (stabilizePass r).state
  silent : (stabilizePass r).events = r.events

/-- A state that stabilizing cannot change any further. -/
def AtRest (O : Type) (definition : RuntimeDefinition) (seed : ExecutionSeed V)
    (s : RuntimeState C V D) : Prop :=
  ∃ r : Reduction O C V D, LastPass definition seed r s

/-- Within the ceiling, stabilizing leads to a state at rest. -/
theorem Reachable.stabilize_atRest (h : Reachable definition seed m r.state)
    (hcoherent : definition.Coherent) (hlt : ∀ (m : Emission O C V D) (s : RuntimeState C V D),
      Reachable definition seed m s → m.events.length < 2 ^ 64)
    (hwithin : (stabilize r).state.transitionCapacityExceeded = false) :
    AtRest O definition seed (stabilize r).state := by
  have hcoherent' := h.coherent hcoherent
  obtain ⟨r', hstable, hend, hlast⟩ := stabilize_ends h.nodesMatch hcoherent'
  have hpass := stabilizePass_stabilizes (hstable.nodesMatch h.nodesMatch)
    (by rw [hstable.definition]; exact hcoherent')
  rw [hend] at hwithin ⊢
  obtain ⟨n, t, hrun, rfl⟩ := hstable
  have hreach : Reachable definition seed (m * n) t :=
    h.trans (hrun.mono (fun _ _ _ hstep => ⟨none, hstep.reducerStep⟩))
  obtain ⟨k, u, hrun', heq⟩ := hpass
  have hreach' : Reachable definition seed (m * n * k) u :=
    hreach.trans (hrun'.mono (fun _ _ _ hstep => ⟨none, hstep.reducerStep⟩))
  rw [heq] at hlast hwithin
  have hle := (hreach'.within (hlt _ _ hreach')).mp hwithin
  have hsequence := (hreach'.last_eq (hlt _ _ hreach') hle).symm.trans hlast
  rw [Emission.mul_events, List.length_append] at hle hsequence
  have hsilent : k.events = [] := by
    have hlast' := hreach.last_eq (hlt _ _ hreach) (by omega)
    rw [Reduction.emit_state, hlast'] at hsequence
    exact List.length_eq_zero_iff.mp (Nat.add_eq_left.mp hsequence)
  refine ⟨r.emit n t, ⟨_, hreach⟩, rfl, ?_⟩
  rw [heq]
  simp [Reduction.emit, hsilent]

variable [ProvisionalStepResources O] [NodeFailureSource C] {start : ExecutionStart D}

variable (hcoherent : start.definition.Coherent)
  (hretries : ∀ id d, start.definition.steps.get? id = some d →
    ∀ policy ∈ d.recovery, policy.retries ≤ 10)
include hcoherent hretries

/-- What holds after every stabilization that follows the steps of an occurrence holds in every
run, as an occurrence that is refused changes nothing. -/
theorem ledger_induction {P : RuntimeState C V D → Prop}
    (hstable : ∀ (occurrence : Occurrence O C V D) (m n : Emission O C V D) s
      (r : Reduction O C V D),
      Reachable start.definition seed m s → s = initialState start.definition seed ∨ P s →
      LabelledRun (ReducerStep (some occurrence)) s n r.state → P (stabilize r).state)
    (occurrences : List (Occurrence O C V D)) : P (ledger start seed occurrences).state := by
  induction occurrences using List.reverseRecOn with
  | nil =>
    -- a cancellation that came before the run is accepted as an abort would be
    have hrequested : ∀ deadline : D, Requested (initialState start.definition seed)
        (some (.forceAbortRequested 1 deadline : Occurrence O C V D)) := by
      rintro deadline _ ⟨⟩
      rfl
    obtain ⟨occurrence, n, t, hrun, heq⟩ : ∃ occurrence : Occurrence O C V D,
        Reaches (some occurrence) (initialReduction start.definition seed)
          (applyInitialCancellation (initialReduction start.definition seed)
            start.initialCancellation) := by
      rcases start.initialCancellation with _ | ⟨request, _⟩ | ⟨_, deadline⟩
      · exact ⟨.stepQuiesced "" ⟨0⟩, .refl _⟩
      · exact ⟨_, applyInitialCancellation_reaches _ _ (hrequested request.deadline)⟩
      · exact ⟨_, applyInitialCancellation_reaches _ _ (hrequested deadline)⟩
    refine hstable occurrence 1 n _ (applyInitialCancellation
      (initialReduction start.definition seed) start.initialCancellation) (.refl _)
      (Or.inl rfl) ?_
    rw [heq]
    exact hrun
  | append_singleton os o ih =>
    have hreach := ledger_reachable start seed hcoherent os
    have hstate : (ledger start seed (os ++ [o])).state =
        (reduce (ledger start seed os).state o).state := by
      rw [ledger_concat]
      rfl
    rw [hstate]
    cases haccepted : (reduce (ledger start seed os).state o).occurrenceAccepted with
    | false =>
      rw [reduce_eq_discard hreach.nodesMatch (hreach.coherent hcoherent)
        (hreach.rechecksContinue hretries) haccepted]
      exact ih
    | true =>
      obtain ⟨-, heq⟩ := reduce_accepted hreach.nodesMatch haccepted
      obtain ⟨n, t, hrun, hemit⟩ := applyOccurrence_reaches
        (r := ⟨(ledger start seed os).state, [], [], false⟩) hreach.nodesMatch o
      rw [heq]
      refine hstable o _ n _ _ hreach (Or.inr ih) ?_
      rw [hemit]
      exact hrun

/-- Every state of a run within its ceiling is at rest. -/
theorem ledger_atRest (hlt : ∀ (m : Emission O C V D) (s : RuntimeState C V D),
      Reachable start.definition seed m s → m.events.length < 2 ^ 64)
    (occurrences : List (Occurrence O C V D))
    (hwithin : (ledger start seed occurrences).state.transitionCapacityExceeded = false) :
    AtRest O start.definition seed (ledger start seed occurrences).state := by
  refine ledger_induction (P := fun s => s.transitionCapacityExceeded = false →
    AtRest O start.definition seed s) hcoherent hretries ?_ occurrences hwithin
  intro occurrence m n s r hreach _ hrun hwithin
  exact Reachable.stabilize_atRest
    (hreach.trans (hrun.mono (fun _ _ _ hstep => ⟨_, hstep⟩))) hcoherent hlt hwithin

end ScherzoCloud.Workflow
