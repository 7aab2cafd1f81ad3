import ScherzoCloud.Workflow.Observation
import ScherzoCloud.Workflow.PhaseMoves
import ScherzoCloud.Workflow.TransitionLog
import ScherzoCloud.Workflow.CommittedOutputs

/-!
# The live view of a run

The terminal shows a run from the records of its events alone: the view keeps a
workflow state, the evidence of a force abort and a state with the dispositions of
its outputs for every node, and applies the records one by one.
-/

namespace ScherzoCloud.Workflow

open Collections
open RuntimeDefinition (fromAdmitted)
open BTreeMap (get?_mapWithKey mem_keys_iff keys_mapWithKey get?_ofList)

variable {O C V D Utc : Type}

structure WorkflowPresentationStep where
  failurePolicy : FailurePolicy
  directDependencies : List String
  outputs : BTreeMap String Output

structure WorkflowPresentationDefinition where
  presentationOrder : List String
  finalizationStart : Option Nat
  steps : BTreeMap String WorkflowPresentationStep
  nodeRoles : BTreeMap String WorkflowNodeRole

def presentationStep (step : ValidatedStep) : WorkflowPresentationStep where
  failurePolicy := (commonStep step).failurePolicy
  directDependencies := (commonStep step).prerequisites.map ResolvedDirectPrerequisite.producer
  outputs := (commonStep step).outputs.mapWithKey (fun _ output => output.definition)

/-- The nodes of both phases with their roles. -/
def presentationNodes (workflow : ValidatedWorkflow) :
    List (String × WorkflowNodeRole × ValidatedStep) :=
  workflow.steps.entries.map (fun e => (e.1, .step, e.2)) ++
    workflow.finalizers.entries.map (fun e => (e.1, .finalizer, e.2.body))

def WorkflowPresentationDefinition.fromWorkflow (workflow : ValidatedWorkflow) :
    WorkflowPresentationDefinition where
  presentationOrder := workflow.presentationOrder ++ workflow.finalizerPresentationOrder
  finalizationStart :=
    if workflow.finalizers.isEmpty then none else some workflow.presentationOrder.length
  steps := .ofList ((presentationNodes workflow).map (fun e =>
    (e.1, presentationStep e.2.2)))
  nodeRoles := .ofList ((presentationNodes workflow).map (fun e => (e.1, e.2.1)))

open WorkflowPresentationDefinition (fromWorkflow)

def FinalizationGate.mapDeadline (map : D → Utc) :
    FinalizationGate D → FinalizationGate Utc
  | .open => .open
  | .cancelling reason deadline forceAbort => .cancelling reason (deadline.map map) forceAbort

def WorkflowState.mapDeadline (map : D → Utc) : WorkflowState D → WorkflowState Utc
  | .executing gate => .executing gate
  | .finalizing trigger gate primaryIssue =>
    .finalizing trigger (gate.mapDeadline map) primaryIssue
  | .succeeded => .succeeded
  | .failed primaryIssue laterCancellation => .failed primaryIssue laterCancellation
  | .cancelled reason => .cancelled reason

/-- `normalize_transition` on the event of an observation. -/
def TransitionEvent.mapDeadline (map : D → Utc) :
    TransitionEvent D → TransitionEvent Utc
  | .step sequence node role failurePolicy source target =>
    .step sequence node role failurePolicy source target
  | .workflow sequence source target =>
    .workflow sequence (source.mapDeadline map) (target.mapDeadline map)
  | .cancellationAccepted sequence reason deadline =>
    .cancellationAccepted sequence reason (map deadline)
  | .finalizationCancellationAccepted sequence reason deadline =>
    .finalizationCancellationAccepted sequence reason (map deadline)
  | .forceAbortAccepted sequence reason phase => .forceAbortAccepted sequence reason phase

def normalizeTransition (deadlineUtc : D → Utc)
    (transition : TransitionObservation D) : TransitionObservation Utc :=
  ⟨transition.event.mapDeadline deadlineUtc, transition.step⟩

inductive WorkflowRunOutputUnavailableReason where
  | failed
  | blocked
  | skipped
  | notRun
  | cancelled
  deriving DecidableEq

inductive WorkflowRunOutputDisposition where
  | pending
  | committed
  | unavailable (reason : WorkflowRunOutputUnavailableReason)
  deriving DecidableEq

structure WorkflowRunStepViewState where
  id : String
  role : WorkflowNodeRole
  state : StepStateKind
  fact : Option ObservedStepTransition
  outputs : BTreeMap String WorkflowRunOutputDisposition

namespace WorkflowRunStepViewState

def new (id : String) (role : WorkflowNodeRole) (definition : WorkflowPresentationStep) :
    WorkflowRunStepViewState :=
  ⟨id, role, .pending, none, definition.outputs.mapWithKey (fun _ _ => .pending)⟩

variable (self : WorkflowRunStepViewState)

def makeOutputsUnavailable (reason : WorkflowRunOutputUnavailableReason) :
    WorkflowRunStepViewState :=
  { self with outputs := self.outputs.mapWithKey (fun _ _ => .unavailable reason) }

def commitOutputs (outputs : List String) : WorkflowRunStepViewState :=
  { self with
    outputs := self.outputs.mapWithKey (fun name disposition =>
      if name ∈ outputs then .committed else disposition) }

def applyTransition (state : StepStateKind) (detail : Option ObservedStepTransition) :
    WorkflowRunStepViewState :=
  let fact := match detail with
    | some (.outputsCommitted _) | none => none
    | some detail => some detail
  let self := { self with state := state, fact := fact }
  match state with
  | .succeeded =>
    match detail with
    | some (.outputsCommitted outputs) => self.commitOutputs outputs
    | _ => self
  | .failed => self.makeOutputsUnavailable .failed
  | .blocked => self.makeOutputsUnavailable .blocked
  | .skipped => self.makeOutputsUnavailable .skipped
  | .notRun => self.makeOutputsUnavailable .notRun
  | .cancelled => self.makeOutputsUnavailable .cancelled
  | .inherited | .pending | .starting | .running | .capturingOutputs | .recovering
  | .cancelling => self

end WorkflowRunStepViewState

structure WorkflowRunCancellationView (Utc : Type) where
  reason : CancellationReason
  forceStopDeadline : Utc
  deriving DecidableEq

structure WorkflowRunViewState (Utc : Type) where
  stepIndexes : BTreeMap String Nat
  steps : List WorkflowRunStepViewState
  finalizationStart : Option Nat
  workflow : WorkflowState Utc
  cancellation : Option (WorkflowRunCancellationView Utc)
  forceAbort : Option ForceAbortEvidence

/-- The workflow state a force abort leaves behind in the phase it was accepted in. -/
def forcedWorkflow (reason : CancellationReason) :
    WorkflowState Utc → RunCancellationPhase → WorkflowState Utc
  | .executing gate, .ordinary =>
    match gate with
    | .open => .executing (.cancelling reason none)
    | .failureStopped primaryIssue => .executing (.cancelling reason (some primaryIssue))
    | .cancelling earlier priorIssue => .executing (.cancelling earlier priorIssue)
  | .finalizing trigger gate primaryIssue, .finalization =>
    match gate with
    | .open => .finalizing trigger (.cancelling reason none true) primaryIssue
    | .cancelling earlier deadline _ =>
      .finalizing trigger (.cancelling earlier deadline true) primaryIssue
  | workflow, _ => workflow

/-- The issue that a cancellation of the shown workflow keeps. -/
def shownPriorIssue : WorkflowState Utc → Option PrimaryIssue
  | .executing (.failureStopped primaryIssue)
  | .executing (.cancelling _ (some primaryIssue)) => some primaryIssue
  | _ => none

namespace WorkflowRunViewState

/-- The view of a run that has not started. -/
def new (workflow : ValidatedWorkflow) : WorkflowRunViewState Utc :=
  let definition := fromWorkflow workflow
  let steps := definition.presentationOrder.filterMap (fun id => do
    let step ← definition.steps.get? id
    let role ← definition.nodeRoles.get? id
    some (WorkflowRunStepViewState.new id role step))
  { stepIndexes := .ofList (steps.zipIdx.map (fun e => (e.1.id, e.2)))
    steps := steps
    finalizationStart := definition.finalizationStart
    workflow := .executing .open
    cancellation := none
    forceAbort := none }

variable (self : WorkflowRunViewState Utc)

def applyTransition (transition : TransitionObservation Utc) : WorkflowRunViewState Utc :=
  match transition.event with
  | .step _ step _ _ _ target =>
    match self.stepIndexes.get? step with
    | none => self
    | some index =>
      { self with
        steps := self.steps.modify index (fun view =>
          view.applyTransition target transition.step) }
  | .workflow _ _ target => { self with workflow := target }
  | .cancellationAccepted _ reason deadline =>
    { self with
      workflow := .executing (.cancelling reason (shownPriorIssue self.workflow))
      cancellation := some ⟨reason, deadline⟩ }
  | .finalizationCancellationAccepted _ reason deadline =>
    match self.workflow with
    | .finalizing trigger _ primaryIssue =>
      { self with
        workflow := .finalizing trigger (.cancelling reason (some deadline) false) primaryIssue }
    | _ => self
  | .forceAbortAccepted _ reason phase =>
    { self with
      forceAbort := some ⟨reason, phase⟩
      workflow := forcedWorkflow reason self.workflow phase }

def applyTransitions (transitions : List (TransitionObservation Utc)) : WorkflowRunViewState Utc :=
  transitions.foldl applyTransition self

end WorkflowRunViewState

open TransitionEvent (mapDeadline)

variable {view : WorkflowRunViewState Utc} {s t : RuntimeState C V D} {workflow : ValidatedWorkflow}
  {document : WorkflowDocument}

section ShownWorkflow

/-- What an event does to the shown workflow state. -/
def shownWorkflow (workflow : WorkflowState Utc) : TransitionEvent Utc → WorkflowState Utc
  | .step _ _ _ _ _ _ => workflow
  | .workflow _ _ target => target
  | .cancellationAccepted _ reason _ =>
    .executing (.cancelling reason (shownPriorIssue workflow))
  | .finalizationCancellationAccepted _ reason deadline =>
    match workflow with
    | .finalizing trigger _ primaryIssue =>
      .finalizing trigger (.cancelling reason (some deadline) false) primaryIssue
    | _ => workflow
  | .forceAbortAccepted _ reason phase => forcedWorkflow reason workflow phase

/-- What an event does to the shown force abort. -/
def shownForceAbort (evidence : Option ForceAbortEvidence) :
    TransitionEvent Utc → Option ForceAbortEvidence
  | .forceAbortAccepted _ reason phase => some ⟨reason, phase⟩
  | _ => evidence

/-- An event shows its phase and does not move a node. -/
theorem applyTransition_shown (transition : TransitionObservation Utc) :
    (view.applyTransition transition).workflow = shownWorkflow view.workflow transition.event ∧
      (view.applyTransition transition).forceAbort =
        shownForceAbort view.forceAbort transition.event ∧
      (view.applyTransition transition).stepIndexes = view.stepIndexes := by
  unfold WorkflowRunViewState.applyTransition shownWorkflow shownForceAbort
  cases transition.event with
  | step _ step =>
    dsimp only
    cases view.stepIndexes.get? step <;> exact ⟨rfl, rfl, rfl⟩
  | finalizationCancellationAccepted => cases hworkflow : view.workflow <;> simp [hworkflow]
  | workflow | cancellationAccepted | forceAbortAccepted => exact ⟨rfl, rfl, rfl⟩

variable {m : Emission O C V D}

variable (utc : D → Utc)

/-- A list of events leads from one shown phase to another. -/
def ShowsPhase (s : RuntimeState C V D)
    (events : List (TransitionEvent D)) (t : RuntimeState C V D) : Prop :=
  (events.map (mapDeadline utc)).foldl shownWorkflow (s.workflow.mapDeadline utc) =
      t.workflow.mapDeadline utc ∧
    (events.map (mapDeadline utc)).foldl shownForceAbort s.forceAbort = t.forceAbort

theorem foldl_of_steps {events : List (TransitionEvent D)}
    (h : ∀ e ∈ events, isStepEvent e = true) (workflow : WorkflowState Utc)
    (evidence : Option ForceAbortEvidence) :
    (events.map (mapDeadline utc)).foldl shownWorkflow workflow = workflow ∧
      (events.map (mapDeadline utc)).foldl shownForceAbort evidence = evidence := by
  induction events with
  | nil => exact ⟨rfl, rfl⟩
  | cons e events ih =>
    have hrest := ih (fun e' he' => h e' (List.mem_cons_of_mem _ he'))
    cases e with
    | step => exact hrest
    | workflow | cancellationAccepted | finalizationCancellationAccepted
    | forceAbortAccepted => cases h _ List.mem_cons_self

theorem PhaseMove.shown {e : TransitionEvent D} {workflow : WorkflowState D}
    {record : Option (FinalizationRuntime D)} {force : Option ForceAbortEvidence}
    (h : PhaseMove s e workflow record force) :
    shownWorkflow (s.workflow.mapDeadline utc) (e.mapDeadline utc) = workflow.mapDeadline utc ∧
      shownForceAbort s.forceAbort (e.mapDeadline utc) = force := by
  cases h with
  | issue | enter | finish => exact ⟨rfl, rfl⟩
  | @cancelOrdinary _ gate _ _ hphase hgate =>
    refine ⟨?_, rfl⟩
    rw [hphase]
    cases gate with
    | cancelling earlier issue => exact absurd rfl (hgate earlier issue)
    | «open» | failureStopped => rfl
  | cancelFinalization hphase =>
    rw [hphase]
    exact ⟨rfl, rfl⟩
  | @forceOrdinary _ gate hphase | @forceFinalization _ _ gate _ hphase =>
    rw [hphase]
    cases gate <;> exact ⟨rfl, rfl⟩

theorem PhaseChange.shown {events : List (TransitionEvent D)}
    (h : PhaseChange s events t) : ShowsPhase utc s events t := by
  unfold ShowsPhase
  cases h with
  | quiet hevents hworkflow _ hforce =>
    rw [hworkflow, hforce]
    exact foldl_of_steps utc hevents _ _
  | @move _ _ _ hsplit hbefore hafter hmove =>
    obtain ⟨hworkflow, hforce⟩ := hmove.shown utc
    have hquiet := foldl_of_steps utc hbefore (s.workflow.mapDeadline utc) s.forceAbort
    rw [hsplit, List.map_append, List.map_cons, List.foldl_append, List.foldl_append,
      List.foldl_cons, List.foldl_cons, hquiet.1, hquiet.2, hworkflow, hforce]
    exact foldl_of_steps utc hafter _ _

variable [ConditionOutput V]

/-- The events of a run take the shown workflow state along. -/
theorem Run.shownWorkflow (h : Run s m t) : ShowsPhase utc s m.events t := by
  induction h with
  | refl => exact ⟨rfl, rfl⟩
  | tail _ hlast ih =>
    obtain ⟨o, hstep⟩ := hlast
    have hshown := hstep.phaseChange.shown utc
    unfold ShowsPhase at *
    rw [Emission.mul_events, List.map_append, List.foldl_append, List.foldl_append, ih.1, ih.2]
    exact hshown

end ShownWorkflow

/-- Every index of the view leads to the node it is for. -/
def WorkflowRunViewState.Indexed (view : WorkflowRunViewState Utc) : Prop :=
  ∀ id index, view.stepIndexes.get? id = some index ↔
    (view.steps.map WorkflowRunStepViewState.id)[index]? = some id

/-- What a record does to the view of one node. -/
def WorkflowRunStepViewState.follow (self : WorkflowRunStepViewState)
    (transition : TransitionObservation Utc) : WorkflowRunStepViewState :=
  match transition.event with
  | .step _ step _ _ _ target =>
    if step = self.id then self.applyTransition target transition.step else self
  | _ => self

open WorkflowRunStepViewState (follow)

theorem applyTransition_id (v : WorkflowRunStepViewState) (state : StepStateKind)
    (detail : Option ObservedStepTransition) : (v.applyTransition state detail).id = v.id := by
  unfold WorkflowRunStepViewState.applyTransition
  cases state with
  | succeeded =>
    cases detail with
    | none => rfl
    | some detail => cases detail <;> rfl
  | _ => rfl

theorem follow_id (v : WorkflowRunStepViewState) (transition : TransitionObservation Utc) :
    (v.follow transition).id = v.id := by
  unfold follow
  split
  · split_ifs
    · exact applyTransition_id v _ _
    · rfl
  · rfl

/-- A record reaches the view of its node and no other. -/
theorem applyTransition_steps (h : view.Indexed) (transition : TransitionObservation Utc) :
    (view.applyTransition transition).steps = view.steps.map (fun v => v.follow transition) := by
  have hsame : (∀ v ∈ view.steps, v.follow transition = v) →
      view.steps = view.steps.map (fun v => v.follow transition) := fun hv => by
    conv_lhs => rw [← List.map_id' view.steps]
    exact List.map_congr_left (fun v hmem => (hv v hmem).symm)
  unfold WorkflowRunViewState.applyTransition
  cases hevent : transition.event with
  | step _ step =>
    dsimp only
    cases hindex : view.stepIndexes.get? step with
    | none =>
      refine hsame (fun v hv => ?_)
      have hne : step ≠ v.id := by
        rintro rfl
        obtain ⟨index, hindex'⟩ := List.mem_iff_getElem?.mp (List.mem_map_of_mem hv)
        rw [(h v.id index).mpr hindex'] at hindex
        cases hindex
      simp [follow, hevent, hne]
    | some index =>
      refine List.ext_getElem? (fun j => ?_)
      dsimp only
      rw [List.getElem?_modify, List.getElem?_map]
      cases hj : view.steps[j]? with
      | none => rfl
      | some v =>
        have hid : (view.steps.map WorkflowRunStepViewState.id)[j]? = some v.id := by
          rw [List.getElem?_map, hj, Option.map_some]
        by_cases hij : index = j
        · subst hij
          rw [(h step index).mp hindex] at hid
          cases hid
          simp [follow, hevent]
        · have hne : step ≠ v.id := by
            rintro rfl
            rw [(h v.id j).mpr hid] at hindex
            exact hij (Option.some.inj hindex).symm
          simp [follow, hevent, hne, hij]
  | finalizationCancellationAccepted =>
    refine Eq.trans ?_ (hsame (fun v _ => by simp [follow, hevent]))
    dsimp only
    cases view.workflow <;> rfl
  | workflow | cancellationAccepted | forceAbortAccepted =>
    exact hsame (fun v _ => by simp [follow, hevent])

theorem WorkflowRunViewState.Indexed.applyTransition (h : view.Indexed)
    (transition : TransitionObservation Utc) : (view.applyTransition transition).Indexed := by
  intro id index
  rw [(applyTransition_shown transition).2.2, applyTransition_steps h, List.map_map]
  have hids : WorkflowRunStepViewState.id ∘ (fun v => v.follow transition) =
      WorkflowRunStepViewState.id := funext (fun v => follow_id v transition)
  rw [hids]
  exact h id index

/-- What a list of records does to the view. -/
theorem applyTransitions_spec (transitions : List (TransitionObservation Utc)) (h : view.Indexed) :
    (view.applyTransitions transitions).Indexed ∧ (view.applyTransitions transitions).steps =
        view.steps.map (fun v => transitions.foldl follow v) ∧
      (view.applyTransitions transitions).workflow =
        (transitions.map TransitionObservation.event).foldl shownWorkflow view.workflow ∧
      (view.applyTransitions transitions).forceAbort =
        (transitions.map TransitionObservation.event).foldl shownForceAbort view.forceAbort := by
  induction transitions generalizing view with
  | nil => exact ⟨h, (List.map_id' view.steps).symm, rfl, rfl⟩
  | cons transition transitions ih =>
    obtain ⟨hindexed, hsteps, hworkflow, hforce⟩ := ih (h.applyTransition transition)
    refine ⟨hindexed, ?_, ?_, ?_⟩
    · refine hsteps.trans ?_
      rw [applyTransition_steps h, List.map_map]
      rfl
    · refine hworkflow.trans ?_
      rw [(applyTransition_shown transition).1, List.map_cons, List.foldl_cons]
    · refine hforce.trans ?_
      rw [(applyTransition_shown transition).2.1, List.map_cons, List.foldl_cons]

/-- The disposition of the outputs of a node in a state. -/
def outputDisposition : StepState V → WorkflowRunOutputDisposition
  | .succeeded _ => .committed
  | .failed _ => .unavailable .failed
  | .blocked _ => .unavailable .blocked
  | .skipped _ => .unavailable .skipped
  | .notRun _ => .unavailable .notRun
  | .cancelled _ => .unavailable .cancelled
  | .pending | .starting | .running | .capturingOutputs | .recovering _ _ | .cancelling _
  | .inherited _ _ _ => .pending

/-- A succeeded node has committed what it declares. -/
def OutputsComplete (declared : List String) : StepState V → Prop
  | .succeeded outputs => outputs.keys = declared
  | _ => True

/-- The view of a node shows its state. -/
structure NodeShows (declared : List String) (v : WorkflowRunStepViewState)
    (state : StepState V) : Prop where
  shown : v.state = state.kind
  names : v.outputs.keys = declared
  dispositions : ∀ name disposition, v.outputs.get? name = some disposition →
    disposition = outputDisposition state

variable {declared : List String} {v : WorkflowRunStepViewState} {state : StepState V}

theorem outputDisposition_unsettled (h : state.isTerminal = false) :
    outputDisposition state = .pending := by
  cases state <;> first | rfl | cases h

/-- The record that settles a node makes its view show the settled state. -/
theorem NodeShows.settle (hdeclared : v.outputs.keys = declared)
    (hcomplete : OutputsComplete declared state) (hterminal : state.isTerminal = true)
    (hkind : state.kind ≠ .inherited) :
    NodeShows declared (v.applyTransition state.kind (observedState state.kind state)) state := by
  have hmap : ∀ (f : String → WorkflowRunOutputDisposition → WorkflowRunOutputDisposition)
      (name : String) (disposition : WorkflowRunOutputDisposition),
      (v.outputs.mapWithKey f).get? name = some disposition →
        ∃ earlier, name ∈ declared ∧ disposition = f name earlier := by
    intro f name disposition hget
    rw [get?_mapWithKey, Option.map_eq_some_iff] at hget
    obtain ⟨earlier, hearlier, rfl⟩ := hget
    refine ⟨earlier, ?_, rfl⟩
    rw [← hdeclared]
    exact mem_keys_iff.mpr ⟨earlier, hearlier⟩
  cases state with
  | succeeded outputs =>
    refine ⟨rfl, (keys_mapWithKey _ _).trans hdeclared, ?_⟩
    intro name disposition hget
    obtain ⟨earlier, hname, rfl⟩ := hmap _ name disposition hget
    have hmem : name ∈ outputs.keys := by
      rwa [show outputs.keys = declared from hcomplete]
    simp [hmem, outputDisposition]
  | failed | blocked | skipped | notRun | cancelled =>
    refine ⟨rfl, (keys_mapWithKey _ _).trans hdeclared, ?_⟩
    intro name disposition hget
    obtain ⟨_, -, rfl⟩ := hmap _ name disposition hget
    rfl
  | inherited => exact absurd rfl hkind
  | pending | starting | running | capturingOutputs | recovering | cancelling => cases hterminal

/-- A record that does not settle its node changes the shown state only. -/
theorem applyTransition_unsettled {kind : StepStateKind} (h : kind.isTerminal = false)
    (detail : Option ObservedStepTransition) : (v.applyTransition kind detail).state = kind ∧
      (v.applyTransition kind detail).outputs = v.outputs := by
  cases kind <;> first | exact ⟨rfl, rfl⟩ | cases h

variable {utc : D → Utc} {rt : StepRuntimeState C V}

theorem observedStepTransition_settled {sequence : TransitionSequence} {id : String}
    {role : WorkflowNodeRole} {policy : FailurePolicy} {source : StepStateKind}
    (hrt : t.steps.get? id = some rt) (hterminal : rt.state.isTerminal = true) :
    observedStepTransition (.step sequence id role policy source rt.state.kind) t =
      observedState rt.state.kind rt.state := by
  have hidle : rt.state.kind.isWorking = false := by
    cases hstate : rt.state <;> rw [hstate] at hterminal <;> first | rfl | cases hterminal
  simp [observedStepTransition, observedRecovery, hrt, hidle]

theorem replayEvent_quiet {id : String} {kind : Option StepStateKind}
    {e : TransitionEvent D} (h : e.mentions id = false) : replayEvent id kind e = kind := by
  cases e with
  | step _ node =>
    have hne : node ≠ id := by simpa [TransitionEvent.mentions] using h
    rw [replayEvent_step, if_neg hne]
  | workflow | cancellationAccepted | finalizationCancellationAccepted | forceAbortAccepted => rfl

theorem foldl_replayEvent_quiet {id : String} {kind : Option StepStateKind}
    {events : List (TransitionEvent D)} (h : ∀ e ∈ events, e.mentions id = false) :
    events.foldl (replayEvent id) kind = kind := by
  induction events with
  | nil => rfl
  | cons e events ih =>
    rw [List.foldl_cons, replayEvent_quiet (h e List.mem_cons_self)]
    exact ih (fun e' he' => h e' (List.mem_cons_of_mem _ he'))

theorem follow_quiet {e : TransitionEvent D} {detail : Option ObservedStepTransition}
    (h : e.mentions v.id = false) : v.follow (normalizeTransition utc ⟨e, detail⟩) = v := by
  cases e with
  | step _ node =>
    have hne : node ≠ v.id := by simpa [TransitionEvent.mentions] using h
    simp [follow, normalizeTransition, mapDeadline, hne]
  | workflow | cancellationAccepted | finalizationCancellationAccepted | forceAbortAccepted => rfl

/-- The records of a reduction take the view of a node to the state after it. -/
theorem NodeShows.replay {events : List (TransitionEvent D)} {kind : StepStateKind}
    (hrt : t.steps.get? v.id = some rt) (hcomplete : OutputsComplete declared rt.state)
    (hseeded : rt.state.kind ≠ .inherited) (hstate : v.state = kind)
    (hdeclared : v.outputs.keys = declared)
    (hsettled : kind.isTerminal = true → NodeShows declared v rt.state)
    (hopen : kind.isTerminal = false → ∀ name disposition,
      v.outputs.get? name = some disposition → disposition = .pending)
    (hreplay : Workflow.replay v.id kind events = some rt.state.kind) :
    NodeShows declared ((events.map (fun event => normalizeTransition utc
      ⟨event, observedStepTransition event t⟩)).foldl follow v) rt.state := by
  induction events generalizing v kind with
  | nil =>
    cases hreplay
    cases hterminal : rt.state.isTerminal with
    | true => exact hsettled (by rw [StepState.isTerminal_kind, hterminal])
    | false =>
      refine ⟨hstate, hdeclared, fun name disposition hget => ?_⟩
      rw [outputDisposition_unsettled hterminal]
      exact hopen (by rw [StepState.isTerminal_kind, hterminal]) name disposition hget
  | cons e events ih =>
    rw [Workflow.replay, List.foldl_cons] at hreplay
    rw [List.map_cons, List.foldl_cons]
    by_cases hmentions : e.mentions v.id = true
    · cases e with
      | step sequence node role policy source target =>
        obtain rfl : node = v.id := by simpa [TransitionEvent.mentions] using hmentions
        rw [replayEvent_step, if_pos rfl] at hreplay
        split_ifs at hreplay with hsource
        · simp only [follow, normalizeTransition, mapDeadline, if_true]
          have hid := applyTransition_id v target (observedStepTransition
            (.step sequence v.id role policy source target) t)
          cases hterminal : target.isTerminal with
          | true =>
            -- Nothing mentions the node after it settled.
            have hquiet := replay_settled hterminal (by rw [Workflow.replay, hreplay]; simp)
            have htarget : target = rt.state.kind := by
              rw [foldl_replayEvent_quiet hquiet] at hreplay
              exact Option.some.inj hreplay
            subst htarget
            have hshows : NodeShows declared (v.applyTransition rt.state.kind
                (observedStepTransition
                  (.step sequence v.id role policy source rt.state.kind) t)) rt.state := by
              rw [observedStepTransition_settled hrt
                (by rw [← StepState.isTerminal_kind, hterminal])]
              exact .settle hdeclared hcomplete
                (by rw [← StepState.isTerminal_kind, hterminal]) hseeded
            refine ih (by rw [hid]; exact hrt) hshows.shown hshows.names (fun _ => hshows)
              (fun hfalse => ?_) (by rw [hid]; exact hreplay)
            rw [hterminal] at hfalse
            cases hfalse
          | false =>
            obtain ⟨hshown, houtputs⟩ := applyTransition_unsettled (v := v) hterminal
              (observedStepTransition (.step sequence v.id role policy source target) t)
            refine ih (by rw [hid]; exact hrt) hshown (by rw [houtputs]; exact hdeclared)
              (fun htrue => ?_) ?_ (by rw [hid]; exact hreplay)
            · rw [hterminal] at htrue
              cases htrue
            · intro _
              rw [houtputs]
              refine hopen ?_
              obtain ⟨hkind, hsource⟩ := hsource
              cases hkind
              exact hsource
        · rw [foldl_replayEvent_none] at hreplay
          cases hreplay
      | workflow | cancellationAccepted | finalizationCancellationAccepted
      | forceAbortAccepted => cases hmentions
    · rw [follow_quiet (by simpa using hmentions)]
      refine ih hrt hstate hdeclared hsettled hopen ?_
      rwa [replayEvent_quiet (by simpa using hmentions)] at hreplay

section Initial

variable (h : Accepted document workflow)
include h

end Initial

variable [ConditionOutput V] {definition : RuntimeDefinition} {utc : D → Utc}
  {m n : Emission O C V D}

/-- The view of a run shows a state of the reducer. -/
structure Shows (utc : D → Utc) (view : WorkflowRunViewState Utc)
    (s : RuntimeState C V D) : Prop where
  indexed : view.Indexed
  workflow : view.workflow = s.workflow.mapDeadline utc
  forceAbort : view.forceAbort = s.forceAbort
  nodes : ∀ v ∈ view.steps, ∃ d rt, s.definition.steps.get? v.id = some d ∧
    s.steps.get? v.id = some rt ∧ NodeShows d.declaredOutputs v rt.state

theorem foldl_follow_id (transitions : List (TransitionObservation Utc))
    (v : WorkflowRunStepViewState) :
    (transitions.foldl WorkflowRunStepViewState.follow v).id = v.id := by
  induction transitions generalizing v with
  | nil => rfl
  | cons transition transitions ih => exact (ih _).trans (follow_id v transition)

/-- The records of a reduction take the view to the state after it. -/
theorem Shows.run (h : Shows utc view s) (hreach : Reachable definition .empty m s)
    (hrun : Run s n t) :
    Shows utc (view.applyTransitions (n.events.map (fun event => normalizeTransition utc
      ⟨event, observedStepTransition event t⟩))) t := by
  have hreach' : Reachable definition .empty (m * n) t := hreach.trans hrun
  obtain ⟨hindexed, hsteps, hworkflow, hforce⟩ := applyTransitions_spec
    (n.events.map (fun event => normalizeTransition utc ⟨event, observedStepTransition event t⟩))
    h.indexed
  have hevents : (n.events.map (fun event => normalizeTransition utc
      ⟨event, observedStepTransition event t⟩)).map TransitionObservation.event =
      n.events.map (mapDeadline utc) := by
    rw [List.map_map]
    rfl
  have hphase := hrun.shownWorkflow utc
  refine ⟨hindexed, ?_, ?_, ?_⟩
  · rw [hworkflow, hevents, h.workflow]
    exact hphase.1
  · rw [hforce, hevents, h.forceAbort]
    exact hphase.2
  · rw [hsteps]
    intro v' hv'
    obtain ⟨v, hv, rfl⟩ := List.mem_map.mp hv'
    obtain ⟨d, rt, hd, hrt, hshows⟩ := h.nodes v hv
    have hdefinition : t.definition = s.definition := by
      rw [hreach'.definition_eq, hreach.definition_eq]
    obtain ⟨rt', hrt'⟩ := hreach'.nodesMatch.runtime (hdefinition ▸ hd)
    refine ⟨d, rt', ?_, ?_, ?_⟩
    · rw [foldl_follow_id, hdefinition]
      exact hd
    · rw [foldl_follow_id]
      exact hrt'
    · refine NodeShows.replay hrt' ?_ (hreach'.not_inherited hrt') hshows.shown hshows.names ?_ ?_
        (hrun.replayed hrt hrt')
      · cases hstate : rt'.state with
        | succeeded =>
          exact hreach'.succeeded_outputs (by rw [← hreach.definition_eq]; exact hd) hrt' hstate
        | _ => trivial
      · intro hterminal
        rw [StepState.isTerminal_kind] at hterminal
        cases (hrun.settled hd hrt hterminal).symm.trans hrt'
        exact hshows
      · intro hopen name disposition hget
        rw [StepState.isTerminal_kind] at hopen
        rw [hshows.dispositions name disposition hget, outputDisposition_unsettled hopen]

variable {document : WorkflowDocument} {workflow : ValidatedWorkflow}
  {inputs : BTreeMap String ResolvedInput} {parallel transitions : Nat}

variable [ProvisionalStepResources O] [NodeFailureSource C]

end ScherzoCloud.Workflow
