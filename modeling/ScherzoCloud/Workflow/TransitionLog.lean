import ScherzoCloud.Workflow.TransitionCeiling

/-!
# The transition log

The events of a run are all that the journal, the presentation and Cloud see of
it.  Here they are read back: `replay` follows the transitions of one node and
gives up when one of them does not start where the last one ended.
-/

namespace ScherzoCloud.Workflow

open Emission (mul_events one_events)
open Collections

variable {O C V D : Type} {deadline : D} {s t : RuntimeState C V D}
  {events later : List (TransitionEvent D)} {e : TransitionEvent D} {reason : CancellationReason}
  {force : Option CancellationOperationId} {ids : List String} {m : Emission O C V D}
  {o : Option (Occurrence O C V D)} {id node : String} {role : WorkflowNodeRole}
  {policy : FailurePolicy} {target : StepStateKind} {rt : StepRuntimeState C V}

section Numbers

def TransitionEvent.sequence : TransitionEvent D → TransitionSequence
  | .step sequence _ _ _ _ _ => sequence
  | .workflow sequence _ _ => sequence
  | .cancellationAccepted sequence _ _ => sequence
  | .finalizationCancellationAccepted sequence _ _ => sequence
  | .forceAbortAccepted sequence _ _ => sequence

/-- Events that follow `n` committed ones are numbered on from there. -/
def NumberedFrom (n : Nat) (events : List (TransitionEvent D)) : Prop :=
  events.map TransitionEvent.sequence = List.range' (n + 1) events.length

variable {n : Nat}

theorem NumberedFrom.nil : NumberedFrom n ([] : List (TransitionEvent D)) := rfl

theorem NumberedFrom.append (h : NumberedFrom n events)
    (hlater : NumberedFrom (n + events.length) later) : NumberedFrom n (events ++ later) := by
  unfold NumberedFrom at *
  rw [List.map_append, h, hlater, List.length_append, ← List.range'_append_1]
  congr 2
  omega

/-- The next event gets the next number, if there is one. -/
theorem NumberedFrom.cons (he : e.sequence = s.nextSeq) (h : SequenceExact n s)
    (hroom : n < s.definition.maximumTransitions) (hlt : n + 1 < 2 ^ 64)
    (hevents : NumberedFrom (n + 1) events) : NumberedFrom n (e :: events) := by
  unfold NumberedFrom at *
  rw [List.map_cons, he, h.nextSeq hroom hlt, hevents, List.length_cons, List.range'_succ]

variable {index : Nat}

theorem CancelRun.numbered {maximum : Nat}
    (hcancel : CancelRun reason deadline force index ids s m t)
    (hmaximum : s.definition.maximumTransitions = maximum) (h : SequenceExact n s)
    (hroom : n + m.events.length ≤ maximum) (hlt : n + m.events.length < 2 ^ 64) :
    NumberedFrom n m.events := by
  induction hcancel generalizing n with
  | nil => exact .nil
  | cons hmove hrest ih =>
    have hdefinition := hmove.definition
    rw [mul_events, List.length_append] at hroom hlt
    rw [mul_events]
    cases hmove with
    | drop | contain =>
      rw [List.length_singleton] at hroom hlt
      refine .cons rfl h (by omega) (by omega) (ih ?_ (h.commit _ _) (by omega) (by omega))
      rw [hdefinition, hmaximum]
    | escalate =>
      rw [List.length_nil] at hroom hlt
      exact ih hmaximum (h.congr rfl rfl rfl) (by omega) (by omega)
    | pass =>
      rw [one_events, List.length_nil] at hroom hlt
      exact ih hmaximum h (by omega) (by omega)

variable [ConditionOutput V]

/-- A step numbers its events on from those that were committed. -/
theorem ReducerStep.numbered (hstep : ReducerStep o s m t) (h : SequenceExact n s)
    (hroom : n + m.events.length ≤ s.definition.maximumTransitions)
    (hlt : n + m.events.length < 2 ^ 64) : NumberedFrom n m.events := by
  cases hstep with
  | note | passed | release | operation => exact .nil
  | node | issue | enter | finish =>
    rw [List.length_singleton] at hroom hlt
    exact .cons rfl h (by omega) (by omega) .nil
  | complete | primaryIssue =>
    rw [List.length_cons, List.length_singleton] at hroom hlt
    refine .cons rfl h (by omega) (by omega) (.cons rfl (h.commit _ _) ?_ (by omega) .nil)
    rw [RuntimeState.commit_definition]
    omega
  | cancelOrdinary _ _ hcancel | forceOrdinary _ _ hcancel | forceFinalization _ _ hcancel
  | cancelFinalization _ hcancel =>
    rw [mul_events, List.length_append, List.length_singleton] at hroom hlt
    refine .cons rfl h (by omega) (by omega) (hcancel.numbered
      (congrArg RuntimeDefinition.maximumTransitions (RuntimeState.tick_definition _))
      (SequenceExact.tick (h.congr rfl rfl rfl)) ?_ (by omega))
    show _ ≤ s.definition.maximumTransitions
    omega

end Numbers

section Replay

def StepStateKind.isTerminal : StepStateKind → Bool
  | .succeeded | .inherited | .failed | .blocked | .skipped | .notRun | .cancelled => true
  | .pending | .starting | .running | .capturingOutputs | .recovering | .cancelling => false

theorem StepState.isTerminal_kind (state : StepState V) :
    state.kind.isTerminal = state.isTerminal := by
  cases state <;> rfl

def TransitionEvent.mentions (id : String) : TransitionEvent D → Bool
  | .step _ node _ _ _ _ => node = id
  | .workflow _ _ _ | .cancellationAccepted _ _ _ | .finalizationCancellationAccepted _ _ _
  | .forceAbortAccepted _ _ _ => false

/-- Follow an event for one node.  The replay fails on a transition that does not start in
the state the node is in, and on one that starts in a settled state. -/
def replayEvent (id : String) (kind : Option StepStateKind) :
    TransitionEvent D → Option StepStateKind
  | .step _ node _ _ source target =>
    if node = id then
      if kind = some source ∧ source.isTerminal = false then some target else none
    else kind
  | .workflow _ _ _ | .cancellationAccepted _ _ _ | .finalizationCancellationAccepted _ _ _
  | .forceAbortAccepted _ _ _ => kind

/-- The state in which the log leaves a node that started in `kind`. -/
def replay (id : String) (kind : StepStateKind) (events : List (TransitionEvent D)) :
    Option StepStateKind :=
  events.foldl (replayEvent id) (some kind)

variable {kind : StepStateKind}

theorem replayEvent_step {sequence : TransitionSequence} {source : StepStateKind}
    {kind : Option StepStateKind} :
    replayEvent id kind (.step sequence node role policy source target :
      TransitionEvent D) =
      if node = id then
        if kind = some source ∧ source.isTerminal = false then some target else none
      else kind := rfl

@[simp] theorem replay_nil : replay id kind ([] : List (TransitionEvent D)) = some kind :=
  rfl

theorem foldl_replayEvent_none (events : List (TransitionEvent D)) :
    events.foldl (replayEvent id) none = none := by
  induction events with
  | nil => rfl
  | cons e events ih =>
    rw [List.foldl_cons]
    cases e <;> simp [replayEvent, ih]

theorem replay_append : replay id kind (events ++ later) =
    (replay id kind events).bind (fun kind => replay id kind later) := by
  unfold replay
  rw [List.foldl_append]
  cases events.foldl (replayEvent id) (some kind) with
  | none => exact foldl_replayEvent_none later
  | some => rfl

theorem replay_cons : replay id kind (e :: later) =
    (replay id kind [e]).bind (fun kind => replay id kind later) := by
  rw [← replay_append, List.singleton_append]

/-- Nothing that replays mentions a settled node. -/
theorem replay_settled (hkind : kind.isTerminal = true) (h : replay id kind events ≠ none) :
    ∀ e ∈ events, e.mentions id = false := by
  induction events with
  | nil => simp
  | cons e events ih =>
    rw [replay, List.foldl_cons] at h
    have hsilent : e.mentions id = false ∧ replayEvent id (some kind) e = some kind := by
      cases e with
      | step sequence node role policy source target =>
        by_cases hnode : node = id
        · have hfails : replayEvent id (some kind)
              (.step sequence node role policy source target : TransitionEvent D) = none := by
            rw [replayEvent_step, if_pos hnode, if_neg]
            rintro ⟨heq, hopen⟩
            cases heq
            rw [hkind] at hopen
            cases hopen
          rw [hfails, foldl_replayEvent_none] at h
          exact absurd rfl h
        · exact ⟨by simp [TransitionEvent.mentions, hnode],
            by rw [replayEvent_step, if_neg hnode]⟩
      | workflow | cancellationAccepted | finalizationCancellationAccepted
      | forceAbortAccepted => exact ⟨rfl, rfl⟩
    rw [hsilent.2] at h
    intro e' he'
    rcases List.mem_cons.mp he' with rfl | he'
    · exact hsilent.1
    · exact ih h e' he'

variable {rt' : StepRuntimeState C V}

/-- A committed node is replayed by its event, the others are not touched by it. -/
theorem replay_commit {old new : StepRuntimeState C V} {sequence : TransitionSequence}
    (hnode : s.steps.get? node = some old) (hopen : old.state.isTerminal = false)
    (hrt : s.steps.get? id = some rt) (hrt' : (s.commit node new).steps.get? id = some rt')
    (htarget : new.state.kind = target) :
    replay id rt.state.kind ([.step sequence node role policy old.state.kind target] :
      List (TransitionEvent D)) = some rt'.state.kind := by
  rw [replay, List.foldl_cons, List.foldl_nil, replayEvent_step]
  rw [RuntimeState.commit_get?] at hrt'
  by_cases hid : id = node
  · subst hid
    cases hnode.symm.trans hrt
    simp only [if_true, hrt, Option.map_some, Option.some.injEq] at hrt'
    subst hrt'
    simp [StepState.isTerminal_kind, hopen, htarget]
  · rw [if_neg hid, hrt] at hrt'
    cases hrt'
    simp [Ne.symm hid]

/-- A node that is replaced keeps its state. -/
theorem setNode_kind {old new : StepRuntimeState C V} (hnode : s.steps.get? node = some old)
    (hrt : s.steps.get? id = some rt) (hrt' : (s.setNode node new).steps.get? id = some rt')
    (hstate : new.state = old.state) : rt.state.kind = rt'.state.kind := by
  have hview : ∃ rt₁, (s.setNode node new).steps.get? id = some rt₁ ∧
      rt.state.kind = rt₁.state.kind :=
    RuntimeState.setNode_view (P := fun a b => a.state.kind = b.state.kind) hnode hrt
      (fun _ => by rw [hstate]) fun _ => rfl
  obtain ⟨rt₁, hrt₁, hkind⟩ := hview
  cases hrt'.symm.trans hrt₁
  exact hkind

variable {index next : Nat}

theorem CancelMove.replayed (h : CancelMove reason deadline force index s node next m t)
    (hrt : s.steps.get? id = some rt) (hrt' : t.steps.get? id = some rt') :
    replay id rt.state.kind m.events = some rt'.state.kind := by
  cases h with
  | drop _ hnode hstate => exact replay_commit hnode (by rw [hstate]; rfl) hrt hrt' rfl
  | contain _ hnode hstate =>
    exact replay_commit hnode (StepRuntimeState.RunsTarget.unsettled hstate) hrt hrt' rfl
  | escalate hnode => exact congrArg some (setNode_kind hnode hrt hrt' rfl)
  | pass =>
    cases hrt.symm.trans hrt'
    rfl

theorem CancelRun.replayed (h : CancelRun reason deadline force index ids s m t)
    (hrt : s.steps.get? id = some rt) (hrt' : t.steps.get? id = some rt') :
    replay id rt.state.kind m.events = some rt'.state.kind := by
  induction h generalizing rt with
  | nil =>
    cases hrt.symm.trans hrt'
    rfl
  | @cons index next node _ s u t m n hmove _ ih =>
    have hkey : id ∈ u.steps.keys := by
      rw [hmove.keys]
      exact BTreeMap.mem_keys_iff.mpr ⟨rt, hrt⟩
    obtain ⟨rt₁, hrt₁⟩ := BTreeMap.mem_keys_iff.mp hkey
    rw [mul_events, replay_append, hmove.replayed hrt hrt₁, Option.bind_some]
    exact ih hrt₁ hrt'

variable [ConditionOutput V]

/-- The events of a step take a node from the state it had to the state it has. -/
theorem ReducerStep.replayed (hstep : ReducerStep o s m t) (hrt : s.steps.get? id = some rt)
    (hrt' : t.steps.get? id = some rt') :
    replay id rt.state.kind m.events = some rt'.state.kind := by
  cases hstep with
  | node _ hnode hmove | issue _ hnode hmove =>
    exact replay_commit hnode hmove.unsettled hrt hrt' rfl
  | primaryIssue _ hnode hmove =>
    rw [RuntimeState.advance_steps] at hrt'
    refine replay_cons.trans ?_
    rw [nodeEvent, replay_commit hnode hmove.unsettled hrt hrt' rfl]
    rfl
  | @complete node d old _ hnode hstate =>
    have hcapturing := RuntimeState.get?_commit_self hnode (old.dropped .capturingOutputs)
    have hkey : id ∈ (s.commit node (old.dropped .capturingOutputs)).steps.keys := by
      rw [RuntimeState.commit_keys]
      exact BTreeMap.mem_keys_iff.mpr ⟨rt, hrt⟩
    obtain ⟨rt₁, hrt₁⟩ := BTreeMap.mem_keys_iff.mp hkey
    refine replay_cons.trans ?_
    rw [nodeEvent, replay_commit hnode (by rw [hstate]; rfl) hrt hrt₁ rfl]
    exact replay_commit hcapturing rfl hrt₁ hrt' rfl
  | note hnode hnote =>
    rw [one_events, replay_nil, setNode_kind hnode hrt hrt' hnote.1.state]
  | passed _ hnode => rw [one_events, replay_nil, setNode_kind hnode hrt hrt' rfl]
  | release | operation =>
    cases hrt.symm.trans hrt'
    rfl
  | cancelOrdinary _ _ hcancel | forceOrdinary _ _ hcancel | forceFinalization _ _ hcancel
  | cancelFinalization _ hcancel =>
    refine replay_cons.trans ?_
    exact hcancel.replayed ((congrArg (BTreeMap.get? · id) (RuntimeState.tick_steps _)).trans hrt)
      hrt'
  | enter | finish =>
    simp only [RuntimeState.advance_steps] at hrt'
    cases hrt.symm.trans hrt'
    rfl

end Replay

variable [ConditionOutput V] {definition : RuntimeDefinition} {seed : ExecutionSeed V}

/-- A run within its ceiling numbers its events from one. -/
theorem Reachable.numbered (h : Reachable definition seed m s)
    (hroom : m.events.length ≤ definition.maximumTransitions)
    (hlt : m.events.length < 2 ^ 64) : NumberedFrom 0 m.events := by
  refine h.induction (I := fun m _ => m.events.length ≤ definition.maximumTransitions →
    m.events.length < 2 ^ 64 → NumberedFrom 0 m.events) (fun _ _ => .nil) ?_ hroom hlt
  intro o m s n t hreach hs hstep hroom hlt
  rw [mul_events, List.length_append] at hroom hlt
  refine (hs (by omega) (by omega)).append ?_
  rw [Nat.zero_add]
  exact hstep.numbered hreach.sequence (by rw [hreach.definition_eq]; exact hroom) hlt

/-- The state in which a run finds a node. -/
def seededKind (seed : ExecutionSeed V) (id : String) : StepStateKind :=
  if (seed.steps.get? id).isSome then .inherited else .pending

/-- The events of a run take a node from the state it had to the state it has. -/
theorem Run.replayed (h : Run s m t) (hrt : s.steps.get? id = some rt)
    (hrt' : t.steps.get? id = some rt') :
    replay id rt.state.kind m.events = some rt'.state.kind := by
  induction h generalizing rt' with
  | refl =>
    cases hrt.symm.trans hrt'
    rfl
  | tail _ hlast ih =>
    obtain ⟨o, hstep⟩ := hlast
    have hkey := BTreeMap.mem_keys_iff.mpr ⟨rt', hrt'⟩
    rw [hstep.keys] at hkey
    obtain ⟨rt₁, hrt₁⟩ := BTreeMap.mem_keys_iff.mp hkey
    rw [mul_events, replay_append, ih hrt₁, Option.bind_some]
    exact hstep.replayed hrt₁ hrt'

/-- The log takes every node from where it started to where it is. -/
theorem Reachable.replayed (h : Reachable definition seed m s) (hrt : s.steps.get? id = some rt) :
    replay id (seededKind seed id) m.events = some rt.state.kind := by
  obtain ⟨d, hd⟩ := h.nodesMatch.definition hrt
  rw [← Run.replayed h (get?_initialState (h.definition_eq ▸ hd) seed) hrt]
  unfold seededKind initialStep
  cases seed.steps.get? id <;> rfl

variable [ProvisionalStepResources O] [NodeFailureSource C]

/-- The events of a run within its ceiling are numbered from one to the last transition.
Replayed for any node, they lead from the state the run found it in to its current state; after
an event that settles it no event mentions it, and a settled node is never changed again. -/
theorem faithful_log {decoded : DecodedDocument} {workflow : ValidatedWorkflow}
    (hvalid : validate decoded.document = .ok workflow)
    (inputs : BTreeMap String ResolvedInput)
    (parallel transitions : Nat)
    (initial : Option (InitialCancellation D))
    (seed : ExecutionSeed V)
    (occurrences : List (Occurrence O C V D))
    {start : ExecutionStart D}
    (hstart : start =
      ⟨RuntimeDefinition.fromAdmitted workflow inputs parallel transitions, initial⟩)
    {run : Reduction O C V D}
    (hrun : run = ledger start seed occurrences)
    (hwithin : run.state.transitionCapacityExceeded = false) :
    run.events.map TransitionEvent.sequence = List.range' 1 run.state.lastTransitionSequence ∧
    ∀ id rt, run.state.steps.get? id = some rt →
      replay id (seededKind seed id) run.events = some rt.state.kind ∧
      (∀ before after kind, run.events = before ++ after →
        replay id (seededKind seed id) before = some kind → kind.isTerminal = true →
        ∀ e ∈ after, e.mentions id = false) ∧
      (rt.state.isTerminal = true → ∀ future : List (Occurrence O C V D),
        (ledger start seed (occurrences ++ future)).state.steps.get? id = some rt) := by
  have hcoherent : start.definition.Coherent := by
    rw [hstart]
    exact fromAdmitted_coherent hvalid ..
  have hreach := ledger_reachable start seed hcoherent occurrences
  rw [← hrun] at hreach
  have hlt : run.events.length < 2 ^ 63 := by
    subst hstart
    exact hreach.length_events_lt hvalid decoded.structural
  have hlt' : run.events.length < 2 ^ 64 := hlt.trans (by decide)
  have hroom := (hreach.within hlt').mp hwithin
  refine ⟨?_, fun id rt hrt => ⟨hreach.replayed hrt, ?_, ?_⟩⟩
  · rw [hreach.last_eq hlt' hroom]
    exact hreach.numbered hroom hlt'
  · intro before after kind hevents hbefore hkind
    have hall : replay id (seededKind seed id) run.events = some rt.state.kind :=
      hreach.replayed hrt
    rw [hevents, replay_append, hbefore, Option.bind_some] at hall
    exact replay_settled hkind (by simp [hall])
  · intro hterminal future
    obtain ⟨n, hcontinued, -⟩ := ledger_append start seed hcoherent occurrences future
    rw [← hrun] at hcontinued
    obtain ⟨d, hd⟩ := hreach.nodesMatch.definition hrt
    exact hcontinued.settled hd hrt hterminal

/-- The only step runs to its end. -/
def capturedBuild : Reduction Unit FailureDetail String Nat :=
  ledger ⟨RuntimeDefinition.fromAdmitted (acceptedWorkflow singleDocument) .empty 1 8,
    none⟩ .empty
    [.stepStarted "build" ⟨1⟩, .stepExecutionCompleted "build" ⟨1⟩ (),
      .outputsCaptured "build" ⟨3⟩ (.ofList [("log", "done")])]

theorem capturedBuild_log :
    capturedBuild.events.map TransitionEvent.sequence = [1, 2, 3, 4, 5] ∧
    replay "build" .pending capturedBuild.events = some .succeeded := by
  obtain ⟨hnumbered, hnodes⟩ := faithful_log
    (show validate singleDecoded.document = _ from singleDocument_accepted) .empty 1 8 none
    .empty _ rfl (show capturedBuild = _ from rfl) (by decide)
  exact ⟨hnumbered, (hnodes "build" _ rfl).1⟩

end ScherzoCloud.Workflow
