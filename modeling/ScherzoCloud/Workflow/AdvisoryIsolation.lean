import ScherzoCloud.Workflow.Blockers
import ScherzoCloud.Workflow.Outcome

/-!
# Advisory nodes do not block required ones

While a gate is open, a required node is blocked only by required producers: it
reads no output of an advisory node, and a control dependency on an advisory
node is met by its failure too.  The gate that was open at an event can be read
off the log.
-/

namespace ScherzoCloud.Workflow

open Collections
open RuntimeDefinition (fromAdmitted)
open RuntimeState (tick_workflow get?_commit_self)

variable {O C V D : Type} {s t : RuntimeState C V D} {definition : RuntimeDefinition} {id : String}
  {rt : StepRuntimeState C V} {issue : PrimaryIssue} {role : WorkflowNodeRole}
  {m n : Emission O C V D} {o : Option (Occurrence O C V D)} {seed : ExecutionSeed V}
  {before after : List (TransitionEvent D)} {event : TransitionEvent D}

/-- The node that a prerequisite waits for. -/
def Prerequisite.producer : Prerequisite → Option String
  | .control node => some node
  | .condition reference | .body reference => outputReferenceProducer reference

/-- A prerequisite waits for a required node. -/
def RefersToRequired (definition : RuntimeDefinition) (p : Prerequisite) : Prop :=
  ∃ producer q, p.producer = some producer ∧ definition.steps.get? producer = some q ∧
    q.failurePolicy = .required

variable {d : RuntimeStep} {p : Prerequisite}

/-- An output that a node reads is one of a node that it may read. -/
theorem NodeFacts.value_producer (h : NodeFacts definition d) (hp : p ∈ d.evidencePrerequisites)
    (hkind : p.kind ≠ .control) :
    ∃ producer q, p.producer = some producer ∧ MayRead definition d producer q := by
  obtain ⟨-, producer, q, hproducer, hread⟩ := h.value_evidence p hp hkind
  refine ⟨producer, q, ?_, hread⟩
  cases p with
  | control => exact absurd rfl hkind
  | condition | body => exact hproducer

/-- What a node is blocked with blocks it. -/
theorem IssueMove.blocks [ConditionOutput V] {rt' : StepRuntimeState C V} {detail : BlockedDetail}
    (h : IssueMove s id d rt rt' issue) (hstate : rt'.state = .blocked detail)
    (hfacts : NodeFacts definition d) (hcoherent : s.definition.Coherent)
    (hd : s.definition.steps.get? id = some d) (hp : p ∈ detail.prerequisites) : Blocks s d p := by
  cases h with
  | fail | conditionFailed => cases hstate
  | blockOrdinary _ _ hid hblockers =>
    cases hstate
    have hrole := hcoherent.role_eq .step hid hd
    exact ordinaryUnsatisfied_blocks hfacts hrole ((BlockedDetail.mem_new hblockers).mp hp)
  | blockCondition _ _ _ _ _ _ hblockers =>
    cases hstate
    exact conditionBlockers_blocks hfacts ((BlockedDetail.mem_new hblockers).mp hp)
  | blockInput _ _ _ _ _ hblockers =>
    cases hstate
    exact unavailableReferences_blocks ((BlockedDetail.mem_new hblockers).mp hp)

/-- A settled step that does not meet a control dependency while the gate is open is required. -/
theorem control_required (hinv : PhaseInvariant s) (hdefinition : s.definition = definition)
    (hgate : phaseGateOpen s .step = true) {prerequisite : ResolvedDirectPrerequisite}
    {q : RuntimeStep} (hq : definition.steps.get? prerequisite.producer = some q)
    (hrole : q.role = .step) (hrt : s.steps.get? prerequisite.producer = some rt)
    (hterminal : rt.state.isTerminal = true)
    (hunmet : ordinaryControlSatisfied s prerequisite = false) : q.failurePolicy = .required := by
  have hallows := hinv.nodes _ q rt (by rw [hdefinition]; exact hq) hrt
  rw [phaseGateOpen_step.mp hgate, hrole] at hallows
  unfold ordinaryControlSatisfied at hunmet
  simp only [hrt, hdefinition, hq, Option.any_some] at hunmet
  cases hstate : rt.state with
  | failed | blocked =>
    rw [hstate] at hunmet
    cases hpolicy : q.failurePolicy with
    | required => rfl
    | advisory => rw [hpolicy] at hunmet; cases hunmet
  | notRun | cancelled => rw [hstate] at hallows; cases hallows
  | succeeded | skipped | inherited => rw [hstate] at hunmet; cases hunmet
  | pending | starting | running | capturingOutputs | recovering | cancelling =>
    rw [hstate] at hterminal
    cases hterminal

/-- What blocks a required node while its gate is open is required. -/
theorem Blocks.required (h : Blocks s d p) (hfacts : NodeFacts definition d)
    (hrequired : d.failurePolicy = .required) (hinv : PhaseInvariant s)
    (hdefinition : s.definition = definition) (hgate : phaseGateOpen s d.role = true) :
    RefersToRequired definition p := by
  cases h with
  | value hmem hkind =>
    obtain ⟨producer, q, hproducer, hread⟩ := hfacts.value_producer hmem hkind
    exact ⟨producer, q, hproducer, hread.node, hread.authority hrequired⟩
  | control hrole hmem _ _ hrt hterminal hunmet =>
    obtain ⟨-, q, hq, hqrole⟩ := hfacts.producer _ hmem
    rw [hrole] at hgate hqrole
    exact ⟨_, q, rfl, hq, control_required hinv hdefinition hgate hq hqrole hrt hterminal hunmet⟩

section Gates

/-- The role whose nodes may be started in a workflow state. -/
def openRole : WorkflowState D → Option WorkflowNodeRole
  | .executing .open => some .step
  | .finalizing _ .open _ => some .finalizer
  | _ => none

/-- The open gate after one more event. -/
def gateAfter (gate : Option WorkflowNodeRole) : TransitionEvent D → Option WorkflowNodeRole
  | .step _ _ _ _ _ _ => gate
  | .workflow _ _ workflow => openRole workflow
  | .cancellationAccepted _ _ _ | .finalizationCancellationAccepted _ _ _
  | .forceAbortAccepted _ _ _ => none

/-- The gate that a log leaves open. -/
def logGate (events : List (TransitionEvent D)) : Option WorkflowNodeRole :=
  events.foldl gateAfter (some .step)

theorem phaseGateOpen_iff : phaseGateOpen s role = true ↔ openRole s.workflow = some role := by
  cases hworkflow : s.workflow with
  | executing gate | finalizing _ gate =>
    cases gate <;> cases role <;> simp [phaseGateOpen, openRole, hworkflow]
  | succeeded | failed | cancelled => cases role <;> simp [phaseGateOpen, openRole, hworkflow]

variable {reason : CancellationReason} {deadline : D} {force : Option CancellationOperationId}
  {index next : Nat} {ids : List String}

theorem CancelMove.gateAfter (h : CancelMove reason deadline force index s id next m t)
    (gate : Option WorkflowNodeRole) : m.events.foldl gateAfter gate = gate := by
  cases h <;> rfl

theorem CancelRun.gateAfter (h : CancelRun reason deadline force index ids s m t)
    (gate : Option WorkflowNodeRole) : m.events.foldl gateAfter gate = gate := by
  induction h with
  | nil => rfl
  | cons hmove _ ih => rw [Emission.mul_events, List.foldl_append, hmove.gateAfter, ih]

variable [ConditionOutput V]

/-- The events of a step show what it does to the gates. -/
theorem ReducerStep.gateAfter (hstep : ReducerStep o s m t) :
    m.events.foldl gateAfter (openRole s.workflow) = openRole t.workflow := by
  cases hstep with
  | cancelOrdinary _ _ hcancel | cancelFinalization _ hcancel =>
    rw [Emission.mul_events, List.foldl_append, hcancel.gateAfter,
      hcancel.frame.1.trans (tick_workflow _)]
    rfl
  | @forceOrdinary gate _ _ _ _ _ _ hcancel | @forceFinalization _ gate _ _ _ _ _ _ _ hcancel =>
    rw [Emission.mul_events, List.foldl_append, hcancel.gateAfter,
      hcancel.frame.1.trans (tick_workflow _)]
    cases gate <;> rfl
  | primaryIssue | enter | finish => rfl
  | node | complete | issue | note | passed | release | operation =>
    simp [nodeEvent, Workflow.gateAfter]

/-- The log of a run determines which gate is open. -/
theorem Reachable.logGate (h : Reachable definition seed m s) :
    logGate m.events = openRole s.workflow := by
  refine h.induction (I := fun m s => Workflow.logGate m.events = openRole s.workflow) rfl ?_
  intro o m s n t _ hs hstep
  rw [Workflow.logGate, Emission.mul_events, List.foldl_append, ← hstep.gateAfter, ← hs]
  rfl

end Gates

section Isolation

/-- An event of a log that is continued lies in the log or in its continuation. -/
theorem append_eq_append_cons {earlier later : List (TransitionEvent D)}
    (h : earlier ++ later = before ++ event :: after) :
    (∃ rest, earlier = before ++ event :: rest) ∨
      ∃ middle, before = earlier ++ middle ∧ later = middle ++ event :: after := by
  rcases List.append_eq_append_iff.mp h with ⟨middle, hbefore, hlater⟩ | ⟨middle, hearlier, hrest⟩
  · exact Or.inr ⟨middle, hbefore, hlater⟩
  · cases middle with
    | nil =>
      refine Or.inr ⟨[], ?_, hrest.symm⟩
      rw [hearlier, List.append_nil, List.append_nil]
    | cons e rest =>
      obtain ⟨rfl, -⟩ := List.cons.inj hrest
      exact Or.inl ⟨rest, hearlier⟩

/-- A required issue among events of which only the first can be one. -/
theorem eq_head_of_requiredIssue {first : TransitionEvent D} {rest : List (TransitionEvent D)}
    (hevents : first :: rest = before ++ event :: after)
    (hrest : ∀ e ∈ rest, requiredIssue e = none) (hevent : requiredIssue event ≠ none) :
    before = [] ∧ event = first := by
  cases before with
  | nil => exact ⟨rfl, (List.cons.inj hevents).1.symm⟩
  | cons e before =>
    refine absurd (hrest event ?_) hevent
    rw [(List.cons.inj hevents).2]
    exact List.mem_append_right _ List.mem_cons_self

variable [ConditionOutput V]

/-- A step raises no required issue, or it settles a node with an issue first. -/
theorem ReducerStep.silent_or_issue (hstep : ReducerStep o s n t) :
    (∀ e ∈ n.events, requiredIssue e = none) ∨
      ∃ id d rt rt' issue rest, s.definition.steps.get? id = some d ∧
        IssueMove s id d rt rt' issue ∧ t.steps.get? id = some rt' ∧
        n.events = nodeEvent s id d rt rt' :: rest ∧ ∀ e ∈ rest, requiredIssue e = none := by
  cases hstep with
  | node _ _ hmove =>
    refine Or.inl fun e he => ?_
    obtain ⟨hfailed, hblocked⟩ := hmove.kind_ne
    rw [List.mem_singleton.mp he, requiredIssue_nodeEvent, if_neg (by tauto)]
  | complete =>
    refine Or.inl fun e he => ?_
    rcases List.mem_pair.mp he with rfl | rfl <;>
      rw [requiredIssue_nodeEvent, if_neg (by simp [StepState.kind])]
  | issue hd hrt hmove =>
    exact Or.inr ⟨_, _, _, _, _, [], hd, hmove, get?_commit_self hrt _, rfl, by simp⟩
  | primaryIssue hd hrt hmove =>
    refine Or.inr ⟨_, _, _, _, _, [_], hd, hmove, ?_, rfl, ?_⟩
    · rw [RuntimeState.advance_steps]
      exact get?_commit_self hrt _
    · intro e he
      rw [List.mem_singleton.mp he]
      rfl
  | cancelOrdinary _ _ hcancel | cancelFinalization _ hcancel | forceOrdinary _ _ hcancel
  | forceFinalization _ _ hcancel =>
    refine Or.inl fun e he => ?_
    rcases List.mem_cons.mp he with rfl | he
    · rfl
    · exact (hcancel.silent e he).1
  | enter | finish =>
    refine Or.inl fun e he => ?_
    rw [List.mem_singleton.mp he]
    rfl
  | note | passed | release | operation => exact Or.inl (by simp)

/-- An issue is carried from the state before, or it is that of a required node that met an
open gate. -/
theorem ReducerStep.carried_before (hstep : ReducerStep o s n t) (hinv : PhaseInvariant s)
    (h : carriedIssue t.workflow = some issue) : carriedIssue s.workflow = some issue ∨
      ∃ id d rt rt', s.definition.steps.get? id = some d ∧ IssueMove s id d rt rt' issue ∧
        d.failurePolicy = .required ∧ phaseGateOpen s d.role = true := by
  cases hstep with
  | @primaryIssue id d rt rt' _ _ hd _ hmove htarget =>
    obtain ⟨hrequired, ⟨hrole, hworkflow, rfl⟩ | ⟨hrole, hworkflow, rfl⟩⟩ :=
      issueTarget_spec htarget
    all_goals
      cases h
      refine Or.inr ⟨id, d, rt, rt', hd, hmove, hrequired, ?_⟩
      rw [hrole, phaseGateOpen_iff, hworkflow]
      rfl
  | @cancelOrdinary gate _ _ _ _ _ hphase _ hcancel
  | @forceOrdinary gate _ _ _ _ hphase _ hcancel =>
    rw [hcancel.frame.1.trans (tick_workflow _)] at h
    rw [hphase]
    cases gate <;> exact Or.inl h
  | cancelFinalization hphase hcancel | forceFinalization hphase _ hcancel =>
    rw [hcancel.frame.1.trans (tick_workflow _)] at h
    rw [hphase]
    exact Or.inl h
  | enter _ houtcome =>
    rw [carriedIssue_outcome houtcome]
    exact Or.inl h
  | finish hready =>
    rw [← carriedIssue_finish hinv hready]
    exact Or.inl h
  | _ => exact Or.inl (by simpa using h)

/-- Required nodes that were blocked while their gate was open wait for required nodes. -/
def IsolationLog (definition : RuntimeDefinition) (events : List (TransitionEvent D))
    (s : RuntimeState C V D) : Prop :=
  ∀ before sequence id role kind after,
    events = before ++ .step sequence id role .required kind .blocked :: after →
    logGate before = some role →
    ∃ rt detail, s.steps.get? id = some rt ∧ rt.state = .blocked detail ∧
      ∀ p ∈ detail.prerequisites, RefersToRequired definition p

/-- The issue that decides the outcome names no advisory node. -/
def CarriedIsolated (definition : RuntimeDefinition) (workflow : WorkflowState D) : Prop :=
  ∀ issue, carriedIssue workflow = some issue → ∀ detail, issue.detail = .blocked detail →
    ∀ p ∈ detail.prerequisites, RefersToRequired definition p

variable (hcoherent : definition.Coherent)
  (hfacts : ∀ id d, definition.steps.get? id = some d → NodeFacts definition d)
include hcoherent hfacts

theorem Reachable.isolationLog (h : Reachable definition seed m s) :
    IsolationLog definition m.events s := by
  refine h.induction (I := fun m s => IsolationLog definition m.events s) ?_ ?_
  · intro before sequence id role kind after hevents
    cases before <;> cases hevents
  intro o m s n t hreach hs hstep before sequence id role kind after hevents hgate
  have hinv := hreach.phase hcoherent
  rcases append_eq_append_cons hevents with ⟨rest, hm⟩ | ⟨middle, rfl, hn⟩
  · -- The event came before, and the node has kept its state.
    obtain ⟨rt, detail, hrt, hstate, hrequired⟩ := hs before sequence id role kind rest hm hgate
    obtain ⟨d, hd⟩ := hreach.nodesMatch.definition hrt
    obtain ⟨rt', hrt', hchange⟩ := hstep.nodeChange hd hrt
    have hfixed := hchange.settled_fixed (by rw [hstate]; rfl)
    exact ⟨rt', detail, hrt', hfixed ▸ hstate, hrequired⟩
  · -- The event is one of this step.
    rcases hstep.silent_or_issue with hsilent | ⟨id', d, rt, rt', issue, rest, hd, hmove, hrt',
      hfirst, hrest⟩
    · refine absurd (hsilent (.step sequence id role .required kind .blocked) ?_)
        (by simp [requiredIssue])
      rw [hn]
      exact List.mem_append_right _ List.mem_cons_self
    · rw [hfirst] at hn
      obtain ⟨rfl, hevent⟩ := eq_head_of_requiredIssue hn hrest (by simp [requiredIssue])
      rw [List.append_nil, hreach.logGate, ← phaseGateOpen_iff] at hgate
      simp only [nodeEvent, TransitionEvent.step.injEq] at hevent
      obtain ⟨-, rfl, rfl, hrequired, -, hkind⟩ := hevent
      have hnode := hfacts _ d (hreach.definition_eq ▸ hd)
      obtain ⟨detail, hstate⟩ : ∃ detail, rt'.state = .blocked detail := by
        rcases hmove.settles.2 with ⟨detail, hstate, -⟩ | ⟨detail, hstate, -⟩
        · rw [hstate] at hkind
          cases hkind
        · exact ⟨detail, hstate⟩
      refine ⟨rt', detail, hrt', hstate, fun p hp => ?_⟩
      exact (hmove.blocks hstate hnode (hreach.coherent hcoherent) hd hp).required hnode
        hrequired.symm hinv hreach.definition_eq hgate

/-- The carried issue of a run names no advisory node. -/
theorem Reachable.carriedIsolated (h : Reachable definition seed m s) :
    CarriedIsolated definition s.workflow := by
  refine h.invariant (I := fun s => CarriedIsolated definition s.workflow)
    (fun issue hissue => nomatch hissue) ?_
  rintro o s n t ⟨m, hreach⟩ hs hstep issue hissue detail hdetail p hp
  have hinv := hreach.phase hcoherent
  rcases hstep.carried_before hinv hissue with hbefore |
    ⟨id, d, rt, rt', hd, hmove, hrequired, hgate⟩
  · exact hs issue hbefore detail hdetail p hp
  · have hnode := hfacts id d (hreach.definition_eq ▸ hd)
    obtain ⟨-, ⟨detail', -, rfl⟩ | ⟨detail', hstate, rfl⟩⟩ := hmove.settles
    · cases hdetail
    · cases hdetail
      exact (hmove.blocks hstate hnode (hreach.coherent hcoherent) hd hp).required hnode hrequired
        hinv hreach.definition_eq hgate

end Isolation

variable [ConditionOutput V] [ProvisionalStepResources O] [NodeFailureSource C]

/-- A required node that is blocked while its gate is open waits for required nodes only, and so
does the node whose issue decides the outcome. -/
theorem advisory_isolation {decoded : DecodedDocument} {workflow : ValidatedWorkflow}
    (hvalid : validate decoded.document = .ok workflow)
    (inputs : BTreeMap String ResolvedInput)
    (parallel transitions : Nat)
    (initial : Option (InitialCancellation D))
    (occurrences : List (Occurrence O C V D))
    {run : Reduction O C V D}
    (hrun : run = admittedRun workflow inputs parallel transitions initial occurrences) :
    (∀ before sequence id role kind after,
      run.events = before ++ .step sequence id role .required kind .blocked :: after →
      logGate before = some role →
      ∃ rt detail, run.state.steps.get? id = some rt ∧ rt.state = .blocked detail ∧
        ∀ p ∈ detail.prerequisites, RefersToRequired
          (fromAdmitted workflow inputs parallel transitions) p) ∧
    ∀ issue later, run.state.workflow = .failed issue later →
      IssueHolds run.state issue ∧ ∀ detail, issue.detail = .blocked detail →
        ∀ p ∈ detail.prerequisites, RefersToRequired
          (fromAdmitted workflow inputs parallel transitions) p := by
  have hcoherent := fromAdmitted_coherent hvalid inputs parallel transitions
  have hfacts := validate_nodeFacts hvalid inputs parallel transitions
  have hreach := admittedRun_reachable initial hcoherent occurrences
  rw [← hrun] at hreach
  refine ⟨hreach.isolationLog hcoherent hfacts, fun issue later hfailed => ?_⟩
  have hcarried : carriedIssue run.state.workflow = some issue := by
    rw [hfailed]
    rfl
  exact ⟨((hreach.issueLog hcoherent).carried issue hcarried).2.1,
    hreach.carriedIsolated hcoherent hfacts issue hcarried⟩

/-- A report on a log that is only built in release mode.  Both follow the advisory lint. -/
def releaseDecoded : DecodedDocument where
  document := commandDocument [("mode", .text)]
    [("build", ⟨textCommand .required
        (some (.equals (.reference (.input "mode") none) (.literal (.string "release"))))
        [] ["log"], ["lint"], none⟩),
      ("lint", ⟨textCommand .advisory none [] [], [], none⟩),
      ("report", ⟨textCommand .required none [("log", .output ⟨"build", "log"⟩)] [],
        ["lint"], none⟩)]
    [] []
  structural := by decide

/-- The lint fails.  In another mode the build is skipped, and it alone blocks the report. -/
def blockedReport : Reduction Unit FailureDetail String Nat :=
  admittedRun (acceptedWorkflow releaseDecoded.document)
    (.ofList [("mode", .text "debug")]) 1 16 none
    [.stepStarted "lint" ⟨1⟩, .stepExecutionFailed "lint" ⟨1⟩ (.ofCode .execution .commandExit)]

theorem blockedReport_isolation :
    (∃ rt, blockedReport.state.steps.get? "lint" = some rt ∧
        rt.state = .failed (.ofCode .execution .commandExit)) ∧
      blockedReport.state.workflow = .failed (.ofBlocked ⟨"report", .step⟩
        ⟨.prerequisitesUnsatisfied, [.body "outputs.build.log"]⟩) none ∧
      RefersToRequired (fromAdmitted (acceptedWorkflow releaseDecoded.document)
        (BTreeMap.ofList [("mode", .text "debug")]) 1 16) (.body "outputs.build.log") := by
  have hfailed : blockedReport.state.workflow = .failed (.ofBlocked ⟨"report", .step⟩
      ⟨.prerequisitesUnsatisfied, [.body "outputs.build.log"]⟩) none := by decide
  have hisolated := advisory_isolation
    (show validate releaseDecoded.document = .ok
      (acceptedWorkflow releaseDecoded.document) from rfl)
    (.ofList [("mode", .text "debug")]) 1 16 none _ (show blockedReport = _ from rfl)
  exact ⟨⟨_, rfl, rfl⟩, hfailed, (hisolated.2 _ _ hfailed).2 _ rfl _ (List.mem_singleton_self _)⟩

end ScherzoCloud.Workflow
