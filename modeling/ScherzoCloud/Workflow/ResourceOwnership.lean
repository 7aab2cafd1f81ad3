import ScherzoCloud.Workflow.PhaseSeparation

/-!
# Provisional resources have one owner

The value that an execution completes with may hold resources.  The reduction of the report
hands it to one action, a capture of the outputs or a release, which comes before the starts
that the reduction adds.  Of a reduction that the coordinator does not apply, only the releases
are left, with one in the place of the capture.
-/

namespace ScherzoCloud.Workflow

open ProvisionalStepResources (requiresRelease)
open Collections

variable {O C V D : Type} {s t : RuntimeState C V D} {n : Emission O C V D}
  {o : Option (Occurrence O C V D)} {r : Reduction O C V D} {a : RequestedAction O C V D}
  {step : String} {action : ActionId} {provisional : O}

/-- The provisional value that an action disposes of. -/
def ownedProvisional (requested : RequestedAction O C V D) : Option O :=
  match requested.action with
  | .captureOutputs _ provisional | .releaseStepResources provisional => some provisional
  | .startStep _ _ _ | .startRecoveryHandler _ _ _ _ | .cancelStep _ _ _ _
  | .forceAbortStep _ _ _ _ | .finishRun _ _ => none

/-- The action that disposes of the value of a report. -/
def provisionalOwner (accepted : Bool) (s : RuntimeState C V D) (step : String) (provisional : O) :
    Action O C V D :=
  if accepted && stepDeclaresOutputs s step then .captureOutputs step provisional
  else .releaseStepResources provisional

/-- The first action of a reduction owns the value of a report, and no other does. -/
def HandsOver (reduction : Reduction O C V D) (s : RuntimeState C V D) (step : String)
    (provisional : O) (id : ActionId) : Prop :=
  ∃ later, reduction.actions =
      ⟨id, provisionalOwner reduction.occurrenceAccepted s step provisional⟩ :: later ∧
    ∀ a ∈ later, ownedProvisional a = none

theorem transitionStep_actions (r : Reduction O C V D) (target : StepState V)
    (current : Option ActionId) : (transitionStep r step target current).2.actions = r.actions := by
  unfold transitionStep
  dsimp only
  split <;> rfl

section Stabilizing

variable [ConditionOutput V]

/-- What the reducer does by itself leaves provisional values alone. -/
theorem StabilizeStep.unowned (h : StabilizeStep o s n t) (ha : a ∈ n.actions) :
    ownedProvisional a = none := by
  cases h with
  | node _ _ hpending hmove =>
    cases hmove with
    | capture _ hstate => cases hpending.symm.trans hstate
    | start | retry | recheck | recover => rw [List.mem_singleton.mp ha]; rfl
    | _ => cases ha
  | issue | primaryIssue | passed | enter => cases ha
  | finish => rw [List.mem_singleton.mp ha]; rfl

theorem stabilize_actions (hnodes : NodesMatch r.state) (hcoherent : r.state.definition.Coherent) :
    ∃ later, (stabilize r).actions = r.actions ++ later ∧
      ∀ a ∈ later, ownedProvisional a = none := by
  obtain ⟨n, t, hrun, heq⟩ := stabilizeLoop_stabilizes _ r hnodes hcoherent
  refine ⟨n.actions, congrArg Reduction.actions heq, ?_⟩
  refine hrun.history (I := fun m _ => ∀ a ∈ m.actions, ownedProvisional a = none)
    (fun m _ k _ hm hstep a ha => ?_) (m := 1) (fun _ ha => nomatch ha)
  exact (List.mem_append.mp ha).elim (hm a) hstep.unowned

end Stabilizing

variable [ProvisionalStepResources O]

def actionResourceRelease (requested : RequestedAction O C V D) :
    Option (RequestedAction O C V D) :=
  match requested.action with
  | .captureOutputs _ provisional =>
    if requiresRelease provisional then
      some ⟨requested.id, .releaseStepResources provisional⟩
    else none
  | .releaseStepResources provisional => some ⟨requested.id, .releaseStepResources provisional⟩
  | .startStep _ _ _ | .startRecoveryHandler _ _ _ _ | .cancelStep _ _ _ _
  | .forceAbortStep _ _ _ _ | .finishRun _ _ => none

def releaseActionResources (actions : List (RequestedAction O C V D)) :
    List (RequestedAction O C V D) :=
  actions.filterMap actionResourceRelease

/-- What the coordinator hands to the driver for a reduction, which may fail to be committed. -/
def releasedActions (committed : Bool) (reduction : Reduction O C V D) :
    List (RequestedAction O C V D) :=
  if reduction.state.transitionCapacityExceeded then releaseActionResources reduction.actions
  else if committed then reduction.actions
  else releaseActionResources reduction.actions

section Completed

variable (hrequires : requiresRelease provisional = true)
include hrequires

/-- Of a reduction that is not applied, one release is left. -/
theorem HandsOver.release {id : ActionId} (h : HandsOver r s step provisional id) :
    releaseActionResources r.actions = [⟨id, .releaseStepResources provisional⟩] := by
  obtain ⟨later, hactions, hlater⟩ := h
  have hnone : later.filterMap actionResourceRelease = [] := by
    refine List.filterMap_eq_nil_iff.mpr (fun ⟨id, action⟩ hmem => ?_)
    have hunowned := hlater _ hmem
    cases action <;> first | rfl | cases hunowned
  rw [releaseActionResources, hactions, provisionalOwner]
  split_ifs <;> simp [actionResourceRelease, hrequires, hnone]

theorem discardOccurrence_handsOver :
    HandsOver (discardOccurrence s (.stepExecutionCompleted step action provisional)) s step
      provisional action := by
  refine ⟨[], ?_, fun _ ha => nomatch ha⟩
  simp [discardOccurrence, occurrenceResourceRelease, hrequires, provisionalOwner]

/-- The report itself adds the one action that owns the provisional value. -/
theorem applyExecutionCompleted_actions (hnodes : NodesMatch s) :
    ∃ id, (applyExecutionCompleted (⟨s, [], [], false⟩ : Reduction O C V D) step action
      provisional).2.actions = [⟨id, provisionalOwner (applyExecutionCompleted
        (⟨s, [], [], false⟩ : Reduction O C V D) step action provisional).1 s step
        provisional⟩] := by
  unfold applyExecutionCompleted releaseResources
  cases haccepts : stepAccepts s step .running action with
  | false =>
    refine ⟨action, ?_⟩
    simp [hrequires, provisionalOwner, Reduction.pushAction]
  | true =>
    obtain ⟨rt, hrt, -⟩ := stepAccepts_iff.mp haccepts
    obtain ⟨d, hd⟩ := hnodes.definition hrt
    refine ⟨ActionId.forTransition s.nextSeq, ?_⟩
    have hdeclares : ∀ rt', stepDeclaresOutputs (s.commit step rt') step =
        stepDeclaresOutputs s step := by
      simp [stepDeclaresOutputs]
    rw [transitionStep_eq (r := ⟨s, [], [], false⟩) hd hrt]
    dsimp only [Reduction.emit]
    rw [hdeclares, provisionalOwner]
    cases stepDeclaresOutputs s step with
    | true => rfl
    | false => simp [hrequires, Reduction.pushAction, Reduction.mapState, transitionStep_actions]

variable [ConditionOutput V] [NodeFailureSource C]

theorem reduce_handsOver (hnodes : NodesMatch s) (hcoherent : s.definition.Coherent) :
    ∃ id, HandsOver (reduce s (.stepExecutionCompleted step action provisional)) s step provisional
      id := by
  obtain ⟨id, happlied⟩ : ∃ id, (applyOccurrence ⟨s, [], [], false⟩
      (.stepExecutionCompleted step action provisional)).2.actions = [⟨id, provisionalOwner
        (applyOccurrence ⟨s, [], [], false⟩ (.stepExecutionCompleted step action provisional)).1 s
        step provisional⟩] := applyExecutionCompleted_actions hrequires hnodes
  cases haccepted :
      (reduce s (.stepExecutionCompleted step action provisional)).occurrenceAccepted with
  | true =>
    obtain ⟨htrue, heq⟩ := reduce_accepted hnodes haccepted
    have happly := applyOccurrence_reaches (r := ⟨s, [], [], false⟩) hnodes
      (.stepExecutionCompleted step action provisional)
    obtain ⟨later, hactions, hlater⟩ := stabilize_actions
      (r := { (applyOccurrence ⟨s, [], [], false⟩ (.stepExecutionCompleted step action
        provisional)).2 with occurrenceAccepted := true })
      (happly.nodesMatch hnodes) (by rw [happly.definition]; exact hcoherent)
    refine ⟨id, later, ?_, hlater⟩
    rw [haccepted, heq, hactions, happlied, htrue]
    rfl
  | false =>
    rcases reduce_refused hnodes hcoherent haccepted with heq | ⟨-, hfalse, heq⟩
    · rw [heq]
      exact ⟨action, discardOccurrence_handsOver hrequires⟩
    · refine ⟨id, [], ?_, fun _ ha => nomatch ha⟩
      rw [haccepted, heq, happlied, hfalse]

end Completed

variable [ConditionOutput V] [NodeFailureSource C]

/-- The report of a completed execution hands a provisional value that has to be released to one
action, the first of the reduction.  If the reduction is not applied, because it exceeds the
ceiling or its commit fails, one release is all that the driver is handed. -/
theorem provisional_owned_once {document : WorkflowDocument} {workflow : ValidatedWorkflow}
    (hvalid : validate document = .ok workflow)
    (inputs : BTreeMap String ResolvedInput)
    (parallel transitions : Nat)
    (seed : ExecutionSeed V)
    (hreach : Reachable (RuntimeDefinition.fromAdmitted workflow inputs parallel transitions) seed
      n s)
    (step : String)
    (action : ActionId)
    {provisional : O}
    (hrequires : ProvisionalStepResources.requiresRelease provisional = true)
    (exactReplay : Bool)
    {reduction : Reduction O C V D}
    (hreduction : reduction =
      if exactReplay then discardOccurrence s (.stepExecutionCompleted step action provisional)
      else reduce s (.stepExecutionCompleted step action provisional)) :
    ∃ id, HandsOver reduction s step provisional id ∧
      ∀ committed, releasedActions committed reduction =
        if committed && !reduction.state.transitionCapacityExceeded then reduction.actions
        else [⟨id, .releaseStepResources provisional⟩] := by
  have howner : ∃ id, HandsOver reduction s step provisional id := by
    subst hreduction
    cases exactReplay with
    | true => exact ⟨action, discardOccurrence_handsOver hrequires⟩
    | false =>
      exact reduce_handsOver hrequires hreach.nodesMatch
        (hreach.coherent (fromAdmitted_coherent hvalid ..))
  obtain ⟨id, howner⟩ := howner
  refine ⟨id, howner, fun committed => ?_⟩
  rw [releasedActions, howner.release hrequires]
  cases committed <;> cases reduction.state.transitionCapacityExceeded <;> rfl

/-- The provisional values of this run are names of directories. -/
instance : ProvisionalStepResources String := ⟨fun _ => true⟩

/-- A run of one step, which is executing. -/
def runningSingle : Reduction String FailureDetail String Nat :=
  ledger ⟨RuntimeDefinition.fromAdmitted (acceptedWorkflow singleDocument) .empty 1 16,
    none⟩ .empty [.stepStarted "build" ⟨1⟩]

/-- The report is accepted, but its reduction cannot be committed. -/
theorem runningReport_released :
    (reduce runningSingle.state
      (.stepExecutionCompleted "build" ⟨1⟩ "scratch")).occurrenceAccepted = true ∧
    ∃ id, releasedActions false (reduce runningSingle.state
      (.stepExecutionCompleted "build" ⟨1⟩ "scratch")) =
        [⟨id, .releaseStepResources "scratch"⟩] := by
  obtain ⟨id, -, hreleased⟩ := provisional_owned_once singleDocument_accepted .empty 1 16
    .empty (ledger_reachable ⟨_, none⟩ _
      (fromAdmitted_coherent singleDocument_accepted ..) [.stepStarted "build" ⟨1⟩])
    "build" ⟨1⟩ (show requiresRelease "scratch" = true from rfl) false
    (C := FailureDetail) (V := String) (D := Nat) rfl
  exact ⟨by decide +kernel, id, hreleased false⟩

end ScherzoCloud.Workflow
