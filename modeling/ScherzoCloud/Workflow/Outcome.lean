import ScherzoCloud.Workflow.DefinitionFacts
import ScherzoCloud.Workflow.IssueLog

/-!
# The outcome of a run

A finished run succeeded exactly when nothing was cancelled and no required
node failed or was blocked; a failed run names the required issue that was
committed first.
-/

namespace ScherzoCloud.Workflow

open Collections

variable {O C V D : Type}

variable {events : List (TransitionEvent D)} {s : RuntimeState C V D}

/-- No required node failed or was blocked. -/
def NoRequiredIssue (s : RuntimeState C V D) : Prop :=
  ∀ id d rt, s.definition.steps.get? id = some d → s.steps.get? id = some rt →
    d.failurePolicy = .required → rt.state.kind ≠ .failed ∧ rt.state.kind ≠ .blocked

theorem IssueLog.noRequiredIssue (h : IssueLog events s) (hclean : isClean s.workflow = true) :
    NoRequiredIssue s := by
  intro id d rt hd hrt hpolicy
  by_contra hissue
  have hkind : rt.state.kind = .failed ∨ rt.state.kind = .blocked := by tauto
  obtain ⟨e, he, hrequired⟩ := h.logged id d rt hd hrt hpolicy hkind
  rw [(h.clean hclean e he).1] at hrequired
  cases hrequired

theorem NoRequiredIssue.not_issueHolds (h : NoRequiredIssue s) (issue : PrimaryIssue) :
    ¬ IssueHolds s issue := by
  rintro ⟨d, rt, hd, -, hpolicy, hrt, hstate⟩
  obtain ⟨hfailed, hblocked⟩ := h _ d rt hd hrt hpolicy
  rcases hstate with ⟨detail, hstate, -⟩ | ⟨detail, hstate, -⟩
  · exact hfailed (by rw [hstate]; rfl)
  · exact hblocked (by rw [hstate]; rfl)

/-- A finished run succeeded when nothing was cancelled and no required node has an issue. -/
theorem IssueLog.succeeded_iff (h : IssueLog events s) (hterminal : s.workflow.isTerminal = true) :
    s.workflow = .succeeded ↔ (∀ e ∈ events, isAcceptance e = false) ∧ NoRequiredIssue s := by
  constructor
  · intro hsucceeded
    have hclean : isClean s.workflow = true := by rw [hsucceeded]; rfl
    exact ⟨fun e he => (h.clean hclean e he).2, h.noRequiredIssue hclean⟩
  · rintro ⟨hquiet, hissue⟩
    cases hworkflow : s.workflow with
    | succeeded => rfl
    | failed issue =>
      have hcarried := h.carried issue (by rw [hworkflow]; rfl)
      exact absurd hcarried.2.1 (hissue.not_issueHolds issue)
    | cancelled =>
      obtain ⟨e, he, haccepted⟩ := h.cancelled (Or.inl (by rw [hworkflow]; rfl))
      rw [hquiet e he] at haccepted
      cases haccepted
    | executing | finalizing => rw [hworkflow] at hterminal; cases hterminal

variable [ConditionOutput V] [ProvisionalStepResources O] [NodeFailureSource C]
  {document : WorkflowDocument} {workflow : ValidatedWorkflow}

/-- The outcome of every finished run of an accepted workflow. -/
theorem terminal_outcome (hvalid : validate document = .ok workflow)
    (inputs : BTreeMap String ResolvedInput)
    (parallel transitions : Nat)
    (initial : Option (InitialCancellation D))
    (occurrences : List (Occurrence O C V D))
    {run : Reduction O C V D}
    (hrun : run = admittedRun workflow inputs parallel transitions initial occurrences)
    (hterminal : run.state.workflow.isTerminal = true) :
    (run.state.workflow = .succeeded ↔
      (∀ e ∈ run.events, isAcceptance e = false) ∧ NoRequiredIssue run.state) ∧
    ∀ issue later, run.state.workflow = .failed issue later →
      IssueHolds run.state issue ∧ FirstIssue run.events issue ∧
      (issue.node.role = .finalizer → ∃ finalization,
        run.state.finalization = some finalization ∧
        finalization.ordinaryOutcome = .succeeded) ∧
      ∀ past future, occurrences = past ++ future → ∀ issue',
        carriedIssue (admittedRun workflow inputs parallel transitions initial
          past).state.workflow = some issue' → issue' = issue := by
  have hcoherent := fromAdmitted_coherent hvalid inputs parallel transitions
  subst hrun
  have hlog := (admittedRun_reachable initial hcoherent occurrences).issueLog hcoherent
  refine ⟨hlog.succeeded_iff hterminal, fun issue later hfailed => ?_⟩
  have hcarried : carriedIssue (admittedRun workflow inputs parallel transitions initial
      occurrences).state.workflow = some issue := by
    rw [hfailed]
    rfl
  obtain ⟨hfirst, hholds, hfinalizer⟩ := hlog.carried issue hcarried
  refine ⟨hholds, hfirst, hfinalizer, ?_⟩
  rintro past future rfl issue' hissue'
  obtain ⟨n, hcontinue, -⟩ := admittedRun_append initial hcoherent past future
  -- the rest of a run does not replace the issue it carries
  have hkept := (admittedRun_reachable initial hcoherent past).continued
    (I := fun _ s => carriedIssue s.workflow = some issue') hcontinue hissue'
    (fun _ _ _ _ _ hreach hissue hstep =>
      hstep.carriedIssue_kept (hreach.phase hcoherent) hissue)
  exact Option.some.inj (hkept.symm.trans hcarried)

/-- The single step fails after it was started. -/
def failedBuild : Reduction Unit FailureDetail String Nat :=
  admittedRun (acceptedWorkflow singleDocument) .empty 1 8 none
    [.stepStarted "build" ⟨1⟩, .stepExecutionFailed "build" ⟨1⟩ (.ofCode .execution .commandExit)]

theorem failedBuild_outcome :
    failedBuild.state.workflow =
        .failed (.ofFailed ⟨"build", .step⟩ (.ofCode .execution .commandExit)) none ∧
      FirstIssue failedBuild.events
        (.ofFailed ⟨"build", .step⟩ (.ofCode .execution .commandExit)) := by
  have hfailed : failedBuild.state.workflow =
      .failed (.ofFailed ⟨"build", .step⟩ (.ofCode .execution .commandExit)) none := by decide
  have houtcome := terminal_outcome singleDocument_accepted .empty 1 8 none _
    (show failedBuild = _ from rfl) (by rw [hfailed]; rfl)
  exact ⟨hfailed, (houtcome.2 _ _ hfailed).2.1⟩

end ScherzoCloud.Workflow
