import ScherzoCloud.Workflow.PhaseMoves
import ScherzoCloud.Workflow.DefinitionFacts

/-!
# The cancellation of a runner result

The runner reports a finished run with the cancellation that its observer saw.
The observer remembers the ordinary cancellation only, while the outcome of the run
is composed from both phases, so the two are compared before a result is built.
-/

namespace ScherzoCloud.Runner

open Collections Workflow

variable {reason : CancellationReason}

variable {D Utc : Type}

structure WorkflowRunCancellation (Utc : Type) where
  reason : CancellationReason
  forceStopDeadline : Utc
  deriving DecidableEq

def observedWorkflowCancellation (utc : D → Utc) (outcome : RunOutcome)
    (cancellation : Option (CancellationReason × D)) :
    Option (Option (WorkflowRunCancellation Utc)) :=
  match cancellation, outcome with
  | none, .succeeded | none, .failed _ none
  -- A direct force abort has no ordinary deadline to report.
  | none, .cancelled .forceAbort => some none
  | some (reason, deadline), .failed _ (some later) =>
    if reason = later then some (some ⟨reason, utc deadline⟩) else none
  | some (reason, deadline), .cancelled outcomeReason =>
    if reason = outcomeReason then some (some ⟨reason, utc deadline⟩) else none
  | _, _ => none

/-- The cancellation that `observe` takes from an event. -/
def acceptedCancellation : TransitionEvent D → Option (CancellationReason × D)
  | .cancellationAccepted _ reason deadline => some (reason, deadline)
  | _ => none

/-- The cancellation the observer holds after a list of events; each one replaces
the one before. -/
def observedCancellation (events : List (TransitionEvent D)) : Option (CancellationReason × D) :=
  events.foldl (fun cancellation event => (acceptedCancellation event).or cancellation) none

/-- The runs whose outcome the observer can explain: the first cancellation they
accept is an ordinary one, or it has the reason of a force abort and the run does not
fail. -/
def evidenceCovers (events : List (TransitionEvent D)) (outcome : RunOutcome) : Bool :=
  match events.find? isAcceptance with
  | none | some (.cancellationAccepted _ _ _) => true
  | some event =>
    acceptedReason event = some .forceAbort &&
      match outcome with
      | .failed _ _ => false
      | .succeeded | .cancelled _ => true

variable {events : List (TransitionEvent D)}

theorem observedCancellation_concat (e : TransitionEvent D) : observedCancellation (events ++ [e]) =
      (acceptedCancellation e).or (observedCancellation events) := by
  simp [observedCancellation]

theorem mem_of_observedCancellation {deadline : D}
    (h : observedCancellation events = some (reason, deadline)) :
    ∃ sequence, .cancellationAccepted sequence reason deadline ∈ events := by
  induction events using List.reverseRecOn with
  | nil => cases h
  | append_singleton events e ih =>
    rw [observedCancellation_concat] at h
    cases e with
    | cancellationAccepted sequence =>
      cases h
      exact ⟨sequence, by simp⟩
    | step | workflow | finalizationCancellationAccepted | forceAbortAccepted =>
      obtain ⟨sequence, hmem⟩ := ih h
      exact ⟨sequence, List.mem_append_left _ hmem⟩

/-- The observer misses no ordinary cancellation, and there is one at most. -/
theorem observedCancellation_eq_some {sequence : TransitionSequence} {deadline : D}
    (honce : events.countP isOrdinaryAcceptance ≤ 1)
    (hmem : .cancellationAccepted sequence reason deadline ∈ events) :
    observedCancellation events = some (reason, deadline) := by
  induction events using List.reverseRecOn with
  | nil => cases hmem
  | append_singleton events e ih =>
    rw [List.countP_append, List.countP_singleton] at honce
    rw [observedCancellation_concat]
    rcases List.mem_append.mp hmem with hmem | hmem
    · have hpos : 0 < events.countP isOrdinaryAcceptance :=
        List.countP_pos_iff.mpr ⟨_, hmem, rfl⟩
      have hlast : isOrdinaryAcceptance e = false := by
        by_contra hlast
        rw [if_pos (by simpa using hlast)] at honce
        omega
      rw [ih (by omega) hmem]
      cases e <;> first | rfl | cases hlast
    · obtain rfl := List.mem_singleton.mp hmem
      rfl

variable {utc : D → Utc} {outcome : RunOutcome}

/-- An outcome with the observed reason is explained by it. -/
theorem observedWorkflowCancellation_some {deadline : D} (h : outcome.cancellation = some reason) :
    observedWorkflowCancellation utc outcome (some (reason, deadline)) =
      some (some ⟨reason, utc deadline⟩) := by
  cases outcome with
  | succeeded => cases h
  | failed _ later =>
    obtain rfl : later = some reason := h
    simp [observedWorkflowCancellation]
  | cancelled reason' =>
    obtain rfl : reason' = reason := Option.some.inj h
    simp [observedWorkflowCancellation]

theorem observedWorkflowCancellation_none_ne (c : WorkflowRunCancellation Utc) :
    observedWorkflowCancellation utc outcome none ≠ some (some c) := by
  unfold observedWorkflowCancellation
  split <;> simp_all

/-- Without an ordinary cancellation the outcome has to be free of a cancellation, or
that of a force abort. -/
theorem observedWorkflowCancellation_none_isSome :
    (observedWorkflowCancellation utc outcome none).isSome = true ↔
      outcome.cancellation = none ∨ outcome = .cancelled .forceAbort := by
  cases outcome with
  | succeeded => simp [observedWorkflowCancellation, RunOutcome.cancellation]
  | failed _ later =>
    cases later <;> simp [observedWorkflowCancellation, RunOutcome.cancellation]
  | cancelled reason =>
    cases reason <;> simp [observedWorkflowCancellation, RunOutcome.cancellation]

/-- What the first accepted cancellation says about the comparison. -/
theorem observedWorkflowCancellation_covered (honce : events.countP isOrdinaryAcceptance ≤ 1)
    (hordinary : ∀ e ∈ events, isOrdinaryAcceptance e = true → events.find? isAcceptance = some e)
    (houtcome : outcome.cancellation = events.findSome? acceptedReason) :
    (observedWorkflowCancellation utc outcome (observedCancellation events)).isSome = true ↔
      evidenceCovers events outcome = true := by
  rw [findSome?_acceptedReason] at houtcome
  unfold evidenceCovers
  cases hobserved : observedCancellation events with
  | some cancellation =>
    obtain ⟨reason, deadline⟩ := cancellation
    obtain ⟨sequence, hmem⟩ := mem_of_observedCancellation hobserved
    rw [hordinary _ hmem rfl] at houtcome ⊢
    simp [observedWorkflowCancellation_some houtcome]
  | none =>
    rw [observedWorkflowCancellation_none_isSome]
    cases hfirst : events.find? isAcceptance with
    | none =>
      rw [hfirst] at houtcome
      simp [houtcome]
    | some e =>
      rw [hfirst] at houtcome
      have hmem := List.mem_of_find?_eq_some hfirst
      cases e with
      | step | workflow => cases List.find?_some hfirst
      | cancellationAccepted =>
        rw [observedCancellation_eq_some honce hmem] at hobserved
        cases hobserved
      | finalizationCancellationAccepted _ reason | forceAbortAccepted _ reason =>
        cases outcome with
        | succeeded => cases houtcome
        | failed _ later =>
          obtain rfl : later = some reason := houtcome
          simp [RunOutcome.cancellation]
        | cancelled reason' =>
          obtain rfl : reason' = reason := Option.some.inj houtcome
          simp [RunOutcome.cancellation, acceptedReason]

variable {O C V D Utc : Type} [ConditionOutput V] [ProvisionalStepResources O] [NodeFailureSource C]
  {document : WorkflowDocument} {workflow : ValidatedWorkflow}

/-- The comparison succeeds for the runs the observer can explain, and it reports a
cancellation exactly when an ordinary one was accepted. -/
theorem observedWorkflowCancellation_defined_iff (hvalid : validate document = .ok workflow)
    (inputs : BTreeMap String ResolvedInput)
    (parallel transitions : Nat)
    (initial : Option (InitialCancellation D))
    (occurrences : List (Occurrence O C V D))
    (utc : D → Utc)
    {run : Reduction O C V D}
    {outcome : RunOutcome}
    (hrun : run = admittedRun workflow inputs parallel transitions initial occurrences)
    (houtcome : executionOutcome run.state.workflow = some outcome) :
    ((observedWorkflowCancellation utc outcome (observedCancellation run.events)).isSome = true ↔
      evidenceCovers run.events outcome = true) ∧
    ∀ cancellation,
      observedWorkflowCancellation utc outcome (observedCancellation run.events) =
          some (some cancellation) ↔
        ∃ sequence reason deadline,
          .cancellationAccepted sequence reason deadline ∈ run.events ∧
          cancellation = ⟨reason, utc deadline⟩ := by
  have hcoherent := fromAdmitted_coherent hvalid inputs parallel transitions
  subst hrun
  have hreach := admittedRun_reachable initial hcoherent occurrences
  have htrace := hreach.cancellationTrace hcoherent
  have honce : (admittedRun workflow inputs parallel transitions initial
      occurrences).events.countP isOrdinaryAcceptance ≤ 1 := by
    have hordinary := hreach.acceptedOnce.ordinary
    exact le_trans (Nat.le_add_right _ _) hordinary
  have hcancellation := (executionOutcome_cancellation houtcome).trans htrace.first
  refine ⟨observedWorkflowCancellation_covered honce htrace.ordinary hcancellation, ?_⟩
  have hsome : ∀ reason deadline, observedCancellation (admittedRun workflow inputs parallel
      transitions initial occurrences).events = some (reason, deadline) →
      observedWorkflowCancellation utc outcome (some (reason, deadline)) =
        some (some ⟨reason, utc deadline⟩) := by
    intro reason deadline hobserved
    obtain ⟨sequence, hmem⟩ := mem_of_observedCancellation hobserved
    refine observedWorkflowCancellation_some ?_
    rw [hcancellation]
    exact (findSome?_acceptedReason _).trans (by rw [htrace.ordinary _ hmem rfl]; rfl)
  intro cancellation
  constructor
  · intro hdefined
    cases hobserved : observedCancellation (admittedRun workflow inputs parallel transitions
        initial occurrences).events with
    | none =>
      rw [hobserved] at hdefined
      exact absurd hdefined (observedWorkflowCancellation_none_ne cancellation)
    | some recorded =>
      obtain ⟨reason, deadline⟩ := recorded
      rw [hobserved, hsome reason deadline hobserved] at hdefined
      obtain ⟨sequence, hmem⟩ := mem_of_observedCancellation hobserved
      cases hdefined
      exact ⟨sequence, reason, deadline, hmem, rfl⟩
  · rintro ⟨sequence, reason, deadline, hmem, rfl⟩
    have hobserved := observedCancellation_eq_some honce hmem
    rw [hobserved]
    exact hsome reason deadline hobserved

/-- The only step is cancelled on request and quiesces. -/
def interruptedBuild : Reduction Unit FailureDetail String Nat :=
  admittedRun (acceptedWorkflow singleDocument) .empty 1 16 none
    [.stepStarted "build" ⟨1⟩, .cancellationOperationRequested 1 .userRequest 60,
      .stepQuiesced "build" ⟨4⟩]

theorem interruptedBuild_reported :
    observedWorkflowCancellation id (.cancelled .userRequest)
        (observedCancellation interruptedBuild.events) = some (some ⟨.userRequest, 60⟩) := by
  have houtcome : executionOutcome interruptedBuild.state.workflow =
      some (.cancelled .userRequest) := by decide
  exact ((observedWorkflowCancellation_defined_iff singleDocument_accepted .empty 1 16 none
    _ id (show interruptedBuild = _ from rfl) houtcome).2 _).mpr
      ⟨3, .userRequest, 60, by decide, rfl⟩

/-- A step fails while another one runs, which is then force aborted. -/
def stoppedLint : Reduction Unit FailureDetail String Nat :=
  admittedRun (acceptedWorkflow (commandDocument []
      [("build", ⟨textCommand .required none [] [], [], none⟩),
        ("lint", ⟨textCommand .required none [] [], [], none⟩)] [] []))
    .empty 2 16 none
    [.stepStarted "build" ⟨1⟩, .stepStarted "lint" ⟨2⟩,
      .stepExecutionFailed "build" ⟨1⟩ (.ofCode .execution .commandExit),
      .forceAbortRequested 1 60, .stepQuiesced "lint" (.forForceAbort 1 1)]

theorem stoppedLint_rejected :
    executionOutcome stoppedLint.state.workflow =
        some (.failed (.ofFailed ⟨"build", .step⟩ (.ofCode .execution .commandExit))
          (some .forceAbort)) ∧
      observedCancellation stoppedLint.events = none ∧
      observedWorkflowCancellation id
        (.failed (.ofFailed ⟨"build", .step⟩ (.ofCode .execution .commandExit))
          (some .forceAbort)) (observedCancellation stoppedLint.events) = none := by
  decide +kernel

end ScherzoCloud.Runner
