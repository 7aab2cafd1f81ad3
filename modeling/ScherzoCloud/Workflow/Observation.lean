import ScherzoCloud.Workflow.Runs

/-!
# What observers are told about a run

After a reduction was committed the observers get its events one by one, each with
a summary of the node it is about.  The summary is taken from the state after the
whole reduction, not from the state in which the event was emitted.
-/

namespace ScherzoCloud.Workflow

open Collections

variable {O C V D : Type}

inductive ObservedStepTransition where
  | recovery (active : ActiveStepInvocation) (activeInvocationId : ActionId)
      (settledInvocation : Option (ActionId × ActiveStepInvocation)) (configuredRounds : Nat)
      (handlerKind : Option RecoveryHandlerKind) (handlerState : Option RecoveryHandlerActivity)
      (decision : Option RecoveryDecisionKind)
  | outputsCommitted (outputs : List String)
  | failed (detail : FailureDetail)
  | blocked (detail : BlockedDetail)
  | skipped (detail : ConditionFalseDetail)
  | notRun (detail : NonExecutionDetail)
  | cancelling (detail : CancellationDetail)
  | cancelled (detail : CancellationDetail)
  deriving DecidableEq

structure TransitionObservation (D : Type) where
  event : TransitionEvent D
  step : Option ObservedStepTransition

def RecoveryHandlerOutcome.decision : RecoveryHandlerOutcome C → Option RecoveryDecisionKind
  | .recheck _ _ => some .recheck
  | .gaveUp _ _ => some .gaveUp
  | .starting | .running | .failed _ _ | .cancelled => none

/-- The states in which a node with recovery rounds has an active invocation. -/
def StepStateKind.isWorking : StepStateKind → Bool
  | .starting | .running | .capturingOutputs | .recovering => true
  | _ => false

/-- The states with which the execution of a node ends. -/
def StepStateKind.endsExecution : StepStateKind → Bool
  | .succeeded | .failed | .cancelled => true
  | _ => false

/-- The identity of the active invocation of a node. -/
def StepRuntimeState.activeInvocationId (runtime : StepRuntimeState C V) :
    ActiveStepInvocation → Option ActionId
  | .target _ => runtime.targetInvocation
  | .recoveryHandler _ => runtime.currentAction

/-- The summary of a node that is being recovered. -/
def observedRecovery (source target : StepStateKind) (runtime : StepRuntimeState C V) :
    Option ObservedStepTransition :=
  if target.isWorking then do
    let recovery ← runtime.recovery
    let last ← recovery.rounds.getLast?
    let active ← runtime.activeInvocation
    let activeInvocationId ← runtime.activeInvocationId active
    let settledInvocation :=
      if source = .running ∨ source = .capturingOutputs then
        some (last.failedExecution.invocation, .target last.failedExecution.executionNumber)
      else none
    let handlerState := match runtime.state with
      | .recovering _ handler => some handler
      | _ => none
    some (.recovery active activeInvocationId settledInvocation recovery.configuredRounds
      recovery.handlerKind handlerState
        (last.handler.bind (fun handler => handler.outcome.decision)))
  else none

/-- The summary of a node in the state that an event leads to. -/
def observedState (target : StepStateKind) : StepState V → Option ObservedStepTransition
  | .succeeded outputs =>
    if target = .succeeded then some (.outputsCommitted outputs.keys) else none
  | .failed detail => if target = .failed then some (.failed detail) else none
  | .blocked detail => if target = .blocked then some (.blocked detail) else none
  | .skipped detail => if target = .skipped then some (.skipped detail) else none
  | .notRun detail => if target = .notRun then some (.notRun detail) else none
  | .cancelling detail => if target = .cancelling then some (.cancelling detail) else none
  | .cancelled detail => if target = .cancelled then some (.cancelled detail) else none
  | .pending | .starting | .running | .capturingOutputs | .recovering _ _ | .inherited _ _ _ =>
    none

def observedStepTransition (event : TransitionEvent D)
    (state : RuntimeState C V D) : Option ObservedStepTransition :=
  match event with
  | .step _ step _ _ source target =>
    (state.steps.get? step).bind (fun runtime =>
      (observedRecovery source target runtime).or (observedState target runtime.state))
  | _ => none

/-- What the observers get after a reduction was committed. -/
def Reduction.observations (r : Reduction O C V D) : List (TransitionObservation D) :=
  r.events.map (fun event => ⟨event, observedStepTransition event r.state⟩)

variable [ConditionOutput V] [ProvisionalStepResources O] [NodeFailureSource C]

/-- Reduce one occurrence and pass on what the observers get of it. -/
def observeNext (acc : RuntimeState C V D × List (TransitionObservation D))
    (occurrence : Occurrence O C V D) : RuntimeState C V D × List (TransitionObservation D) :=
  ((reduce acc.1 occurrence).state, acc.2 ++ (reduce acc.1 occurrence).observations)

/-- The state of a run and all that its observers have got after a list of occurrences. -/
def observedRun (start : ExecutionStart D) (seed : ExecutionSeed V)
    (occurrences : List (Occurrence O C V D)) :
    RuntimeState C V D × List (TransitionObservation D) :=
  let initial : Reduction O C V D := initializeSeededDefinition start seed
  occurrences.foldl observeNext (initial.state, initial.observations)

variable (start : ExecutionStart D) (seed : ExecutionSeed V)

theorem observedRun_state (occurrences : List (Occurrence O C V D)) :
    (observedRun start seed occurrences).1 = (ledger start seed occurrences).state := by
  induction occurrences using List.reverseRecOn with
  | nil => rfl
  | append_singleton occurrences o ih =>
    rw [ledger_concat, ← ih]
    simp [observedRun, observeNext, Reduction.followedBy]

theorem observedRun_concat (occurrences : List (Occurrence O C V D)) (o : Occurrence O C V D) :
    (observedRun start seed (occurrences ++ [o])).2 = (observedRun start seed occurrences).2 ++
      (reduce (ledger start seed occurrences).state o).observations := by
  rw [← observedRun_state]
  simp [observedRun, observeNext]

end ScherzoCloud.Workflow
