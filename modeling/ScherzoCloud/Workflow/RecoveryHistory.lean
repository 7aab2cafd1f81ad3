import ScherzoCloud.Workflow.InvocationIdentity
import ScherzoCloud.Workflow.NodeReductions
import ScherzoCloud.Workflow.RecoveryRounds

/-!
# The history of a recovery

The recovery record of a node is also its history: each round names the execution that
failed and the handler that was started, and the execution after the last round is the
current target of the node.
-/

namespace ScherzoCloud.Workflow

open Collections
open TargetExecutionNumber (next)

variable {O C V D : Type}
variable {rt' rt : StepRuntimeState C V} {recovery : StepRecoveryState C}
variable {n : TargetExecutionNumber} {action i : ActionId}
variable {actions : List (RequestedAction O C V D)} {id : String} {record : RecoveryRoundRecord C}
variable {phase : FailurePhase} {detail : FailureDetail} {o : Option (Occurrence O C V D)}
variable {s : RuntimeState C V D} {d : RuntimeStep} {seed : ExecutionSeed V}
variable {P : List (StepStateKind × StepStateKind) → List (ActionId × ActiveStepInvocation) →
  StepRuntimeState C V → Prop}
variable {definition : RuntimeDefinition} {m : Emission O C V D} {active : ActiveStepInvocation}

/-- The invocations of a round: the execution that failed and the handler that was started. -/
def RecoveryRoundRecord.invocations (record : RecoveryRoundRecord C) :
    List (ActionId × ActiveStepInvocation) :=
  (record.failedExecution.invocation, .target record.failedExecution.executionNumber) ::
    (record.handler.map (fun handler =>
      (handler.invocation, ActiveStepInvocation.recoveryHandler record.number))).toList

namespace StepRuntimeState

variable (rt : StepRuntimeState C V)

def rounds : List (RecoveryRoundRecord C) :=
  (rt.recovery.map StepRecoveryState.rounds).getD []

/-- The execution after the last round, once it was requested. -/
def openTarget : List (ActionId × ActiveStepInvocation) :=
  match rt.targetExecution, rt.targetInvocation with
  | some n, some action => if n = rt.rounds.length + 1 then [(action, .target n)] else []
  | _, _ => []

/-- The invocations of a node in the order in which they were requested. -/
def invocations : List (ActionId × ActiveStepInvocation) :=
  rt.rounds.flatMap RecoveryRoundRecord.invocations ++ rt.openTarget

variable {rt} {rt'' : StepRuntimeState C V}

theorem rounds_of_recovery (h : rt.recovery = some recovery) : rt.rounds = recovery.rounds := by
  rw [rounds, h]
  rfl

theorem rounds_of_none (h : rt.recovery = none) : rt.rounds = [] := by
  rw [rounds, h]
  rfl

theorem openTarget_of_execution (h : rt.targetExecution = some n) (hn : n ≠ rt.rounds.length + 1) :
    rt.openTarget = [] := by
  unfold openTarget
  rw [h]
  cases rt.targetInvocation with
  | none => rfl
  | some => exact if_neg hn

theorem openTarget_of_none (h : rt.targetExecution = none) : rt.openTarget = [] := by
  unfold openTarget
  rw [h]

theorem openTarget_of_target (hexecution : rt.targetExecution = some n)
    (haction : rt.targetInvocation = some action) (hn : n = rt.rounds.length + 1) :
    rt.openTarget = [(action, .target n)] := by
  unfold openTarget
  rw [hexecution, haction]
  exact if_pos hn

/-- The same executions and handlers; what is noted about them may differ. -/
structure SameHistory (rt rt' : StepRuntimeState C V) : Prop where
  execution : rt'.targetExecution = rt.targetExecution
  invocation : rt'.targetInvocation = rt.targetInvocation
  rounds : rt'.rounds.map RecoveryRoundRecord.invocations =
    rt.rounds.map RecoveryRoundRecord.invocations

theorem SameHistory.refl (rt : StepRuntimeState C V) : rt.SameHistory rt :=
  ⟨rfl, rfl, rfl⟩

section

variable (h : rt.SameHistory rt')
include h

theorem SameHistory.trans (h' : rt'.SameHistory rt'') : rt.SameHistory rt'' :=
  ⟨h'.execution.trans h.execution, h'.invocation.trans h.invocation, h'.rounds.trans h.rounds⟩

theorem SameHistory.length : rt'.rounds.length = rt.rounds.length := by
  have hlength := congrArg List.length h.rounds
  rwa [List.length_map, List.length_map] at hlength

theorem SameHistory.openTarget : rt'.openTarget = rt.openTarget := by
  unfold StepRuntimeState.openTarget
  rw [h.execution, h.invocation, h.length]

theorem SameHistory.invocations : rt'.invocations = rt.invocations := by
  unfold StepRuntimeState.invocations
  rw [h.openTarget, List.flatMap_def, List.flatMap_def, h.rounds]

theorem SameHistory.settled (state : StepState V) :
    rt.SameHistory (rt'.settled state) := ⟨h.execution, h.invocation, h.rounds⟩

end

theorem editRecovery_sameHistory {f : StepRecoveryState C → StepRecoveryState C}
    (hf : ∀ recovery, (f recovery).rounds.map RecoveryRoundRecord.invocations =
      recovery.rounds.map RecoveryRoundRecord.invocations) :
    rt.SameHistory (rt.editRecovery f) := by
  refine ⟨rfl, rfl, ?_⟩
  unfold rounds editRecovery
  cases rt.recovery with
  | none => rfl
  | some recovery => exact hf recovery

theorem noteDisposition_sameHistory (disposition : RecoveryTerminalDisposition) :
    rt.SameHistory (rt.noteDisposition disposition) :=
  editRecovery_sameHistory (fun _ => rfl)

end StepRuntimeState

theorem RecoveryRoundRecord.noteOutcome_invocations (round : RecoveryRoundNumber)
    (outcome : RecoveryHandlerOutcome C) (record : RecoveryRoundRecord C) :
    (record.noteOutcome round outcome).invocations = record.invocations := by
  unfold RecoveryRoundRecord.noteOutcome
  split
  · unfold RecoveryRoundRecord.invocations
    cases record.handler <;> rfl
  · rfl

namespace StepRuntimeState

theorem noteOutcome_sameHistory (round : RecoveryRoundNumber)
    (outcome : RecoveryHandlerOutcome C) : rt.SameHistory (rt.noteOutcome round outcome) := by
  refine editRecovery_sameHistory (fun recovery => ?_)
  cases hlast : recovery.rounds.getLast? with
  | none => simp only [modifyLastRound, hlast]
  | some record =>
    rw [modifyLastRound_rounds _ hlast, List.map_append, List.map_singleton,
      RecoveryRoundRecord.noteOutcome_invocations, ← List.map_singleton, ← List.map_append,
      List.dropLast_append_getLast? record hlast]

theorem noteExecution_sameHistory
    (disposition : TargetExecutionNumber → RecoveryTerminalDisposition) :
    rt.SameHistory (rt.noteExecution disposition) := by
  unfold noteExecution
  split
  · exact .refl rt
  · exact noteDisposition_sameHistory _

theorem noteHandlerCancelled_sameHistory (active : ActiveStepInvocation) :
    rt.SameHistory (rt.noteHandlerCancelled active) := by
  cases active with
  | target => exact .refl rt
  | recoveryHandler round => exact noteOutcome_sameHistory round .cancelled

theorem noteCancelled_sameHistory (active : ActiveStepInvocation) :
    rt.SameHistory (rt.noteCancelled active) := by
  unfold noteCancelled
  split
  · exact .refl rt
  · exact noteDisposition_sameHistory _

end StepRuntimeState

open StepRuntimeState (rounds_of_recovery noteOutcome_sameHistory openTarget rounds
  noteExecution_sameHistory opened editRecovery openTarget_of_target rounds_of_none
  openTarget_of_execution noteDisposition_sameHistory)
/-- The action starts the target of a node. -/
def startsTarget (id : String) (a : RequestedAction O C V D) : Bool :=
  match a.action with
  | .startStep step _ _ => step = id
  | _ => false

/-- The action starts a recovery handler of a node. -/
def startsHandler (id : String) (a : RequestedAction O C V D) : Bool :=
  match a.action with
  | .startRecoveryHandler step _ _ _ => step = id
  | _ => false

def ActiveStepInvocation.execution : ActiveStepInvocation → Option Nat
  | .target n => some n
  | .recoveryHandler _ => none

def ActiveStepInvocation.round : ActiveStepInvocation → Option Nat
  | .target _ => none
  | .recoveryHandler round => some round

theorem countP_startsTarget : actions.countP (startsTarget id) =
    (startsOf id actions).countP (·.2.execution.isSome) := by
  rw [startsOf, List.countP_filterMap]
  refine List.countP_congr (fun a _ => ?_)
  unfold startsTarget startOf
  cases a.action with
  | startStep node | startRecoveryHandler node =>
    by_cases hnode : node = id <;> simp [hnode, ActiveStepInvocation.execution]
  | _ => rfl

theorem countP_startsHandler : actions.countP (startsHandler id) =
    (startsOf id actions).countP (·.2.round.isSome) := by
  rw [startsOf, List.countP_filterMap]
  refine List.countP_congr (fun a _ => ?_)
  unfold startsHandler startOf
  cases a.action with
  | startStep node | startRecoveryHandler node =>
    by_cases hnode : node = id <;> simp [hnode, ActiveStepInvocation.round]
  | _ => rfl

theorem openTarget_length_le : rt.openTarget.length ≤ 1 := by
  unfold openTarget
  split
  · split_ifs <;> simp
  · exact Nat.zero_le 1

theorem openTarget_rounds : rt.openTarget.filterMap (·.2.round) = [] := by
  unfold openTarget
  split
  · split_ifs <;> rfl
  · rfl

theorem countP_rounds_le {p : ActionId × ActiveStepInvocation → Bool}
    (h : ∀ record : RecoveryRoundRecord C, record.invocations.countP p ≤ 1) :
    (rt.rounds.flatMap RecoveryRoundRecord.invocations).countP p ≤ rt.rounds.length := by
  rw [List.countP_flatMap]
  have hsum := List.sum_le_card_nsmul
    (rt.rounds.map (List.countP p ∘ RecoveryRoundRecord.invocations))
    1 (by simpa using fun record _ => h record)
  rwa [List.length_map, Nat.nsmul_eq_mul, Nat.mul_one] at hsum

/-- Each round has one execution and at most one handler. -/
theorem StepRuntimeState.countP_invocations_le (rt : StepRuntimeState C V) :
    rt.invocations.countP (·.2.execution.isSome) ≤ rt.rounds.length + 1 ∧
      rt.invocations.countP (·.2.round.isSome) ≤ rt.rounds.length := by
  unfold StepRuntimeState.invocations
  rw [List.countP_append, List.countP_append]
  constructor
  · refine Nat.add_le_add (countP_rounds_le fun record => ?_)
      (List.countP_le_length.trans openTarget_length_le)
    unfold RecoveryRoundRecord.invocations
    cases record.handler <;> simp [ActiveStepInvocation.execution]
  · rw [← List.length_filterMap_eq_countP (f := fun invocation => invocation.2.round)
      (l := rt.openTarget), openTarget_rounds]
    refine countP_rounds_le fun record => ?_
    unfold RecoveryRoundRecord.invocations
    cases record.handler <;> simp [ActiveStepInvocation.round]

variable {cause : C}

/-- The record of a round that is opened. -/
theorem openRound_eq (h : openRound rt phase detail cause = some (recovery, record)) :
    ∃ invocation, rt.targetInvocation = some invocation ∧
      rt.targetExecution = some (recovery.rounds.length + 1) ∧ rt.recovery = some recovery ∧
      recovery.rounds.length < recovery.configuredRounds ∧ record = ⟨recovery.rounds.length + 1,
        ⟨recovery.rounds.length + 1, invocation, phase, detail, cause⟩, none⟩ := by
  unfold openRound at h
  simp only [Option.bind_eq_bind, Option.bind_eq_some_iff] at h
  obtain ⟨n, hexecution, invocation, hinvocation, recovery', hrecovery, h⟩ := h
  split_ifs at h with hleft hbyte hround
  obtain rfl : recovery'.rounds.length + 1 = n := not_not.mp hround
  simp only [Option.some.injEq, Prod.mk.injEq] at h
  obtain ⟨rfl, rfl⟩ := h
  exact ⟨invocation, hinvocation, hexecution, hrecovery, not_le.mp hleft, rfl⟩

/-- The round that is opened names the execution that was open. -/
theorem StepRuntimeState.opened_invocations
    (h : openRound rt phase detail cause = some (recovery, record)) :
    (rt.opened record).rounds = recovery.rounds ++ [record] ∧
      rt.invocations = (recovery.rounds ++ [record]).flatMap RecoveryRoundRecord.invocations := by
  obtain ⟨invocation, hinvocation, hexecution, hrecovery, -, rfl⟩ := openRound_eq h
  constructor
  · unfold opened editRecovery rounds
    rw [hrecovery]
    rfl
  · have hrounds := rounds_of_recovery hrecovery
    rw [StepRuntimeState.invocations, hrounds,
      openTarget_of_target hexecution hinvocation (by rw [hrounds]),
      List.flatMap_append]
    rfl

section Reductions

variable {occurrence : Occurrence O C V D} {moves : List (StepStateKind × StepStateKind)}
  {starts : List (ActionId × ActiveStepInvocation)}

/-- What is known about a node between two reductions. -/
structure NodeBookkeeping (d : RuntimeStep) (rt : StepRuntimeState C V) : Prop where
  invocation : InvocationMatches rt
  recovery : RecoveryHolds rt
  policy : ∀ recovery, rt.recovery = some recovery →
    d.recovery.isSome = true ∧ recovery.configuredRounds < 255
  recovering : rt.state.kind = .recovering → rt.recovery.isSome = true

section

variable (h : NodeBookkeeping d rt)
include h

/-- Before its first execution a node has no history. -/
theorem NodeBookkeeping.pending (hpending : rt.state = .pending) :
    rt.rounds = [] ∧ rt.targetExecution = none := by
  refine ⟨?_, (h.invocation.pending hpending).2⟩
  cases hrecovery : rt.recovery with
  | none => exact rounds_of_none hrecovery
  | some recovery =>
    rw [rounds_of_recovery hrecovery]
    exact (h.recovery recovery hrecovery).pending hpending

/-- While a handler is active no execution is open. -/
theorem NodeBookkeeping.handled {round : RecoveryRoundNumber}
    (hrecovery : rt.recovery = some recovery)
    (hactive : rt.activeInvocation = some (.recoveryHandler round)) : rt.openTarget = [] := by
  obtain ⟨hexecution, hround, -⟩ := (h.recovery recovery hrecovery).handler round hactive
  refine openTarget_of_execution hexecution ?_
  rw [rounds_of_recovery hrecovery, hround]
  exact Nat.ne_of_lt (Nat.lt_succ_self _)

/-- The last failure of a node is in its last round. -/
theorem NodeBookkeeping.latest
    {failure : ProvisionalTargetFailure C} (hfailure : rt.latestFailure = some failure) :
    ∃ recovery record, rt.recovery = some recovery ∧ recovery.rounds.getLast? = some record ∧
      record.failedExecution = failure ∧ failure.executionNumber = recovery.rounds.length ∧
      next failure.executionNumber = some (recovery.rounds.length + 1) := by
  obtain ⟨record, hlast, rfl⟩ := Option.map_eq_some_iff.mp hfailure
  obtain ⟨recovery, hrecovery, hlast⟩ := Option.bind_eq_some_iff.mp hlast
  have hinv := h.recovery recovery hrecovery
  have hnumber := (hinv.aligned.last hlast).2
  refine ⟨recovery, record, hrecovery, hlast, rfl, hnumber, ?_⟩
  rw [hnumber, next,
    if_pos (hinv.aligned.bounded.trans_lt (h.policy recovery hrecovery).2)]

/-- A node that is being recovered has failed. -/
theorem NodeBookkeeping.failed {round : RecoveryRoundNumber}
    {activity : RecoveryHandlerActivity} (hstate : rt.state = .recovering round activity) :
    ∃ failure, rt.latestFailure = some failure := by
  obtain ⟨recovery, hrecovery⟩ := Option.isSome_iff_exists.mp (h.recovering (by rw [hstate]; rfl))
  obtain ⟨-, -, record, hlast, -⟩ := (h.recovery recovery hrecovery).handler round
    (h.invocation.handler round activity hstate)
  refine ⟨record.failedExecution, ?_⟩
  rw [StepRuntimeState.latestFailure, StepRuntimeState.lastRound_eq hrecovery, hlast,
    Option.map_some]

/-- The last round of a node that is being recovered has a next execution. -/
theorem NodeBookkeeping.not_lost
    (hstate : ∃ round activity, rt.state = .recovering round activity) :
    rt.latestFailure.bind (fun failure => next failure.executionNumber) ≠ none := by
  obtain ⟨round, activity, hstate⟩ := hstate
  obtain ⟨failure, hfailure⟩ := h.failed hstate
  obtain ⟨recovery, record, -, -, -, -, hsucc⟩ := h.latest hfailure
  rw [hfailure, Option.bind_some, hsucc]
  exact Option.some_ne_none _

end

/-- A new execution after the last round is added to the history. -/
theorem StepRuntimeState.started_invocations (hn : n = rt.rounds.length + 1) :
    (rt.started action n).invocations =
      rt.rounds.flatMap RecoveryRoundRecord.invocations ++ [(action, .target n)] := by
  have hrounds : (rt.started action n).rounds = rt.rounds := rfl
  have hopen : (rt.started action n).openTarget = [(action, .target n)] :=
    openTarget_of_target rfl rfl hn
  rw [StepRuntimeState.invocations, hrounds, hopen]

/-- The handler of a round that was just opened is added to the history. -/
theorem StepRuntimeState.handlerStarted_invocations {cause : C}
    (h : openRound rt phase detail cause = some (recovery, record)) (action : ActionId)
    (kind : RecoveryHandlerKind) :
    ((rt.opened record).handlerStarted action record.number kind).rounds =
        recovery.rounds ++ [{ record with handler := some ⟨kind, action, .starting⟩ }] ∧
      ((rt.opened record).handlerStarted action record.number kind).invocations =
        rt.invocations ++ [(action, .recoveryHandler record.number)] := by
  obtain ⟨-, hinvocations⟩ := StepRuntimeState.opened_invocations h
  obtain ⟨invocation, -, hexecution, hrecovery, -, hrecord⟩ := openRound_eq h
  have hrounds : ((rt.opened record).handlerStarted action record.number kind).rounds =
      recovery.rounds ++ [{ record with handler := some ⟨kind, action, .starting⟩ }] := by
    unfold StepRuntimeState.handlerStarted opened editRecovery
      rounds
    rw [hrecovery]
    simp [modifyLastRound]
  have hopen : ((rt.opened record).handlerStarted action record.number kind).openTarget = [] := by
    refine openTarget_of_execution hexecution ?_
    rw [hrounds, List.length_append, List.length_singleton]
    exact Nat.ne_of_lt (Nat.lt_succ_self _)
  refine ⟨hrounds, ?_⟩
  rw [StepRuntimeState.invocations, hrounds, hopen, hinvocations, hrecord]
  simp [RecoveryRoundRecord.invocations]

theorem Begins.invocations (h : Begins rt rt' starts) (hrounds : rt.rounds = [])
    (hexecution : rt.targetExecution = none) : rt'.invocations = rt.invocations ++ starts := by
  have hnone : rt.invocations = [] := by
    rw [StepRuntimeState.invocations, hrounds, StepRuntimeState.openTarget_of_none hexecution]
    rfl
  cases h with
  | start =>
    rw [StepRuntimeState.started_invocations (by rw [hrounds]; rfl), hnone, hrounds]
    rfl
  | drop | fail =>
    rw [List.append_nil]
    exact StepRuntimeState.SameHistory.invocations ⟨rfl, rfl, rfl⟩

variable [NodeFailureSource C]

/-- An occurrence that leads to no invocation keeps the history of a node. -/
theorem OccurrenceMove.sameHistory (h : OccurrenceMove occurrence s id d rt rt' [])
    (hrt : NodeBookkeeping d rt) : rt.SameHistory rt' := by
  cases h with
  | run | capture => exact ⟨rfl, rfl, rfl⟩
  | succeed => exact (noteExecution_sameHistory _).settled _
  | exhaust rt₁ _ hopened =>
    obtain rfl : rt₁ = rt := by
      refine StepRuntimeState.eq_of_not_openedInVain
        (fun recovery hrecovery => (hrt.policy recovery hrecovery).2) ?_
      exact hopened.imp And.left (fun ⟨recovery, record, hopen, hnext, heq⟩ =>
        ⟨recovery, record, ⟨_, _, _, hopen⟩, hnext, heq⟩)
    split_ifs
    · exact (noteExecution_sameHistory _).settled _
    · exact (StepRuntimeState.SameHistory.refl rt₁).settled _
  | handlerRunning round =>
    have h : rt.SameHistory (rt.noteOutcome round .running) :=
      noteOutcome_sameHistory round .running
    exact ⟨h.execution, h.invocation, h.rounds⟩
  | gaveUp round =>
    exact ((noteOutcome_sameHistory round _).trans
      (noteDisposition_sameHistory _)).settled _
  | handlerFailed =>
    exact ((noteOutcome_sameHistory _ _).trans
      (noteDisposition_sameHistory _)).settled _
  | quiesce _ _ active =>
    exact (StepRuntimeState.noteCancelled_sameHistory active).settled _

/-- An occurrence adds to the history of a node what it leads to. -/
theorem OccurrenceMove.invocations (h : OccurrenceMove occurrence s id d rt rt' starts)
    (hrt : NodeBookkeeping d rt) : rt'.invocations = rt.invocations ++ starts := by
  by_cases hstarts : starts = []
  · subst hstarts
    rw [List.append_nil, (h.sameHistory hrt).invocations]
  cases h with
  | @retry _ _ _ _ record n _ hopen _ hnext =>
    obtain ⟨hrounds, hinvocations⟩ := StepRuntimeState.opened_invocations hopen
    obtain ⟨invocation, -, -, hrecovery, hleft, hrecord⟩ := openRound_eq hopen
    have hn : n = (rt.opened record).rounds.length + 1 := by
      rw [hrecord, next,
        if_pos (Nat.lt_of_le_of_lt hleft (hrt.policy _ hrecovery).2)] at hnext
      rw [hrounds, List.length_append, List.length_singleton]
      exact (Option.some.inj hnext).symm
    rw [StepRuntimeState.started_invocations hn, hrounds, hinvocations]
  | recover kind _ hopen =>
    exact (StepRuntimeState.handlerStarted_invocations hopen s.actionId kind).2
  | recheck n round _ decision _ _ _ hactive _ hnext =>
    obtain ⟨failure, hfailure, hnext⟩ := Option.bind_eq_some_iff.mp hnext
    obtain ⟨recovery, record, hrecovery, -, -, -, hsucc⟩ := hrt.latest hfailure
    have hsame : rt.SameHistory (rt.noteOutcome round
        (.recheck decision.summary decision.reason)) :=
      noteOutcome_sameHistory round _
    have hn : n = (rt.noteOutcome round
        (.recheck decision.summary decision.reason)).rounds.length + 1 := by
      rw [hsame.length, rounds_of_recovery hrecovery]
      exact Option.some.inj (hnext.symm.trans hsucc)
    -- no execution was open, so the new one is the only change
    rw [StepRuntimeState.started_invocations hn, List.flatMap_def, hsame.rounds,
      ← List.flatMap_def, StepRuntimeState.invocations, hrt.handled hrecovery hactive,
      List.append_nil]
  | _ => exact absurd rfl hstarts

/-- A reduction adds to the history of a node what it requests for the node. -/
theorem NodeReduction.invocations (h : NodeReduction o s id d rt rt' moves starts)
    (hrt : NodeBookkeeping d rt) : rt'.invocations = rt.invocations ++ starts := by
  cases h with
  | still | recontained | dropped =>
    rw [List.append_nil]
    exact StepRuntimeState.SameHistory.invocations ⟨rfl, rfl, rfl⟩
  | lost _ hstate hlost => exact absurd hlost (hrt.not_lost hstate)
  | begun _ hpending hbegins =>
    obtain ⟨hrounds, hexecution⟩ := hrt.pending hpending
    exact hbegins.invocations hrounds hexecution
  | contained _ active =>
    rw [List.append_nil]
    have h : rt.SameHistory (rt.noteHandlerCancelled active) :=
      StepRuntimeState.noteHandlerCancelled_sameHistory active
    exact StepRuntimeState.SameHistory.invocations ⟨h.execution, h.invocation, h.rounds⟩
  | moved _ hmove => exact hmove.invocations hrt
  | completed =>
    rw [List.append_nil]
    exact ((noteExecution_sameHistory _).settled _).invocations

/-- The handler that recovers a node is its last invocation and its current action. -/
def StepRuntimeState.HandlerCurrent (rt : StepRuntimeState C V) : Prop :=
  ∀ round activity, rt.state = .recovering round activity → ∃ action,
    rt.currentAction = some action ∧ rt.invocations.getLast? = some (action, .recoveryHandler round)

theorem NodeReduction.handlerCurrent (h : NodeReduction o s id d rt rt' moves starts)
    (hrt : NodeBookkeeping d rt) (hcurrent : rt.HandlerCurrent) : rt'.HandlerCurrent := by
  intro round activity hstate
  cases h with
  | still => exact hcurrent round activity hstate
  | lost _ hrecovering hlost => exact absurd hlost (hrt.not_lost hrecovering)
  | begun _ _ hbegins =>
    cases hbegins with
    | start => cases hstate
    | drop state hterminal | fail state hterminal =>
      cases state with
      | recovering => cases hterminal
      | _ => cases hstate
  | recontained _ _ hcancelling => cases hcancelling.symm.trans hstate
  | dropped | contained | completed => cases hstate
  | moved ho hmove =>
    cases hmove with
    | recover kind _ hopen =>
      cases hstate
      refine ⟨s.actionId, rfl, ?_⟩
      rw [(StepRuntimeState.handlerStarted_invocations hopen s.actionId kind).2,
        List.getLast?_concat]
    | handlerRunning _ _ _ _ _ hbefore =>
      cases hstate
      obtain ⟨current, hsame, hlast⟩ := hcurrent _ _ hbefore
      have hhistory : rt.SameHistory (rt.noteOutcome round .running) :=
        noteOutcome_sameHistory round .running
      refine ⟨current, hsame, ?_⟩
      rw [← hlast]
      exact congrArg List.getLast? (StepRuntimeState.SameHistory.invocations
        ⟨hhistory.execution, hhistory.invocation, hhistory.rounds⟩)
    | _ => cases hstate

end Reductions

section Runs

variable [ConditionOutput V] [ProvisionalStepResources O] [NodeFailureSource C]
  {start : ExecutionStart D} {occurrences : List (Occurrence O C V D)}

omit [ProvisionalStepResources O] [NodeFailureSource C] in
theorem Reachable.nodeBookkeeping (h : Reachable definition seed m s)
    (hd : definition.steps.get? id = some d) (hretries : ∀ policy ∈ d.recovery, policy.retries ≤ 10)
    (hrt : s.steps.get? id = some rt) : NodeBookkeeping d rt :=
  ⟨h.invocationMatches hd hrt, h.recoveryHolds hd hrt hretries, h.policy_bound hd hrt hretries,
    h.recovering hd hrt⟩

section

variable (hcoherent : start.definition.Coherent) (hd : start.definition.steps.get? id = some d)
  (hretries : ∀ policy ∈ d.recovery, policy.retries ≤ 10)
include hcoherent hd hretries

/-- What every reduction keeps about a node, its transitions and the invocations requested for
it holds in every run, with the bookkeeping of the node between any two reductions. -/
theorem ledger_kept
    (hinit : P [] [] (initialStep seed id d)) (hstep : ∀ (o : Option (Occurrence O C V D))
      (s : RuntimeState C V D) rt rt' moves starts moves' starts',
      (∀ occurrence ∈ o, occurrence ∈ occurrences) → NodeBookkeeping d rt → P moves starts rt →
      NodeReduction o s id d rt rt' moves' starts' → P (moves ++ moves') (starts ++ starts') rt')
    (hrt : (ledger start seed occurrences).state.steps.get? id = some rt) :
    NodeBookkeeping d rt ∧ P (movesOf id (ledger start seed occurrences).events)
      (startsOf id (ledger start seed occurrences).actions) rt := by
  refine ⟨(ledger_reachable start seed hcoherent occurrences).nodeBookkeeping hd hretries hrt, ?_⟩
  induction occurrences using List.reverseRecOn generalizing rt with
  | nil =>
    have hnode : ∃ rt', (initializeSeededDefinition start seed :
        Reduction O C V D).state.steps.get? id = some rt' ∧ _ :=
      initialize_node hcoherent hd
    obtain ⟨rt', hrt', hview⟩ := hnode
    obtain rfl : rt' = rt := Option.some.inj (hrt'.symm.trans hrt)
    have hreach : Reachable start.definition seed (1 : Emission O C V D) _ := .refl _
    refine hstep none _ _ _ [] [] _ _ nofun (hreach.nodeBookkeeping hd hretries ?_) hinit hview
    exact get?_initialState hd seed
  | append_singleton occurrences occurrence ih =>
    have hreach := ledger_reachable start seed hcoherent occurrences
    have hd' : (ledger start seed occurrences).state.definition.steps.get? id = some d := by
      rwa [hreach.definition_eq]
    obtain ⟨rt₀, hrt₀⟩ := hreach.nodesMatch.runtime hd'
    obtain ⟨rt', hrt', hview⟩ := reduce_node hreach.nodesMatch (hreach.coherent hcoherent)
      occurrence hd' hrt₀
    rw [ledger_concat] at hrt ⊢
    obtain rfl : rt' = rt := Option.some.inj (hrt'.symm.trans hrt)
    have hbefore := ih (fun o s rt rt' moves starts moves' starts' hmem =>
      hstep o s rt rt' moves starts moves' starts'
        (fun occurrence h => List.mem_append_left _ (hmem occurrence h))) hrt₀
    have hafter := hstep (some occurrence) _ _ _ _ _ _ _ (by simp)
      (hreach.nodeBookkeeping hd hretries hrt₀) hbefore hview
    rwa [← movesOf_append, ← startsOf_append] at hafter

/-- The invocations that a run requested for a node are those in its history. -/
theorem ledger_invocations (hrt : (ledger start seed occurrences).state.steps.get? id = some rt) :
    startsOf id (ledger start seed occurrences).actions = rt.invocations := by
  refine (ledger_kept (P := fun _ starts rt => starts = rt.invocations) hcoherent hd hretries
    ?_ ?_ hrt).2
  · unfold initialStep StepRuntimeState.invocations rounds
      openTarget
    cases seed.steps.get? id <;> cases d.recovery <;> rfl
  · rintro o s rt rt' _ starts moves' starts' - hbook rfl hview
    exact (hview.invocations hbook).symm

theorem ledger_handlerCurrent
    (hrt : (ledger start seed occurrences).state.steps.get? id = some rt) :
    NodeBookkeeping d rt ∧ rt.HandlerCurrent := by
  refine ledger_kept (P := fun _ _ rt => rt.HandlerCurrent) hcoherent hd hretries ?_ ?_ hrt
  · intro round activity hstate
    unfold initialStep at hstate
    cases hseed : seed.steps.get? id <;> rw [hseed] at hstate <;> cases hstate
  · intro o s rt rt' _ _ moves' starts' _ hbook hcurrent hview
    exact hview.handlerCurrent hbook hcurrent

end

/-- The recovery of a node with a policy, in every state of every run: rounds and failed
executions are numbered alike, an active target runs the execution after the last round, no
more is started than the policy allows, and the recovery is decided as its node was settled.
Only a node that the run inherited has no record. -/
theorem recovery_bookkeeping {decoded : DecodedDocument} {workflow : ValidatedWorkflow}
    (hvalid : validate decoded.document = .ok workflow)
    (inputs : BTreeMap String ResolvedInput)
    (parallel transitions : Nat)
    (initial : Option (InitialCancellation D))
    (seed : ExecutionSeed V)
    (occurrences : List (Occurrence O C V D))
    {start : ExecutionStart D}
    (hstart : start =
      ⟨RuntimeDefinition.fromAdmitted workflow inputs parallel transitions, initial⟩)
    {run : Reduction O C V D}
    (hrun : run = ledger start seed occurrences)
    {id : String}
    {d : RuntimeStep}
    (hd : start.definition.steps.get? id = some d)
    {policy : RuntimeRecovery}
    (hpolicy : d.recovery = some policy) :
    run.actions.countP (startsTarget id) ≤ policy.retries + 1 ∧
    run.actions.countP (startsHandler id) ≤ policy.retries ∧
    ∃ rt, run.state.steps.get? id = some rt ∧
      (rt.recovery = none → rt.state.kind = .inherited) ∧
      ∀ recovery, rt.recovery = some recovery →
        recovery.handlerKind = policy.handlerKind ∧
        recovery.rounds.length ≤ policy.retries ∧
        recovery.rounds.map RecoveryRoundRecord.number = List.range' 1 recovery.rounds.length ∧
        recovery.rounds.map (fun record => record.failedExecution.executionNumber) =
          List.range' 1 recovery.rounds.length ∧
        (policy.handlerKind.isSome = true → ∀ record ∈ recovery.rounds.dropLast, record.Rechecked) ∧
        (rt.RunsTarget ∨ (∃ n, rt.activeInvocation = some (.target n)) →
          rt.targetExecution = some (recovery.rounds.length + 1) ∧
          (policy.handlerKind.isSome = true → ∀ record ∈ recovery.rounds, record.Rechecked)) ∧
        (recovery.terminalDisposition.isSome = true ↔
          rt.state.isTerminal = true ∧ recovery.rounds ≠ []) ∧
        ∀ disposition ∈ recovery.terminalDisposition,
          dispositionAgrees rt.state disposition = true := by
  have hcoherent : start.definition.Coherent := by
    rw [hstart]
    exact fromAdmitted_coherent hvalid ..
  have hretries : ∀ policy ∈ d.recovery, policy.retries ≤ 10 := by
    subst hstart
    exact fun policy hmem => (validate_accepted hvalid).retries_le decoded.structural hd hmem
  have hreach := ledger_reachable start seed hcoherent occurrences
  rw [← hrun] at hreach
  obtain ⟨rt, hrt⟩ := hreach.nodesMatch.runtime (by rwa [hreach.definition_eq])
  have hmatch := hreach.invocationMatches hd hrt
  have hholds := hreach.recoveryHolds hd hrt hretries
  have hstarts : startsOf id run.actions = rt.invocations := by
    rw [hrun] at hrt ⊢
    exact ledger_invocations hcoherent hd hretries hrt
  obtain ⟨hexecutions, hhandlers⟩ := rt.countP_invocations_le
  have hrecord : ∀ recovery, rt.recovery = some recovery →
      recovery.configuredRounds = policy.retries ∧ recovery.handlerKind = policy.handlerKind := by
    intro recovery hrecovery
    rcases hreach.policy hd hrt with hkept | ⟨hnone, -⟩
    · rw [StepRuntimeState.policy, hrecovery, hpolicy] at hkept
      exact Prod.mk.inj (Option.some.inj hkept)
    · cases hnone.symm.trans hrecovery
  have hrounds : rt.rounds.length ≤ policy.retries := by
    cases hrecovery : rt.recovery with
    | none =>
      rw [rounds_of_none hrecovery]
      exact Nat.zero_le _
    | some recovery =>
      rw [rounds_of_recovery hrecovery, ← (hrecord recovery hrecovery).1]
      exact (hholds recovery hrecovery).aligned.bounded
  refine ⟨?_, ?_, rt, hrt, ?_, ?_⟩
  · rw [countP_startsTarget, hstarts]
    exact hexecutions.trans (Nat.add_le_add_right hrounds 1)
  · rw [countP_startsHandler, hstarts]
    exact hhandlers.trans hrounds
  · intro hnone
    rcases hreach.policy hd hrt with hkept | ⟨-, hkind⟩
    · rw [StepRuntimeState.policy, hnone, hpolicy] at hkept
      cases hkept
    · exact hkind
  · intro recovery hrecovery
    obtain ⟨hconfigured, hkind⟩ := hrecord recovery hrecovery
    have hinv := hholds recovery hrecovery
    refine ⟨hkind, hconfigured ▸ hinv.aligned.bounded, hinv.aligned.numbers,
      hinv.aligned.executions, hkind ▸ hinv.aligned.earlier, ?_, ?_, hinv.agrees⟩
    · intro htarget
      obtain ⟨n, hactive⟩ : ∃ n, rt.activeInvocation = some (.target n) :=
        htarget.elim hmatch.target (fun h => h)
      obtain ⟨hexecution, rfl, hrechecked⟩ := hinv.target n hactive
      exact ⟨hexecution, hkind ▸ hrechecked⟩
    · cases hterminal : rt.state.isTerminal with
      | true => simpa using hinv.decided hterminal
      | false => simp [hinv.undecided hterminal]

theorem recheckedBuild_bookkeeping :
    recheckedBuild.actions.countP (startsTarget "build") ≤ 2 ∧
    ∃ rt, recheckedBuild.state.steps.get? "build" = some rt ∧ rt.RunsTarget ∧
      ∀ recovery, rt.recovery = some recovery →
        recovery.rounds.map RecoveryRoundRecord.number = List.range' 1 recovery.rounds.length := by
  have hrunning : ∃ rt, recheckedBuild.state.steps.get? "build" = some rt ∧ rt.RunsTarget :=
    ⟨_, rfl, Or.inl rfl⟩
  obtain ⟨d, hd, hpolicy⟩ : ∃ d, (RuntimeDefinition.fromAdmitted
      (acceptedWorkflow recoverableDocument) .empty 1 32).steps.get? "build" = some d ∧
      d.recovery = some ⟨1, some .command⟩ := ⟨_, rfl, rfl⟩
  obtain ⟨hstarts, -, rt, hrt, -, hrecord⟩ := recovery_bookkeeping
    (show validate recoverableDecoded.document = .ok
      (acceptedWorkflow recoverableDocument) from rfl)
    .empty 1 32 none .empty _ rfl (show recheckedBuild = _ from rfl)
    hd hpolicy
  obtain ⟨rt', hrt', htarget⟩ := hrunning
  cases hrt'.symm.trans hrt
  exact ⟨hstarts, rt, hrt, htarget, fun recovery h => (hrecord recovery h).2.2.1⟩

end Runs

/-- The action starts an invocation. -/
def isStart (a : RequestedAction O C V D) : Bool :=
  match a.action with
  | .startStep _ _ _ | .startRecoveryHandler _ _ _ _ => true
  | _ => false

/-- The identities of all invocations. -/
def startIds (actions : List (RequestedAction O C V D)) : List ActionId :=
  (actions.filter isStart).map RequestedAction.id

variable {j : String}

@[simp] theorem startIds_append (more : List (RequestedAction O C V D)) :
    startIds (actions ++ more) = startIds actions ++ startIds more := by
  rw [startIds, startIds, startIds, List.filter_append, List.map_append]

theorem startIds_eq_nil (h : ∀ a ∈ actions, isStart a = false) : startIds actions = [] := by
  rw [startIds, List.filter_eq_nil_iff.mpr (fun a ha => by rw [h a ha]; exact Bool.false_ne_true)]
  rfl

/-- An invocation of a node is requested by an action with its identity. -/
theorem mem_startsOf (h : (i, active) ∈ startsOf id actions) :
    ∃ a ∈ actions, a.id = i ∧ isStart a = true ∧ actionTarget a = some id := by
  obtain ⟨a, ha, hstart⟩ := List.mem_filterMap.mp h
  refine ⟨a, ha, ?_⟩
  obtain ⟨aid, action⟩ := a
  cases action with
  | startStep | startRecoveryHandler =>
    simp only [startOf] at hstart
    split_ifs at hstart with hnode
    cases hstart
    exact ⟨rfl, rfl, by rw [← hnode]; rfl⟩
  | _ => cases hstart

theorem startsOf_sublist (id : String) :
    ((startsOf id actions).map Prod.fst).Sublist (startIds actions) := by
  induction actions with
  | nil => exact .slnil
  | cons a actions ih =>
    rw [startsOf_cons, List.map_append]
    have hsplit : startIds (a :: actions) = startIds [a] ++ startIds actions :=
      @startIds_append _ _ _ _ [a] actions
    rw [hsplit]
    refine List.Sublist.append ?_ ih
    obtain ⟨aid, action⟩ := a
    cases action with
    | startStep | startRecoveryHandler =>
      simp only [startOf]
      split_ifs
      · exact .refl _
      · exact List.nil_sublist _
    | _ => exact List.nil_sublist _

/-- No invocation belongs to two nodes. -/
theorem startsOf_node (hnodup : (startIds actions).Nodup) {active' : ActiveStepInvocation}
    (h : (i, active) ∈ startsOf id actions) (h' : (i, active') ∈ startsOf j actions) : id = j := by
  obtain ⟨a, ha, hid, hstart, htarget⟩ := mem_startsOf h
  obtain ⟨b, hb, hid', hstart', htarget'⟩ := mem_startsOf h'
  have heq : a = b := List.inj_on_of_nodup_map hnodup (List.mem_filter.mpr ⟨ha, hstart⟩)
    (List.mem_filter.mpr ⟨hb, hstart'⟩) (hid.trans hid'.symm)
  rw [heq, htarget'] at htarget
  exact (Option.some.inj htarget).symm

variable {t : RuntimeState C V D}

variable [ConditionOutput V]

theorem NodeMove.startIds {d : RuntimeStep} {rt rt' : StepRuntimeState C V}
    (h : NodeMove o s id d rt rt' actions) :
    startIds actions = [] ∨ Workflow.startIds actions = [s.actionId] := by
  cases h with
  | start | retry | recheck | recover => exact Or.inr rfl
  | capture | run | succeed | handlerRunning | skip | failureStop | notSelected | forcedCancel
  | quiesce => exact Or.inl rfl

/-- A step starts at most one invocation, with its own transition as the identity. -/
theorem ReducerStep.startIds (hstep : ReducerStep o s m t) :
    startIds m.actions = [] ∨ Workflow.startIds m.actions = [s.actionId] ∧ m.events.length = 1 := by
  cases hstep with
  | node _ _ hmove => exact hmove.startIds.imp_right (fun h => ⟨h, rfl⟩)
  | complete | issue | primaryIssue | note | passed | operation | enter | release | finish =>
    exact Or.inl rfl
  | cancelOrdinary _ _ hcancel | cancelFinalization _ hcancel
  | forceOrdinary _ _ hcancel | forceFinalization _ _ hcancel =>
    refine Or.inl (startIds_eq_nil (fun a ha => ?_))
    obtain ⟨number, id, active, rfl | rfl⟩ := hcancel.mem_actions ha <;> rfl

/-- The identities of the invocations ascend along a run. -/
theorem Reachable.startIds_ascending (h : Reachable definition seed m s)
    (hle : m.events.length ≤ definition.maximumTransitions) (hlt : m.events.length < 2 ^ 63) :
    ((startIds m.actions).map ActionId.number).Pairwise (· < ·) ∧
      ∀ i ∈ startIds m.actions, 0 < i.number ∧ i.number ≤ m.events.length := by
  refine h.induction (I := fun m _ => m.events.length ≤ definition.maximumTransitions →
    m.events.length < 2 ^ 63 →
      ((Workflow.startIds m.actions).map ActionId.number).Pairwise (· < ·) ∧
      ∀ i ∈ Workflow.startIds m.actions, 0 < i.number ∧ i.number ≤ m.events.length) ?_ ?_ hle hlt
  · exact fun _ _ => ⟨.nil, nofun⟩
  · intro o m s n t hreach hs hstep hle hlt
    rw [Emission.mul_events, List.length_append] at hle hlt
    obtain ⟨hordered, hbounded⟩ := hs (by omega) (by omega)
    rw [Emission.mul_actions, Emission.mul_events, List.length_append, startIds_append]
    rcases hstep.startIds with hnone | ⟨hone, hlength⟩
    · rw [hnone, List.append_nil]
      refine ⟨hordered, fun i hi => ?_⟩
      have hi := hbounded i hi
      omega
    · have hnumber : s.actionId.number = m.events.length + 1 :=
        hreach.sequence.nextSeq (by rw [hreach.definition_eq]; omega) (by omega)
      rw [hone, List.map_append, hlength]
      refine ⟨List.pairwise_append.mpr ⟨hordered, List.pairwise_singleton _ _, ?_⟩, ?_⟩
      · intro x hx y hy
        obtain ⟨i, hi, rfl⟩ := List.mem_map.mp hx
        have hi := hbounded i hi
        rw [List.mem_singleton.mp hy, hnumber]
        omega
      · intro i hi
        rcases List.mem_append.mp hi with hi | hi
        · have hi := hbounded i hi
          omega
        · rw [List.mem_singleton.mp hi, hnumber]
          omega

end ScherzoCloud.Workflow
