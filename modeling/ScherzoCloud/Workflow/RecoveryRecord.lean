import ScherzoCloud.Workflow.RecoveryHistory
import ScherzoCloud.Workflow.RecoverySummary

/-!
# What a recovery record says

The loader of a result rebuilds from a recovery summary how a step ended.  For that the
record has to be exact: every failure has the detail that was committed for it, every
round has the configured handler, and the disposition names the round or the execution
with which the recovery ended.
-/

namespace ScherzoCloud.Workflow

open StepRuntimeState.RunsTarget (unsettled)
open Collections
open StepRuntimeState (noteExecution_sameHistory settled_recovery editRecovery_eq lastRound_eq)

variable {O V D : Type} {rt rt' : StepRuntimeState StepFailureCause V}
  {recovery : StepRecoveryState StepFailureCause} {record : RecoveryRoundRecord StepFailureCause}
  {d : RuntimeStep} {round : RecoveryRoundNumber} {phase : FailurePhase} {cause : StepFailureCause}
  {detail : FailureDetail} {id : String}

/-- What a handler can have reported.  A decision is parsed before it is reported, so its
texts are neither empty nor too long, and a failed handler reports a handler failure. -/
def RecoveryHandlerOutcome.Lawful : RecoveryHandlerOutcome StepFailureCause → Prop
  | .recheck summary reason | .gaveUp summary reason =>
    validDecisionText summary = true ∧ validDecisionText reason = true
  | .failed _ cause => ∃ failure, cause = .recoveryHandler failure
  | .starting | .running | .cancelled => True

/-- The reports of recovery handlers, as the driver makes them. -/
def Occurrence.Lawful : Occurrence O StepFailureCause V D → Prop
  | .recoveryHandlerCompleted _ _ _ decision =>
    validDecisionText decision.summary = true ∧ validDecisionText decision.reason = true
  | .recoveryHandlerStartFailed _ _ _ cause | .recoveryHandlerExecutionFailed _ _ _ cause =>
    ∃ failure, cause = .recoveryHandler failure
  | _ => True

/-- The handler of the last round has a certain outcome. -/
def StepRecoveryState.LastOutcome (recovery : StepRecoveryState StepFailureCause)
    (P : RecoveryHandlerOutcome StepFailureCause → Prop) : Prop :=
  ∃ record handler, recovery.rounds.getLast? = some record ∧ record.handler = some handler ∧
    P handler.outcome

/-- The execution after the last round was requested, and every handler before it asked for it. -/
structure Executes (rt : StepRuntimeState StepFailureCause V)
    (recovery : StepRecoveryState StepFailureCause) (n : TargetExecutionNumber) : Prop where
  number : n = recovery.rounds.length + 1
  execution : rt.targetExecution = some n
  rechecked : recovery.handlerKind.isSome = true → ∀ record ∈ recovery.rounds, record.Rechecked

/-- The recovery ended in its last round, with the failure that opened the round. -/
structure EndsIn (rt : StepRuntimeState StepFailureCause V)
    (recovery : StepRecoveryState StepFailureCause) (round : RecoveryRoundNumber) : Prop where
  number : round = recovery.rounds.length
  execution : rt.targetExecution = some round
  detail : ∃ record, recovery.rounds.getLast? = some record ∧
    rt.state = .failed record.failedExecution.detail

/-- How a recovery ended, by its disposition. -/
def Ends (rt : StepRuntimeState StepFailureCause V)
    (recovery : StepRecoveryState StepFailureCause) : RecoveryTerminalDisposition → Prop
  | .recovered n => Executes rt recovery n
  | .exhausted n => Executes rt recovery n ∧ recovery.rounds.length = recovery.configuredRounds
  | .gaveUp round => EndsIn rt recovery round ∧
      recovery.LastOutcome (fun outcome => ∃ summary reason, outcome = .gaveUp summary reason)
  | .handlerFailed round phase => EndsIn rt recovery round ∧
      recovery.LastOutcome (fun outcome => ∃ cause, outcome = .failed phase cause)
  | .cancelled round (.target n) => round = recovery.rounds.length ∧ Executes rt recovery n
  | .cancelled round (.recoveryHandler active) => round = recovery.rounds.length ∧
      active = recovery.rounds.length ∧ rt.targetExecution = some recovery.rounds.length ∧
      recovery.LastOutcome (· = .cancelled)

/-- Every round has the detail of its failure and the configured handler. -/
structure RoundsExact (recovery : StepRecoveryState StepFailureCause) : Prop where
  detailed : ∀ record ∈ recovery.rounds,
    failureDetail record.failedExecution.phase record.failedExecution.cause =
      .ok record.failedExecution.detail
  kinds : ∀ record ∈ recovery.rounds,
    record.handler.map RecoveryHandlerRecord.kind = recovery.handlerKind
  reported : ∀ record ∈ recovery.rounds, ∀ handler ∈ record.handler, handler.outcome.Lawful

/-- The record of a node is exact. -/
structure RecordExact (rt : StepRuntimeState StepFailureCause V)
    (recovery : StepRecoveryState StepFailureCause) : Prop where
  rounds : RoundsExact recovery
  contained : rt.state.kind = .cancelling →
    ∀ round, rt.activeInvocation = some (.recoveryHandler round) →
      recovery.LastOutcome (· = .cancelled)
  ends : ∀ disposition ∈ recovery.terminalDisposition, Ends rt recovery disposition

/-- Only what is noted about the last handler differs. -/
structure SameShape (recovery recovery' : StepRecoveryState StepFailureCause) : Prop where
  length : recovery'.rounds.length = recovery.rounds.length
  disposition : recovery'.terminalDisposition = recovery.terminalDisposition
  failure : recovery'.rounds.getLast?.map RecoveryRoundRecord.failedExecution =
    recovery.rounds.getLast?.map RecoveryRoundRecord.failedExecution

/-- What the record of a node says, if the node can recover at all. -/
structure RecoveryRecorded (rt : StepRuntimeState StepFailureCause V) : Prop where
  paired : rt.targetExecution.isSome = true → rt.targetInvocation.isSome = true
  exact : ∀ recovery, rt.recovery = some recovery → RecordExact rt recovery

/-- The record after an outcome of its active handler was noted. -/
theorem noteOutcome_recovery (hinv : RecoveryInvariant rt recovery)
    (hrecovery : rt.recovery = some recovery)
    (hactive : rt.activeInvocation = some (.recoveryHandler round))
    (outcome : RecoveryHandlerOutcome StepFailureCause) :
    ∃ record handler, recovery.rounds = recovery.rounds.dropLast ++ [record] ∧
      record.handler = some handler ∧ (rt.noteOutcome round outcome).recovery = some { recovery with
        rounds := recovery.rounds.dropLast ++
          [{ record with handler := some { handler with outcome := outcome } }] } := by
  obtain ⟨-, hround, record, hlast, hsome⟩ := hinv.handler round hactive
  obtain ⟨handler, hhandler⟩ := Option.isSome_iff_exists.mp hsome
  have hnumber : record.number = round := (hinv.aligned.last hlast).1.trans hround.symm
  refine ⟨record, handler, (List.dropLast_append_getLast? record hlast).symm, hhandler, ?_⟩
  unfold StepRuntimeState.noteOutcome StepRuntimeState.editRecovery modifyLastRound
  simp only [hrecovery, Option.map_some, hlast, RecoveryRoundRecord.noteOutcome, hnumber, if_true,
    hhandler]

/-- A round that satisfies the conditions is added, or takes the place of the last one. -/
theorem RoundsExact.concat {earlier : List (RecoveryRoundRecord StepFailureCause)}
    (h : RoundsExact recovery) (hsub : ∀ r ∈ earlier, r ∈ recovery.rounds)
    (hdetail : failureDetail record.failedExecution.phase record.failedExecution.cause =
      .ok record.failedExecution.detail)
    (hkind : record.handler.map RecoveryHandlerRecord.kind = recovery.handlerKind)
    (hlawful : ∀ handler ∈ record.handler, handler.outcome.Lawful) :
    RoundsExact { recovery with rounds := earlier ++ [record] } := by
  constructor
  · intro r hr
    rcases List.mem_append.mp hr with hr | hr
    · exact h.detailed r (hsub r hr)
    · rwa [List.mem_singleton.mp hr]
  · intro r hr
    rcases List.mem_append.mp hr with hr | hr
    · exact h.kinds r (hsub r hr)
    · rwa [List.mem_singleton.mp hr]
  · intro r hr
    rcases List.mem_append.mp hr with hr | hr
    · exact h.reported r (hsub r hr)
    · rwa [List.mem_singleton.mp hr]

/-- Noting a lawful outcome of the active handler keeps what the rounds say. -/
theorem RoundsExact.noted (h : RoundsExact recovery) (hinv : RecoveryInvariant rt recovery)
    (hrecovery : rt.recovery = some recovery)
    (hactive : rt.activeInvocation = some (.recoveryHandler round))
    {outcome : RecoveryHandlerOutcome StepFailureCause} (hlawful : outcome.Lawful) :
    ∃ recovery', (rt.noteOutcome round outcome).recovery = some recovery' ∧
      RoundsExact recovery' ∧ SameShape recovery recovery' ∧
      recovery'.LastOutcome (· = outcome) := by
  obtain ⟨record, handler, hsplit, hhandler, hnoted⟩ :=
    noteOutcome_recovery hinv hrecovery hactive outcome
  have hmem : record ∈ recovery.rounds := by
    rw [hsplit]
    exact List.mem_append_right _ (List.mem_singleton_self _)
  have hkind := h.kinds record hmem
  rw [hhandler] at hkind
  refine ⟨_, hnoted, ?_, ⟨?_, rfl, ?_⟩, ⟨_, _, List.getLast?_concat, rfl, rfl⟩⟩
  · refine h.concat (fun r hr => List.mem_of_mem_dropLast hr) (h.detailed record hmem) hkind ?_
    rintro _ ⟨⟩
    exact hlawful
  · conv_rhs => rw [hsplit]
    rw [List.length_append, List.length_append]
    rfl
  · conv_rhs => rw [hsplit]
    rw [List.getLast?_concat, List.getLast?_concat]
    rfl

/-- A node that goes on, or settles, without a change to its record. -/
theorem RecoveryRecorded.goes (h : RecoveryRecorded rt) (hrt : NodeBookkeeping d rt)
    (hopen : rt.state.isTerminal = false) (hrecovery : rt'.recovery = rt.recovery)
    (hpaired : rt'.targetExecution.isSome = true → rt'.targetInvocation.isSome = true)
    (hcontained : rt'.state.kind = .cancelling →
      ∀ round, rt'.activeInvocation = some (.recoveryHandler round) →
        rt.state.kind = .cancelling ∧ rt.activeInvocation = some (.recoveryHandler round)) :
    RecoveryRecorded rt' := by
  refine ⟨hpaired, fun recovery heq => ?_⟩
  have heq' : rt.recovery = some recovery := hrecovery ▸ heq
  have hexact := h.exact recovery heq'
  refine ⟨hexact.rounds, fun hstate round hactive => ?_, ?_⟩
  · obtain ⟨hstate, hactive⟩ := hcontained hstate round hactive
    exact hexact.contained hstate round hactive
  · rw [(hrt.recovery recovery heq').undecided hopen]
    nofun

/-- The active target goes on to the execution after the last round. -/
theorem NodeBookkeeping.executes (hrt : NodeBookkeeping d rt) (htarget : rt.RunsTarget)
    (hrecovery : rt.recovery = some recovery) : ∃ n, Executes rt recovery n := by
  obtain ⟨n, hactive⟩ := hrt.invocation.target htarget
  obtain ⟨hexecution, hn, hrechecked⟩ := (hrt.recovery recovery hrecovery).target n hactive
  exact ⟨n, hn, hexecution, hrechecked⟩

/-- A node settles with its target: the disposition names the execution. -/
theorem RecoveryRecorded.executed (h : RecoveryRecorded rt) (hrt : NodeBookkeeping d rt)
    (htarget : rt.RunsTarget) {state : StepState V}
    {disposition : TargetExecutionNumber → RecoveryTerminalDisposition}
    (hends : ∀ recovery n, rt.recovery = some recovery → Executes rt recovery n →
      Ends ((rt.noteExecution disposition).settled state)
        { recovery with terminalDisposition := some (disposition n) } (disposition n)) :
    RecoveryRecorded ((rt.noteExecution disposition).settled state) := by
  have hopen := unsettled (Or.inl htarget)
  have hsame : rt.SameHistory ((rt.noteExecution disposition).settled state) :=
    (noteExecution_sameHistory disposition).settled state
  refine ⟨?_, fun recovery' heq => ?_⟩
  · rw [hsame.execution, hsame.invocation]
    exact h.paired
  rw [settled_recovery, StepRuntimeState.noteExecution] at heq
  cases hactivated : rt.activatedExecution with
  | none =>
    rw [hactivated] at heq
    refine ⟨(h.exact recovery' heq).rounds, fun _ _ hactive => (nomatch hactive), ?_⟩
    rw [(hrt.recovery recovery' heq).undecided hopen]
    nofun
  | some n =>
    rw [hactivated] at heq
    obtain ⟨recovery, hrecovery, rfl⟩ := editRecovery_eq heq
    obtain ⟨n', hexecutes⟩ := hrt.executes htarget hrecovery
    obtain ⟨-, -, hexecution⟩ := Option.bind_eq_some_iff.mp hactivated
    obtain rfl : n' = n := Option.some.inj (hexecutes.execution.symm.trans hexecution)
    have hrounds := (h.exact recovery hrecovery).rounds
    refine ⟨⟨hrounds.detailed, hrounds.kinds, hrounds.reported⟩,
      fun _ _ hactive => (nomatch hactive), ?_⟩
    rintro _ ⟨⟩
    exact hends recovery n' hrecovery hexecutes

/-- The end of an execution is noted, the execution stays the same. -/
theorem Executes.noted {n : TargetExecutionNumber} (h : Executes rt recovery n)
    (disposition : TargetExecutionNumber → RecoveryTerminalDisposition) (state : StepState V) :
    Executes ((rt.noteExecution disposition).settled state)
      { recovery with terminalDisposition := some (disposition n) } n :=
  ⟨h.number,
    ((noteExecution_sameHistory disposition).settled state).execution.trans
    h.execution, h.rechecked⟩

/-- The rounds after a failure that opened one. -/
theorem RoundsExact.opened (h : RoundsExact recovery)
    (hopen : openRound rt phase detail cause = some (recovery, record))
    (hdetail : failureDetail phase cause = .ok detail)
    (handler : Option (RecoveryHandlerRecord StepFailureCause))
    (hkind : handler.map RecoveryHandlerRecord.kind = recovery.handlerKind)
    (hlawful : ∀ handler' ∈ handler, handler'.outcome.Lawful) : RoundsExact { recovery with
      rounds := recovery.rounds ++ [{ record with handler := handler }] } := by
  obtain ⟨invocation, -, -, -, -, rfl⟩ := openRound_eq hopen
  exact h.concat (fun r hr => hr) hdetail hkind hlawful

section

variable (h : RecoveryRecorded rt) (hrt : NodeBookkeeping d rt)
include h hrt

/-- A target that failed opens a round and runs again. -/
theorem RecoveryRecorded.retried (hunsettled : rt.state.isTerminal = false)
    (hopen : openRound rt phase detail cause = some (recovery, record))
    (hdetail : failureDetail phase cause = .ok detail) (hkind : recovery.handlerKind = none)
    (action : ActionId) (n : TargetExecutionNumber) :
    RecoveryRecorded ((rt.opened record).started action n) := by
  obtain ⟨invocation, -, -, hrecovery, -, hrecord⟩ := openRound_eq hopen
  have hrounds := (h.exact recovery hrecovery).rounds.opened hopen hdetail none hkind.symm nofun
  refine ⟨fun _ => rfl, fun recovery' heq => ?_⟩
  obtain ⟨recovery₀, hrecovery₀, rfl⟩ := editRecovery_eq heq
  obtain rfl : recovery₀ = recovery := Option.some.inj (hrecovery₀.symm.trans hrecovery)
  refine ⟨?_, nofun, ?_⟩
  · rw [hrecord] at hrounds ⊢
    exact hrounds
  · rw [show ({ recovery₀ with rounds := recovery₀.rounds ++ [record] } :
      StepRecoveryState StepFailureCause).terminalDisposition = recovery₀.terminalDisposition
      from rfl, (hrt.recovery recovery₀ hrecovery₀).undecided hunsettled]
    nofun

/-- A target that failed opens a round and its handler is started. -/
theorem RecoveryRecorded.recovers (hunsettled : rt.state.isTerminal = false)
    (hopen : openRound rt phase detail cause = some (recovery, record))
    (hdetail : failureDetail phase cause = .ok detail) {kind : RecoveryHandlerKind}
    (hkind : recovery.handlerKind = some kind) (action : ActionId) :
    RecoveryRecorded ((rt.opened record).handlerStarted action record.number kind) := by
  obtain ⟨invocation, hinvocation, -, hrecovery, -, -⟩ := openRound_eq hopen
  have hrounds := (h.exact recovery hrecovery).rounds.opened hopen hdetail
    (some ⟨kind, action, .starting⟩) hkind.symm (by rintro _ ⟨⟩; trivial)
  refine ⟨fun _ => by
    rw [show ((rt.opened record).handlerStarted action record.number kind).targetInvocation =
      rt.targetInvocation from rfl, hinvocation]
    rfl, fun recovery' heq => ?_⟩
  obtain ⟨recovery₁, hrecovery₁, rfl⟩ := editRecovery_eq heq
  obtain ⟨recovery₀, hrecovery₀, rfl⟩ := editRecovery_eq hrecovery₁
  obtain rfl : recovery₀ = recovery := Option.some.inj (hrecovery₀.symm.trans hrecovery)
  simp only [modifyLastRound, List.getLast?_concat, List.dropLast_concat]
  refine ⟨hrounds, by rintro ⟨⟩, ?_⟩
  rw [show ({ recovery₀ with rounds := recovery₀.rounds ++
      [{ record with handler := some ⟨kind, action, .starting⟩ }] } :
      StepRecoveryState StepFailureCause).terminalDisposition = recovery₀.terminalDisposition
      from rfl, (hrt.recovery recovery₀ hrecovery₀).undecided hunsettled]
  simp

/-- A node whose active handler has a new outcome, and whose record is still undecided. -/
theorem RecoveryRecorded.noted (hopen : rt.state.isTerminal = false)
    (hactive : rt.activeInvocation = some (.recoveryHandler round))
    (outcome : RecoveryHandlerOutcome StepFailureCause) (hlawful : outcome.Lawful)
    (hrecovery : rt'.recovery = (rt.noteOutcome round outcome).recovery)
    (hpaired : rt'.targetExecution.isSome = true → rt'.targetInvocation.isSome = true)
    (hcontained : rt'.state.kind = .cancelling → outcome = .cancelled) : RecoveryRecorded rt' := by
  refine ⟨hpaired, fun recovery' heq => ?_⟩
  rw [hrecovery] at heq
  obtain ⟨recovery, hbefore, -⟩ := editRecovery_eq heq
  have hinv := hrt.recovery recovery hbefore
  obtain ⟨recovery'', heq', hrounds, hshape, record, handler, hlast, hhandler, houtcome⟩ :=
    (h.exact recovery hbefore).rounds.noted hinv hbefore hactive hlawful
  obtain rfl : recovery'' = recovery' := Option.some.inj (heq'.symm.trans heq)
  refine ⟨hrounds, fun hstate _ _ => ⟨record, handler, hlast, hhandler, ?_⟩, ?_⟩
  · rw [houtcome]
    exact hcontained hstate
  · rw [hshape.disposition, hinv.undecided hopen]
    nofun

/-- A handler ends the recovery: the node fails with the failure that opened the round. -/
theorem RecoveryRecorded.ended (hactive : rt.activeInvocation = some (.recoveryHandler round))
    (outcome : RecoveryHandlerOutcome StepFailureCause) (hlawful : outcome.Lawful)
    {failure : ProvisionalTargetFailure StepFailureCause}
    (hfailure : rt.latestFailure = some failure) {disposition : RecoveryTerminalDisposition}
    (hends : ∀ recovery : StepRecoveryState StepFailureCause, EndsIn
      (((rt.noteOutcome round outcome).noteDisposition disposition).settled
        (.failed failure.detail)) recovery round → recovery.LastOutcome (· = outcome) →
      Ends (((rt.noteOutcome round outcome).noteDisposition disposition).settled
        (.failed failure.detail)) recovery disposition) :
    RecoveryRecorded (((rt.noteOutcome round outcome).noteDisposition disposition).settled
      (.failed failure.detail)) := by
  refine ⟨h.paired, fun recovery' heq => ?_⟩
  obtain ⟨recovery₁, hnoted, rfl⟩ := editRecovery_eq heq
  obtain ⟨recovery, hbefore, -⟩ := editRecovery_eq hnoted
  have hinv := hrt.recovery recovery hbefore
  obtain ⟨recovery'', heq', hrounds, hshape, hlast⟩ :=
    (h.exact recovery hbefore).rounds.noted hinv hbefore hactive hlawful
  obtain rfl : recovery'' = recovery₁ := Option.some.inj (heq'.symm.trans hnoted)
  refine ⟨⟨hrounds.detailed, hrounds.kinds, hrounds.reported⟩, nofun, ?_⟩
  rintro _ ⟨⟩
  refine hends _ ⟨?_, ?_, ?_⟩ hlast
  · exact (hinv.handler round hactive).2.1.trans hshape.length.symm
  · exact (hinv.handler round hactive).1
  · -- the failure that opened the last round is still there
    have hkept := hshape.failure
    rw [← lastRound_eq hbefore] at hkept
    rw [show rt.lastRound.map RecoveryRoundRecord.failedExecution = some failure from hfailure]
      at hkept
    obtain ⟨record, hrecord, rfl⟩ := Option.map_eq_some_iff.mp hkept
    exact ⟨record, hrecord, rfl⟩

/-- A contained node has come to rest. -/
theorem RecoveryRecorded.cancelled
    (hstate : rt.state.kind = .cancelling) {active : ActiveStepInvocation}
    (hactive : rt.activeInvocation = some active) (detail : CancellationDetail) :
    RecoveryRecorded ((rt.noteCancelled active).settled (.cancelled detail)) := by
  have hopen : rt.state.isTerminal = false := by
    cases hrt : rt.state <;> rw [hrt] at hstate <;> first | rfl | cases hstate
  have hsame : rt.SameHistory ((rt.noteCancelled active).settled (.cancelled detail)) :=
    (StepRuntimeState.noteCancelled_sameHistory active).settled _
  refine ⟨by rw [hsame.execution, hsame.invocation]; exact h.paired, fun recovery' heq => ?_⟩
  rw [settled_recovery, StepRuntimeState.noteCancelled] at heq
  cases hlast : rt.lastRound with
  | none =>
    rw [hlast] at heq
    refine ⟨(h.exact recovery' heq).rounds, by rintro ⟨⟩, ?_⟩
    simp [(hrt.recovery recovery' heq).undecided hopen]
  | some =>
    rw [hlast] at heq
    obtain ⟨recovery, hrecovery, rfl⟩ := editRecovery_eq heq
    have hinv := hrt.recovery recovery hrecovery
    have hexact := h.exact recovery hrecovery
    rw [lastRound_eq hrecovery] at hlast
    have hnumber := (hinv.aligned.last hlast).1
    refine ⟨⟨hexact.rounds.detailed, hexact.rounds.kinds, hexact.rounds.reported⟩, by rintro ⟨⟩, ?_⟩
    rintro _ ⟨⟩
    cases active with
    | target n =>
      obtain ⟨hexecution, hn, hrechecked⟩ := hinv.target n hactive
      exact ⟨hnumber, hn, hsame.execution.trans hexecution, hrechecked⟩
    | recoveryHandler round =>
      obtain ⟨hexecution, hround, -⟩ := hinv.handler round hactive
      exact ⟨hnumber, hround, hround ▸ hsame.execution.trans hexecution,
        hexact.contained hstate round hactive⟩

end

variable {o : Option (Occurrence O StepFailureCause V D)}
  {occurrence : Occurrence O StepFailureCause V D} {s : RuntimeState StepFailureCause V D}
  {moves : List (StepStateKind × StepStateKind)} {starts : List (ActionId × ActiveStepInvocation)}

/-- A target that fails for good has used up the configured rounds. -/
theorem openRound_none (hrt : NodeBookkeeping d rt) (h : RecoveryRecorded rt)
    (htarget : rt.RunsTarget) (hrecovery : rt.recovery = some recovery)
    (hnone : openRound rt phase detail cause = none) :
    recovery.rounds.length = recovery.configuredRounds := by
  obtain ⟨n, hn, hexecution, -⟩ := hrt.executes htarget hrecovery
  obtain ⟨invocation, hinvocation⟩ := Option.isSome_iff_exists.mp (h.paired (by
    rw [hexecution]; rfl))
  have hbounded := (hrt.recovery recovery hrecovery).aligned.bounded
  refine le_antisymm hbounded (le_of_not_gt fun hlt => ?_)
  have hbyte := (hrt.policy recovery hrecovery).2
  simp [openRound, hexecution, hinvocation, hrecovery, hn, not_le.mpr hlt,
    not_le.mpr (hlt.trans hbyte)] at hnone

/-- An occurrence keeps the record of the node that it is about exact. -/
theorem OccurrenceMove.recorded (h : OccurrenceMove occurrence s id d rt rt' starts)
    (hlawful : occurrence.Lawful) (hrole : d.recovery.isSome = true → d.role = .step)
    (hrt : NodeBookkeeping d rt) (hrec : RecoveryRecorded rt) : RecoveryRecorded rt' := by
  cases h with
  | run _ _ _ hstate | capture _ _ _ _ hstate =>
    exact hrec.goes hrt (by rw [hstate]; rfl) rfl hrec.paired (by rintro ⟨⟩)
  | succeed _ _ _ _ hstate =>
    exact hrec.executed hrt (Or.inr (Or.inr hstate)) (fun recovery n _ hexecutes =>
      hexecutes.noted .recovered _)
  | retry n hfails hopen hkind =>
    exact hrec.retried hrt (unsettled (Or.inl hfails.runsTarget))
      hopen hfails.detailed hkind _ n
  | recover _ hfails hopen hkind =>
    exact hrec.recovers hrt (unsettled (Or.inl hfails.runsTarget))
      hopen hfails.detailed hkind _
  | exhaust rt₁ hfails hopened =>
    obtain ⟨rfl, hnone⟩ : rt₁ = rt ∧ _ := by
      refine hopened.resolve_right ?_
      rintro ⟨recovery, record, hopen, hnext, -⟩
      obtain ⟨invocation, -, -, hrecovery, hleft, rfl⟩ := openRound_eq hopen
      rw [TargetExecutionNumber.next,
        if_pos (Nat.lt_of_le_of_lt hleft (hrt.policy _ hrecovery).2)] at hnext
      cases hnext
    have htarget := hfails.runsTarget
    split_ifs with hpolicy
    · refine hrec.executed hrt htarget (fun recovery n hrecovery hexecutes =>
        ⟨hexecutes.noted .exhausted _, ?_⟩)
      have hused := openRound_none hrt hrec htarget hrecovery (hnone (hrole hpolicy))
      exact hused
    · exact hrec.goes hrt (unsettled (Or.inl htarget)) rfl
        hrec.paired (by rintro ⟨⟩)
  | handlerRunning _ _ _ _ hactive hstate =>
    exact hrec.noted hrt (by rw [hstate]; rfl) hactive .running trivial rfl hrec.paired
      (by rintro ⟨⟩)
  | recheck _ _ _ decision ho _ _ hactive hstate =>
    subst ho
    exact hrec.noted hrt (by rw [hstate]; rfl) hactive
      (.recheck decision.summary decision.reason) hlawful rfl (fun _ => rfl) (by rintro ⟨⟩)
  | gaveUp _ _ decision _ ho _ _ hactive _ hfailure =>
    subst ho
    refine hrec.ended hrt hactive (.gaveUp decision.summary decision.reason) hlawful hfailure
      (fun recovery hends hlast => ⟨hends, ?_⟩)
    obtain ⟨record, handler, hrecord, hhandler, houtcome⟩ := hlast
    exact ⟨record, handler, hrecord, hhandler, _, _, houtcome⟩
  | @handlerFailed _ _ _ phase cause _ ho _ hactive _ hfailure =>
    have hcause : (RecoveryHandlerOutcome.failed phase cause).Lawful := by
      cases occurrence <;> cases ho <;> exact hlawful
    refine hrec.ended hrt hactive (.failed phase cause) hcause hfailure
      (fun recovery hends hlast => ⟨hends, ?_⟩)
    obtain ⟨record, handler, hrecord, hhandler, houtcome⟩ := hlast
    exact ⟨record, handler, hrecord, hhandler, _, houtcome⟩
  | quiesce _ _ _ _ hstate _ hactive =>
    exact hrec.cancelled hrt (by rw [hstate]; rfl) hactive _

/-- A reduction keeps the record of a node exact. -/
theorem NodeReduction.recorded (h : NodeReduction o s id d rt rt' moves starts)
    (hlawful : ∀ occurrence ∈ o, occurrence.Lawful)
    (hrole : d.recovery.isSome = true → d.role = .step) (hrt : NodeBookkeeping d rt)
    (hrec : RecoveryRecorded rt) : RecoveryRecorded rt' := by
  cases h with
  | still passed hpassed =>
    by_cases hsame : passed = rt.conditionPassed
    · subst hsame
      exact hrec
    · exact hrec.goes hrt (by rw [hpassed hsame]; rfl) rfl hrec.paired
        (fun hstate _ hactive => ⟨hstate, hactive⟩)
  | lost _ hstate hlost => exact absurd hlost (hrt.not_lost hstate)
  | begun _ hpending hbegins =>
    have hopen : rt.state.isTerminal = false := by rw [hpending]; rfl
    have hnone := (hrt.invocation.pending hpending).1
    cases hbegins with
    | start => exact hrec.goes hrt hopen rfl (fun _ => rfl) nofun
    | drop =>
      refine hrec.goes hrt hopen rfl hrec.paired (fun _ round hactive => ?_)
      cases hnone.symm.trans hactive
    | fail => exact hrec.goes hrt hopen rfl hrec.paired nofun
  | dropped _ hpending =>
    exact hrec.goes hrt (by rw [hpending]; rfl) rfl hrec.paired nofun
  | contained _ active _ hstate hactive =>
    have hopen := unsettled hstate
    cases active with
    | target =>
      refine hrec.goes hrt hopen rfl hrec.paired (fun _ round hround => ?_)
      cases hactive.symm.trans hround
    | recoveryHandler =>
      exact hrec.noted hrt hopen hactive .cancelled trivial rfl hrec.paired (fun _ => rfl)
  | recontained _ _ hstate =>
    exact hrec.goes hrt (by rw [hstate]; rfl) rfl hrec.paired
      (fun hstate _ hactive => ⟨hstate, hactive⟩)
  | moved ho hmove => exact hmove.recorded (hlawful _ ho) hrole hrt hrec
  | completed hstate =>
    exact hrec.executed hrt (Or.inr (Or.inl hstate)) (fun recovery n _ hexecutes =>
      hexecutes.noted .recovered _)

variable [ConditionOutput V] [ProvisionalStepResources O] {start : ExecutionStart D}
  {seed : ExecutionSeed V} {occurrences : List (Occurrence O StepFailureCause V D)}

/-- The record of a node is exact in every run. -/
theorem ledger_recorded (hcoherent : start.definition.Coherent)
    (hd : start.definition.steps.get? id = some d)
    (hretries : ∀ policy ∈ d.recovery, policy.retries ≤ 10)
    (hrole : d.recovery.isSome = true → d.role = .step)
    (hlawful : ∀ occurrence ∈ occurrences, occurrence.Lawful)
    (hrt : (ledger start seed occurrences).state.steps.get? id = some rt) :
    NodeBookkeeping d rt ∧ RecoveryRecorded rt := by
  refine ledger_kept (P := fun _ _ rt => RecoveryRecorded rt) hcoherent hd hretries ?_ ?_ hrt
  · unfold initialStep
    cases seed.steps.get? id with
    | some =>
      refine ⟨fun h => absurd h Bool.false_ne_true, fun recovery heq => ?_⟩
      cases heq
    | none =>
      refine ⟨fun h => absurd h Bool.false_ne_true, fun recovery heq => ?_⟩
      obtain ⟨policy, -, rfl⟩ := Option.map_eq_some_iff.mp heq
      refine ⟨⟨?_, ?_, ?_⟩, fun hstate => StepStateKind.noConfusion hstate, ?_⟩
      · exact fun record hmem => absurd hmem List.not_mem_nil
      · exact fun record hmem => absurd hmem List.not_mem_nil
      · exact fun record hmem => absurd hmem List.not_mem_nil
      · exact fun disposition hmem => absurd hmem (Option.not_mem_none _)
  · intro o s rt rt' _ _ moves' starts' hmem hbook hrec hview
    exact hview.recorded (fun occurrence ho => hlawful occurrence (hmem occurrence ho)) hrole
      hbook hrec

end ScherzoCloud.Workflow
