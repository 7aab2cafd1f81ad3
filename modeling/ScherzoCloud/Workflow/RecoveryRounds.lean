import ScherzoCloud.Workflow.CancellationContainment

/-!
# Recovery rounds

The reducer counts the rounds of a recovery and the executions of its target
apart from each other, and opens a round only while the two agree.  The record
of a node is followed through every change (`RecoveryInvariant`), together with
the invocation that the node currently has (`InvocationMatches`).
-/

namespace ScherzoCloud.Workflow

open StepRuntimeState.RunsTarget (unsettled)
open Collections
open TargetExecutionNumber (next)
open StepRuntimeState (lastRound latestFailure activatedExecution)
open StepRuntimeState (settled_recovery noteExecution noteCancelled)

variable {O C V D : Type} {recovery : StepRecoveryState C} {record : RecoveryRoundRecord C}
  {rt rt' : StepRuntimeState C V} {state : StepState V} {o : Option (Occurrence O C V D)}
  {m : Emission O C V D} {s : RuntimeState C V D} {id : String} {d : RuntimeStep}
  {actions : List (RequestedAction O C V D)} {n : TargetExecutionNumber}
  {round : RecoveryRoundNumber}

/-- The handler of a round asked for another execution. -/
def RecoveryRoundRecord.Rechecked (record : RecoveryRoundRecord C) : Prop :=
  ∃ handler summary reason, record.handler = some handler ∧
    handler.outcome = .recheck summary reason

/-- The rounds are numbered along with the executions whose failures opened them, and every
round but the last one has ended with another execution. -/
structure StepRecoveryState.Aligned (recovery : StepRecoveryState C) : Prop where
  bounded : recovery.rounds.length ≤ recovery.configuredRounds
  numbers : recovery.rounds.map RecoveryRoundRecord.number = List.range' 1 recovery.rounds.length
  executions : recovery.rounds.map (fun record => record.failedExecution.executionNumber) =
    List.range' 1 recovery.rounds.length
  earlier : recovery.handlerKind.isSome = true →
    ∀ record ∈ recovery.rounds.dropLast, record.Rechecked

theorem StepRecoveryState.Aligned.last (h : recovery.Aligned)
    (hlast : recovery.rounds.getLast? = some record) : record.number = recovery.rounds.length ∧
      record.failedExecution.executionNumber = recovery.rounds.length := by
  have hne : recovery.rounds ≠ [] := by
    rintro hnil
    simp [hnil] at hlast
  have hpos := List.length_pos_iff.mpr hne
  have hend : (List.range' 1 recovery.rounds.length).getLast? = some recovery.rounds.length := by
    rw [List.getLast?_range', if_neg (by omega)]
    simp only [Option.some.injEq]
    omega
  constructor
  · have hnumber := congrArg List.getLast? h.numbers
    rw [List.getLast?_map, hlast, hend, Option.map_some] at hnumber
    exact Option.some.inj hnumber
  · have hexecution := congrArg List.getLast? h.executions
    rw [List.getLast?_map, hlast, hend, Option.map_some] at hexecution
    exact Option.some.inj hexecution

/-- The rounds after the last one was updated. -/
theorem modifyLastRound_rounds (f : RecoveryRoundRecord C → RecoveryRoundRecord C)
    (hlast : recovery.rounds.getLast? = some record) :
    (modifyLastRound f recovery).rounds = recovery.rounds.dropLast ++ [f record] := by
  simp only [modifyLastRound, hlast]

theorem modifyLastRound_disposition (f : RecoveryRoundRecord C → RecoveryRoundRecord C)
    (recovery : StepRecoveryState C) :
    (modifyLastRound f recovery).terminalDisposition = recovery.terminalDisposition := by
  unfold modifyLastRound
  split <;> rfl

/-- Updating the last round keeps what it does not change. -/
theorem StepRecoveryState.Aligned.modifyLast {f : RecoveryRoundRecord C → RecoveryRoundRecord C}
    (hf : ∀ record, (f record).number = record.number ∧
      (f record).failedExecution = record.failedExecution)
    (h : recovery.Aligned) : (modifyLastRound f recovery).Aligned := by
  obtain ⟨hconfigured, hkind, hlength⟩ := modifyLastRound_keeps f recovery
  cases hlast : recovery.rounds.getLast? with
  | none =>
    have hsame : modifyLastRound f recovery = recovery := by simp only [modifyLastRound, hlast]
    rw [hsame]
    exact h
  | some record =>
    have hrounds := modifyLastRound_rounds f hlast
    have hsplit : recovery.rounds = recovery.rounds.dropLast ++ [record] :=
      (List.dropLast_append_getLast? record hlast).symm
    refine ⟨?_, ?_, ?_, ?_⟩
    · rw [hlength, hconfigured]
      exact h.bounded
    · rw [hlength, ← h.numbers, hrounds]
      conv_rhs => rw [hsplit]
      rw [List.map_append, List.map_append, List.map_singleton, List.map_singleton, (hf record).1]
    · rw [hlength, ← h.executions, hrounds]
      conv_rhs => rw [hsplit]
      rw [List.map_append, List.map_append, List.map_singleton, List.map_singleton, (hf record).2]
    · rw [hkind, hrounds, List.dropLast_concat]
      exact h.earlier

/-- A round is opened for the next execution. -/
theorem StepRecoveryState.Aligned.push (h : recovery.Aligned)
    (hleft : recovery.rounds.length < recovery.configuredRounds)
    (hnumber : record.number = recovery.rounds.length + 1)
    (hexecution : record.failedExecution.executionNumber = recovery.rounds.length + 1)
    (hrechecked : recovery.handlerKind.isSome = true →
      ∀ record ∈ recovery.rounds, record.Rechecked) :
    StepRecoveryState.Aligned { recovery with rounds := recovery.rounds ++ [record] } := by
  refine ⟨?_, ?_, ?_, ?_⟩
  · rw [List.length_append, List.length_singleton]
    exact hleft
  · rw [List.map_append, h.numbers, List.map_singleton, hnumber, List.length_append,
      List.length_singleton, List.range'_1_concat, Nat.add_comm 1]
  · rw [List.map_append, h.executions, List.map_singleton, hexecution, List.length_append,
      List.length_singleton, List.range'_1_concat, Nat.add_comm 1]
  · rw [List.dropLast_concat]
    exact hrechecked

section Invariants

/-- The disposition of a recovery goes with the state in which its node settled. -/
def dispositionAgrees : StepState V → RecoveryTerminalDisposition → Bool
  | .succeeded _, .recovered _ => true
  | .failed _, .exhausted _ => true
  | .failed _, .gaveUp _ => true
  | .failed _, .handlerFailed _ _ => true
  | .cancelled _, .cancelled _ _ => true
  | _, _ => false

/-- The invocation of a node goes with its state. -/
structure InvocationMatches (rt : StepRuntimeState C V) : Prop where
  pending : rt.state = .pending → rt.activeInvocation = none ∧ rt.targetExecution = none
  target : rt.RunsTarget → ∃ n, rt.activeInvocation = some (.target n)
  handler : ∀ round activity, rt.state = .recovering round activity →
    rt.activeInvocation = some (.recoveryHandler round)
  settled : rt.state.isTerminal = true → rt.activeInvocation = none

/-- The bookkeeping of a recovery: an active target is in the execution after the last round,
an active handler in the last round, and the recovery is decided when its node is settled. -/
structure RecoveryInvariant (rt : StepRuntimeState C V)
    (recovery : StepRecoveryState C) : Prop where
  aligned : recovery.Aligned
  execution : ∀ n, rt.targetExecution = some n → n ≤ recovery.rounds.length + 1
  pending : rt.state = .pending → recovery.rounds = []
  target : ∀ n, rt.activeInvocation = some (.target n) → rt.targetExecution = some n ∧
    n = recovery.rounds.length + 1 ∧
    (recovery.handlerKind.isSome = true → ∀ record ∈ recovery.rounds, record.Rechecked)
  handler : ∀ n, rt.activeInvocation = some (.recoveryHandler n) →
    rt.targetExecution = some n ∧ n = recovery.rounds.length ∧
    ∃ record, recovery.rounds.getLast? = some record ∧ record.handler.isSome = true
  undecided : rt.state.isTerminal = false → recovery.terminalDisposition = none
  decided : rt.state.isTerminal = true →
    (recovery.terminalDisposition.isSome = true ↔ recovery.rounds ≠ [])
  agrees : ∀ disposition ∈ recovery.terminalDisposition,
    dispositionAgrees rt.state disposition = true

/-- The bookkeeping of a node, if it can recover at all. -/
def RecoveryHolds (rt : StepRuntimeState C V) : Prop :=
  ∀ recovery, rt.recovery = some recovery → RecoveryInvariant rt recovery

theorem StepRuntimeState.SameButRecovery.invocationMatches (h : rt.SameButRecovery rt')
    (hrt : InvocationMatches rt) : InvocationMatches rt' := by
  rw [h]
  exact ⟨hrt.pending, hrt.target, hrt.handler, hrt.settled⟩

theorem InvocationMatches.ofSettled (h : state.isTerminal = true) :
    InvocationMatches (rt.settled state) := by
  refine ⟨?_, ?_, ?_, fun _ => rfl⟩
  · rintro rfl
    cases h
  · rintro (rfl | rfl | rfl) <;> cases h
  · rintro round activity rfl
    cases h

theorem InvocationMatches.ofDropped (hrt : InvocationMatches rt) (hpending : rt.state = .pending)
    (h : state.isTerminal = true) : InvocationMatches (rt.dropped state) := by
  refine ⟨?_, ?_, ?_, fun _ => (hrt.pending hpending).1⟩
  · rintro rfl
    cases h
  · rintro (rfl | rfl | rfl) <;> cases h
  · rintro round activity rfl
    cases h

variable [ConditionOutput V]

theorem NodeMove.invocationMatches (h : NodeMove o s id d rt rt' actions)
    (hrt : InvocationMatches rt) : InvocationMatches rt' := by
  cases h with
  | start | retry | recheck => exact ⟨nofun, fun _ => ⟨_, rfl⟩, nofun, nofun⟩
  | run hstate => exact ⟨nofun, fun _ => hrt.target (Or.inl hstate), nofun, nofun⟩
  | capture _ hstate => exact ⟨nofun, fun _ => hrt.target (Or.inr (Or.inl hstate)), nofun, nofun⟩
  | succeed | quiesce => exact .ofSettled rfl
  | recover =>
    refine ⟨nofun, ?_, ?_, nofun⟩
    · rintro (h | h | h) <;> cases h
    · intro round activity h
      cases h
      rfl
  | handlerRunning round hstate =>
    refine ⟨nofun, ?_, ?_, nofun⟩
    · rintro (h | h | h) <;> cases h
    · intro round activity h
      cases h
      exact hrt.handler round .starting hstate
  | skip _ _ _ _ hpending | failureStop hpending | notSelected _ hpending
  | forcedCancel hpending => exact hrt.ofDropped hpending rfl

theorem NodeChange.invocationMatches (h : NodeChange o s m id d rt rt')
    (hrt : InvocationMatches rt) : InvocationMatches rt' := by
  cases h with
  | same => exact hrt
  | move h => exact h.invocationMatches hrt
  | complete => exact .ofSettled rfl
  | issue h =>
    cases h with
    | fail | conditionFailed => exact .ofSettled rfl
    | blockOrdinary _ hpending | blockCondition _ hpending | blockInput _ hpending =>
      exact hrt.ofDropped hpending rfl
  | note h => exact h.1.invocationMatches hrt
  | passed => exact ⟨hrt.pending, hrt.target, hrt.handler, hrt.settled⟩
  | contained h =>
    cases h with
    | drop hpending => exact hrt.ofDropped hpending rfl
    | contain =>
      refine ⟨nofun, ?_, nofun, nofun⟩
      rintro (h | h | h) <;> cases h
    | escalate => exact ⟨hrt.pending, hrt.target, hrt.handler, hrt.settled⟩
    | pass => exact hrt

end Invariants

theorem StepRuntimeState.lastRound_eq (hrecovery : rt.recovery = some recovery) :
    rt.lastRound = recovery.rounds.getLast? := by
  rw [lastRound, hrecovery, Option.bind_some]

theorem StepRuntimeState.editRecovery_eq {f : StepRecoveryState C → StepRecoveryState C}
    {recovery' : StepRecoveryState C} (h : (rt.editRecovery f).recovery = some recovery') :
    ∃ recovery, rt.recovery = some recovery ∧ recovery' = f recovery := by
  obtain ⟨recovery, hrecovery, heq⟩ := Option.map_eq_some_iff.mp h
  exact ⟨recovery, hrecovery, heq.symm⟩

open StepRuntimeState (editRecovery_eq lastRound_eq)
/-- A node that goes on with the same record in the same invocation. -/
theorem RecoveryHolds.continues (hrt : RecoveryHolds rt) (hopen : rt.state.isTerminal = false)
    (hopen' : rt'.state.isTerminal = false) (hpending : rt'.state = .pending → rt.state = .pending)
    (hrecovery : rt'.recovery = rt.recovery) (hexecution : rt'.targetExecution = rt.targetExecution)
    (hactive : rt'.activeInvocation = rt.activeInvocation) : RecoveryHolds rt' := by
  intro recovery h
  have hinv := hrt recovery (hrecovery ▸ h)
  refine ⟨hinv.aligned, ?_, fun h => hinv.pending (hpending h), ?_, ?_,
    fun _ => hinv.undecided hopen, ?_, ?_⟩
  · rw [hexecution]
    exact hinv.execution
  · rw [hexecution, hactive]
    exact hinv.target
  · rw [hexecution, hactive]
    exact hinv.handler
  · rw [hopen']
    nofun
  · rw [hinv.undecided hopen]
    nofun

/-- A node that settles with a decided record. -/
theorem RecoveryInvariant.settles (haligned : recovery.Aligned)
    (hterminal : rt'.state.isTerminal = true) (hactive : rt'.activeInvocation = none)
    (hexecution : ∀ n, rt'.targetExecution = some n → n ≤ recovery.rounds.length + 1)
    (hdecided : recovery.terminalDisposition.isSome = true ↔ recovery.rounds ≠ [])
    (hagrees : ∀ disposition ∈ recovery.terminalDisposition,
      dispositionAgrees rt'.state disposition = true) : RecoveryInvariant rt' recovery := by
  refine ⟨haligned, hexecution, ?_, ?_, ?_, ?_, fun _ => hdecided, hagrees⟩
  · intro hpending
    rw [hpending] at hterminal
    cases hterminal
  · rw [hactive]
    nofun
  · rw [hactive]
    nofun
  · rw [hterminal]
    nofun

/-- A node that settles before its first execution. -/
theorem RecoveryHolds.unstarted (hrt : RecoveryHolds rt) (hpending : rt.state = .pending)
    (hterminal : rt'.state.isTerminal = true) (hactive : rt'.activeInvocation = none)
    (hrecovery : rt'.recovery = rt.recovery)
    (hexecution : rt'.targetExecution = rt.targetExecution) : RecoveryHolds rt' := by
  intro recovery h
  have hinv := hrt recovery (hrecovery ▸ h)
  have hnone : recovery.terminalDisposition = none := hinv.undecided (by rw [hpending]; rfl)
  refine .settles hinv.aligned hterminal hactive ?_ ?_ ?_
  · rw [hexecution]
    exact hinv.execution
  · simp [hnone, hinv.pending hpending]
  · simp [hnone]

/-- A node that settles with its target. -/
theorem RecoveryHolds.executed (hrt : RecoveryHolds rt) (hmatch : InvocationMatches rt)
    (htarget : rt.RunsTarget) (hterminal : state.isTerminal = true)
    {disposition : TargetExecutionNumber → RecoveryTerminalDisposition}
    (hagrees : ∀ n, dispositionAgrees state (disposition n) = true) :
    RecoveryHolds ((rt.noteExecution disposition).settled state) := by
  obtain ⟨n, hactive⟩ := hmatch.target htarget
  intro recovery' h
  rw [settled_recovery] at h
  have hopen := unsettled (Or.inl htarget)
  have hexecution' : (rt.noteExecution disposition).targetExecution = rt.targetExecution := by
    rw [(rt.noteExecution_annotated disposition).1]
  unfold noteExecution activatedExecution at h
  cases hrecovery : rt.recovery with
  | none =>
    rw [show rt.lastRound = none by rw [lastRound, hrecovery]; rfl] at h
    rw [show (rt.recovery) = some recovery' from h] at hrecovery
    cases hrecovery
  | some recovery =>
    have hinv := hrt recovery hrecovery
    obtain ⟨hexecution, -, -⟩ := hinv.target n hactive
    rw [lastRound_eq hrecovery] at h
    have hbound : ∀ k, (rt.noteExecution disposition).targetExecution = some k →
        k ≤ recovery.rounds.length + 1 := by
      rw [hexecution']
      exact hinv.execution
    cases hlast : recovery.rounds.getLast? with
    | none =>
      rw [hlast, Option.bind_none] at h
      cases hrecovery.symm.trans h
      refine .settles hinv.aligned hterminal rfl hbound ?_ ?_
      · simp [hinv.undecided hopen, List.getLast?_eq_none_iff.mp hlast]
      · simp [hinv.undecided hopen]
    | some =>
      rw [hlast, Option.bind_some, hexecution] at h
      obtain ⟨recovery₁, hrecovery₁, rfl⟩ := editRecovery_eq h
      cases hrecovery.symm.trans hrecovery₁
      refine .settles ⟨hinv.aligned.1, hinv.aligned.2, hinv.aligned.3, hinv.aligned.4⟩
        hterminal rfl hbound ?_ ?_
      · have hne : recovery.rounds ≠ [] := by
          rintro hnil
          simp [hnil] at hlast
        simp [hne]
      · intro disposition' hmem
        cases hmem
        exact hagrees n

/-- Noting an outcome changes neither the numbers nor the earlier rounds. -/
theorem StepRecoveryState.Aligned.noteOutcome (haligned : recovery.Aligned)
    (round : RecoveryRoundNumber) (outcome : RecoveryHandlerOutcome C) :
    (modifyLastRound (RecoveryRoundRecord.noteOutcome round outcome) recovery).Aligned := by
  refine haligned.modifyLast (fun record => ?_)
  unfold RecoveryRoundRecord.noteOutcome
  split <;> exact ⟨rfl, rfl⟩

/-- The handler of the last round is still there when its outcome was noted. -/
theorem RecoveryInvariant.handler_noted {n : Nat} (hinv : RecoveryInvariant rt recovery)
    (hactive : rt.activeInvocation = some (.recoveryHandler n)) (round : RecoveryRoundNumber)
    (outcome : RecoveryHandlerOutcome C) : rt.targetExecution = some n ∧
      n = (modifyLastRound (RecoveryRoundRecord.noteOutcome round outcome) recovery).rounds.length ∧
      ∃ record, (modifyLastRound (RecoveryRoundRecord.noteOutcome round outcome)
        recovery).rounds.getLast? = some record ∧ record.handler.isSome = true := by
  obtain ⟨hexecution, hn, record, hlast, hsome⟩ := hinv.handler n hactive
  refine ⟨hexecution, ?_, record.noteOutcome round outcome, ?_, ?_⟩
  · rw [modifyLastRound_length]
    exact hn
  · rw [modifyLastRound_rounds _ hlast, List.getLast?_concat]
  · unfold RecoveryRoundRecord.noteOutcome
    split
    · rw [Option.isSome_map]
      exact hsome
    · exact hsome

section

variable (hrt : RecoveryHolds rt)
include hrt

/-- A target that failed opens a round and runs again. -/
theorem RecoveryHolds.retried (htarget : rt.RunsTarget)
    (hopens : rt.Opens recovery record) (hkind : recovery.handlerKind = none)
    (hnext : next record.failedExecution.executionNumber = some n)
    (action : ActionId) : RecoveryHolds ((rt.opened record).started action n) := by
  obtain ⟨hrecovery, hleft, hnumber, hexecution, htargeted⟩ := hopens.spec
  have hinv := hrt recovery hrecovery
  have hn : n = recovery.rounds.length + 2 := by
    rw [hexecution, next] at hnext
    split_ifs at hnext
    exact (Option.some.inj hnext).symm
  intro recovery' h
  obtain ⟨recovery₁, hrecovery₁, rfl⟩ := editRecovery_eq h
  cases hrecovery.symm.trans hrecovery₁
  have hundecided := hinv.undecided (unsettled (Or.inl htarget))
  refine ⟨hinv.aligned.push hleft hnumber hexecution ?_, ?_, nofun, ?_, nofun,
    fun _ => hundecided, nofun, ?_⟩
  · rw [hkind]
    nofun
  · intro k hk
    cases hk
    simp [hn]
  · intro k hk
    cases hk
    refine ⟨rfl, by simp [hn], ?_⟩
    rw [hkind]
    nofun
  · rw [hundecided]
    nofun

/-- A target that failed opens a round for its handler. -/
theorem RecoveryHolds.recovers (hmatch : InvocationMatches rt)
    (htarget : rt.RunsTarget) (hopens : rt.Opens recovery record) (action : ActionId)
    (kind : RecoveryHandlerKind) :
    RecoveryHolds ((rt.opened record).handlerStarted action record.number kind) := by
  obtain ⟨hrecovery, hleft, hnumber, hexecution, htargeted⟩ := hopens.spec
  have hinv := hrt recovery hrecovery
  obtain ⟨n, hactive⟩ := hmatch.target htarget
  have hundecided := hinv.undecided (unsettled (Or.inl htarget))
  intro recovery' h
  obtain ⟨recovery₁, hrecovery₁, rfl⟩ := editRecovery_eq h
  obtain ⟨recovery₂, hrecovery₂, rfl⟩ := editRecovery_eq hrecovery₁
  cases hrecovery.symm.trans hrecovery₂
  have hpushed := hinv.aligned.push hleft hnumber hexecution (hinv.target n hactive).2.2
  refine ⟨hpushed.modifyLast (fun _ => ⟨rfl, rfl⟩), ?_, nofun, nofun, ?_, fun _ => ?_, nofun, ?_⟩
  · intro k hk
    rw [modifyLastRound_length, List.length_append]
    exact (hinv.execution k hk).trans (Nat.add_le_add_right (Nat.le_add_right _ _) 1)
  · intro k hk
    cases hk
    refine ⟨hnumber ▸ htargeted, ?_, ?_⟩
    · rw [modifyLastRound_length, List.length_append, hnumber]
      rfl
    · refine ⟨{ record with handler := some ⟨kind, action, .starting⟩ }, ?_, rfl⟩
      rw [modifyLastRound_rounds _ (List.getLast?_concat ..), List.getLast?_concat]
  · rw [modifyLastRound_disposition]
    exact hundecided
  · rw [modifyLastRound_disposition, hundecided]
    nofun

/-- A handler asks for another execution. -/
theorem RecoveryHolds.rechecked (hmatch : InvocationMatches rt)
    (hstate : rt.state = .recovering round .running) (hnext : rt.latestFailure.bind (fun failure =>
      next failure.executionNumber) = some n) (summary reason : String) (action : ActionId) :
    RecoveryHolds ((rt.noteOutcome round (.recheck summary reason)).started action n) := by
  intro recovery' h
  obtain ⟨recovery, hrecovery, hrecovery'⟩ := editRecovery_eq h
  have hinv := hrt recovery hrecovery
  have hactive := hmatch.handler _ _ hstate
  obtain ⟨hexecution, hround, record, hlast, hsome⟩ := hinv.handler round hactive
  obtain ⟨handler, hhandler⟩ := Option.isSome_iff_exists.mp hsome
  have hundecided := hinv.undecided (by rw [hstate]; rfl)
  have hn : n = recovery.rounds.length + 1 := by
    rw [latestFailure, lastRound_eq hrecovery, hlast] at hnext
    simp only [Option.map_some, Option.bind_some, (hinv.aligned.last hlast).2,
      next] at hnext
    split_ifs at hnext
    exact (Option.some.inj hnext).symm
  have hrounds : recovery'.rounds = recovery.rounds.dropLast ++
      [{ record with handler := record.handler.map (fun handler =>
        { handler with outcome := .recheck summary reason }) }] := by
    rw [hrecovery', modifyLastRound_rounds _ hlast, RecoveryRoundRecord.noteOutcome,
      if_pos ((hinv.aligned.last hlast).1.trans hround.symm)]
  have hlength : recovery'.rounds.length = recovery.rounds.length := by
    rw [hrecovery', modifyLastRound_length]
  have hdisposition : recovery'.terminalDisposition = none := by
    rw [hrecovery', modifyLastRound_disposition, hundecided]
  refine ⟨hrecovery' ▸ hinv.aligned.noteOutcome round _, ?_, by rintro ⟨⟩, ?_, by rintro _ ⟨⟩,
    fun _ => hdisposition, by rintro ⟨⟩, ?_⟩
  · intro k hk
    cases hk
    rw [hlength, hn]
  · intro k hk
    cases hk
    refine ⟨rfl, by rw [hlength, hn], ?_⟩
    intro hkind record' hmem
    have hkind' : recovery.handlerKind.isSome = true := by
      rwa [hrecovery', (modifyLastRound_keeps _ recovery).2.1] at hkind
    rw [hrounds, List.mem_append, List.mem_singleton] at hmem
    rcases hmem with hmem | rfl
    · exact hinv.aligned.earlier hkind' record' hmem
    · exact ⟨{ handler with outcome := .recheck summary reason }, summary, reason,
        by simp [hhandler], rfl⟩
  · simp [hdisposition]

/-- A handler that goes on, or is contained, keeps its round. -/
theorem RecoveryHolds.noted (hactive : rt.activeInvocation = some (.recoveryHandler round))
    (hopen : rt.state.isTerminal = false) (outcome : RecoveryHandlerOutcome C) (next : StepState V)
    (hopen' : next.isTerminal = false) (hpending : next ≠ .pending) (action : Option ActionId) :
    RecoveryHolds { rt.noteOutcome round outcome with state := next, currentAction := action } := by
  intro recovery' h
  obtain ⟨recovery, hrecovery, rfl⟩ := editRecovery_eq h
  have hinv := hrt recovery hrecovery
  have hundecided := hinv.undecided hopen
  refine ⟨hinv.aligned.noteOutcome round outcome, ?_, fun h => absurd h hpending, ?_, ?_,
    fun _ => ?_, ?_, ?_⟩
  · rw [modifyLastRound_length]
    exact hinv.execution
  · intro n hn
    cases hactive.symm.trans hn
  · intro n hn
    exact hinv.handler_noted hn round outcome
  · rw [modifyLastRound_disposition]
    exact hundecided
  · intro hterminal
    cases hopen'.symm.trans hterminal
  · rw [modifyLastRound_disposition, hundecided]
    nofun

/-- A recovery that a handler brought to its end. -/
theorem RecoveryHolds.ended {activity : RecoveryHandlerActivity}
    (hmatch : InvocationMatches rt) (hstate : rt.state = .recovering round activity)
    (outcome : RecoveryHandlerOutcome C) {disposition : RecoveryTerminalDisposition}
    (hterminal : state.isTerminal = true) (hagrees : dispositionAgrees state disposition = true) :
    RecoveryHolds (((rt.noteOutcome round outcome).noteDisposition disposition).settled state) := by
  intro recovery' h
  obtain ⟨recovery₁, hrecovery₁, rfl⟩ := editRecovery_eq h
  obtain ⟨recovery, hrecovery, rfl⟩ := editRecovery_eq hrecovery₁
  have hinv := hrt recovery hrecovery
  obtain ⟨-, -, record, hlast, -⟩ :=
    hinv.handler_noted (hmatch.handler round activity hstate) round outcome
  have haligned := hinv.aligned.noteOutcome round outcome
  refine .settles ⟨haligned.1, haligned.2, haligned.3, haligned.4⟩ hterminal rfl ?_ ?_ ?_
  · show ∀ n, rt.targetExecution = some n → _
    rw [modifyLastRound_length]
    exact hinv.execution
  · simp only [Option.isSome_some, true_iff]
    rintro hnil
    rw [hnil] at hlast
    cases hlast
  · intro disposition' hmem
    cases hmem
    exact hagrees

/-- A recovery that was cancelled with its node. -/
theorem RecoveryHolds.cancelled (hopen : rt.state.isTerminal = false)
    (active : ActiveStepInvocation) (detail : CancellationDetail) :
    RecoveryHolds ((rt.noteCancelled active).settled (.cancelled detail)) := by
  intro recovery' h
  rw [settled_recovery] at h
  have hexecution : (rt.noteCancelled active).targetExecution = rt.targetExecution := by
    rw [(rt.noteCancelled_annotated active).1]
  cases hlast : rt.lastRound with
  | none =>
    have hsame : rt.noteCancelled active = rt := by simp only [noteCancelled, hlast]
    rw [hsame] at h ⊢
    have hinv := hrt recovery' h
    rw [lastRound_eq h] at hlast
    refine .settles hinv.aligned rfl rfl hinv.execution ?_ ?_
    · simp [hinv.undecided hopen, List.getLast?_eq_none_iff.mp hlast]
    · simp [hinv.undecided hopen]
  | some record =>
    have hnoted : rt.noteCancelled active =
        rt.noteDisposition (.cancelled record.number active) := by
      simp only [noteCancelled, hlast]
    rw [hnoted] at h ⊢
    obtain ⟨recovery, hrecovery, rfl⟩ := editRecovery_eq h
    have hinv := hrt recovery hrecovery
    rw [lastRound_eq hrecovery] at hlast
    refine .settles ⟨hinv.aligned.1, hinv.aligned.2, hinv.aligned.3, hinv.aligned.4⟩ rfl rfl
      hinv.execution ?_ ?_
    · simp only [Option.isSome_some, true_iff]
      rintro hnil
      rw [hnil] at hlast
      cases hlast
    · intro disposition hmem
      cases hmem
      rfl

end

/-- With fewer rounds than execution numbers there is always a next execution. -/
theorem RecoveryInvariant.next_isSome (hinv : RecoveryInvariant rt recovery)
    (hbound : recovery.configuredRounds < 255) (hlast : recovery.rounds.getLast? = some record) :
    next record.failedExecution.executionNumber ≠ none := by
  rw [(hinv.aligned.last hlast).2, next,
    if_pos (hinv.aligned.bounded.trans_lt hbound)]
  exact Option.some_ne_none _

/-- A round is not opened in vain: the execution that opened it has a next one. -/
theorem StepRuntimeState.eq_of_not_openedInVain {rt₁ : StepRuntimeState C V}
    (hbound : ∀ recovery, rt.recovery = some recovery → recovery.configuredRounds < 255)
    (hopened : rt₁ = rt ∨ ∃ recovery record, rt.Opens recovery record ∧
      next record.failedExecution.executionNumber = none ∧ rt₁ = rt.opened record) : rt₁ = rt := by
  rcases hopened with rfl | ⟨recovery, record, hopens, hnext, -⟩
  · rfl
  · obtain ⟨hrecovery, hleft, -, hexecution, -⟩ := hopens.spec
    rw [hexecution, next,
      if_pos (Nat.lt_of_le_of_lt hleft (hbound recovery hrecovery))] at hnext
    cases hnext

section Changes

variable [ConditionOutput V]

theorem NodeMove.recoveryHolds (h : NodeMove o s id d rt rt' actions)
    (hmatch : InvocationMatches rt) (hrt : RecoveryHolds rt) : RecoveryHolds rt' := by
  cases h with
  | start _ hpending =>
    intro recovery h
    have hinv := hrt recovery h
    have hrounds := hinv.pending hpending
    have hundecided := hinv.undecided (by rw [hpending]; rfl)
    refine ⟨hinv.aligned, ?_, by rintro ⟨⟩, ?_, by rintro _ ⟨⟩, fun _ => hundecided,
      by rintro ⟨⟩, ?_⟩
    · intro n hn
      cases hn
      simp
    · intro n hn
      cases hn
      simp [hrounds, StepRuntimeState.started]
    · simp [hundecided]
  | retry _ _ htarget hopens hkind hnext =>
    exact hrt.retried htarget hopens hkind hnext s.actionId
  | recheck _ _ summary reason hstate hnext =>
    exact hrt.rechecked hmatch hstate hnext summary reason s.actionId
  | run hstate | capture _ hstate => 
    exact hrt.continues (by rw [hstate]; rfl) rfl (by simp) rfl rfl rfl
  | succeed _ _ hstate =>
    exact hrt.executed hmatch (Or.inr (Or.inr hstate)) rfl (fun _ => rfl)
  | recover kind _ htarget hopens =>
    exact hrt.recovers hmatch htarget hopens s.actionId kind
  | handlerRunning round hstate =>
    exact hrt.noted (hmatch.handler _ _ hstate) (by rw [hstate]; rfl) .running
      (.recovering round .running) rfl (by simp) rt.currentAction
  | skip _ _ _ _ hpending | failureStop hpending | notSelected _ hpending
  | forcedCancel hpending => exact hrt.unstarted hpending rfl (hmatch.pending hpending).1 rfl rfl
  | quiesce _ _ active hstate => exact hrt.cancelled (by rw [hstate]; rfl) active _

theorem IssueMove.recoveryHolds {issue : PrimaryIssue} (h : IssueMove s id d rt rt' issue)
    (hmatch : InvocationMatches rt) (hpolicy : ∀ recovery, rt.recovery = some recovery →
      d.recovery.isSome = true ∧ recovery.configuredRounds < 255)
    (hrt : RecoveryHolds rt) : RecoveryHolds rt' := by
  cases h with
  | fail _ _ hfinal =>
    cases hfinal with
    | target _ rt₀ htarget hopened =>
      obtain rfl : rt₀ = rt := StepRuntimeState.eq_of_not_openedInVain
        (fun recovery h => (hpolicy recovery h).2) hopened
      cases hrecovery : rt₀.recovery with
      | none =>
        intro recovery h
        have hsame : (rt₀.noteExecution .exhausted).recovery = none := by
          unfold noteExecution activatedExecution lastRound
          simp [hrecovery]
        split_ifs at h
        · exact nomatch hsame.symm.trans h
        · exact nomatch hrecovery.symm.trans h
      | some recovery =>
        rw [if_pos (hpolicy recovery hrecovery).1]
        exact hrt.executed hmatch htarget rfl (fun _ => rfl)
    | gaveUp _ _ _ _ hstate | handlerFailed _ _ _ _ _ hstate =>
      exact hrt.ended hmatch hstate _ rfl rfl
  | conditionFailed _ _ _ _ _ hpending => exact hrt.unstarted hpending rfl rfl rfl rfl
  | blockOrdinary _ hpending | blockCondition _ hpending | blockInput _ hpending =>
    exact hrt.unstarted hpending rfl (hmatch.pending hpending).1 rfl rfl

/-- Every change of a node keeps its bookkeeping. -/
theorem NodeChange.recoveryHolds (h : NodeChange o s m id d rt rt') (hmatch : InvocationMatches rt)
    (hpolicy : ∀ recovery, rt.recovery = some recovery →
      d.recovery.isSome = true ∧ recovery.configuredRounds < 255)
    (hrt : RecoveryHolds rt) : RecoveryHolds rt' := by
  cases h with
  | same => exact hrt
  | move h => exact h.recoveryHolds hmatch hrt
  | complete hstate => exact hrt.executed hmatch (Or.inr (Or.inl hstate)) rfl (fun _ => rfl)
  | issue h => exact h.recoveryHolds hmatch hpolicy hrt
  | note h hstate hlost =>
    intro recovery' hrecovery'
    obtain ⟨round, activity, hstate⟩ := hstate
    obtain ⟨recovery, hrecovery⟩ : ∃ recovery, rt.recovery = some recovery := by
      have hkept := h.2
      rw [hrecovery', Option.map_some] at hkept
      obtain ⟨recovery, hrecovery, -⟩ := Option.map_eq_some_iff.mp hkept.symm
      exact ⟨recovery, hrecovery⟩
    -- the last round of an active handler has a failure, and that has a next execution
    have hinv := hrt recovery hrecovery
    obtain ⟨-, -, record, hlast, -⟩ := hinv.handler round (hmatch.handler round activity hstate)
    rw [latestFailure, lastRound_eq hrecovery, hlast] at hlost
    exact absurd hlost (hinv.next_isSome (hpolicy recovery hrecovery).2 hlast)
  | passed hpending =>
    exact hrt.continues (by rw [hpending]; rfl) (by rw [hpending]; rfl) (fun h => h) rfl rfl rfl
  | contained h =>
    cases h with
    | drop hpending => exact hrt.unstarted hpending rfl (hmatch.pending hpending).1 rfl rfl
    | contain _ active hstate hactive =>
      have hopen := unsettled hstate
      cases active with
      | target => exact hrt.continues hopen rfl nofun rfl rfl rfl
      | recoveryHandler =>
        exact hrt.noted hactive hopen .cancelled (.cancelling _) rfl nofun _
    | escalate _ _ hstate =>
      exact hrt.continues (by rw [hstate]; rfl) (by rw [hstate]; rfl) (fun h => h) rfl rfl rfl
    | pass => exact hrt

end Changes

section Policies

namespace StepRuntimeState

variable (rt : StepRuntimeState C V)

/-- The policy that a recovery follows. -/
def policy : Option (Nat × Option RecoveryHandlerKind) :=
  rt.recovery.map (fun recovery => (recovery.configuredRounds, recovery.handlerKind))

variable {rt}

theorem Annotated.policy (h : rt.Annotated rt') : rt'.policy = rt.policy := by
  have hmap := congrArg (Option.map (fun (k : Nat × Option RecoveryHandlerKind × Nat) =>
    (k.1, k.2.1))) h.2
  simpa [StepRuntimeState.policy, Option.map_map, Function.comp_def] using hmap

theorem opened_policy (rt : StepRuntimeState C V) (record : RecoveryRoundRecord C) :
    (rt.opened record).policy = rt.policy := by
  unfold StepRuntimeState.policy opened editRecovery
  cases rt.recovery <;> rfl

/-- A final failure is annotated, unless a round was opened in vain. -/
theorem FinalFailure.policy {detail : FailureDetail} (h : rt.FinalFailure d detail rt') :
    rt'.policy = rt.policy := by
  cases h with
  | target _ rt₁ _ hopened =>
    have hkept : rt₁.policy = rt.policy := by
      rcases hopened with rfl | ⟨recovery, record, -, -, rfl⟩
      · rfl
      · exact rt.opened_policy record
    split_ifs
    · exact (rt₁.noteExecution_annotated _).policy.trans hkept
    · exact hkept
  | gaveUp | handlerFailed =>
    exact (rt.noteEnded_annotated _ _ _).policy

end StepRuntimeState

variable [ConditionOutput V]

/-- The policy of a recovery never changes. -/
theorem NodeChange.policy (h : NodeChange o s m id d rt rt') : rt'.policy = rt.policy := by
  cases h with
  | same | passed => rfl
  | move h =>
    cases h with
    | retry _ record => exact rt.opened_policy record
    | recheck | handlerRunning => exact (rt.noteOutcome_annotated _ _).policy
    | succeed => exact (rt.noteExecution_annotated _).policy
    | recover _ record =>
      exact ((rt.opened record).editRecovery_annotated (modifyLastRound_keeps _)).policy.trans
        (rt.opened_policy record)
    | quiesce => exact (rt.noteCancelled_annotated _).policy
    | start | run | capture | skip | failureStop | notSelected | forcedCancel => rfl
  | complete => exact (rt.noteExecution_annotated _).policy
  | issue h =>
    cases h with
    | fail _ _ hfinal => exact hfinal.policy
    | conditionFailed | blockOrdinary | blockCondition | blockInput => rfl
  | note h => exact h.policy
  | contained h =>
    cases h with
    | contain => exact (rt.noteHandlerCancelled_annotated _).policy
    | drop | escalate | pass => rfl

/-- A node is recovered only with a recovery record. -/
theorem NodeChange.recovering (h : NodeChange o s m id d rt rt')
    (hrt : rt.state.kind = .recovering → rt.recovery.isSome = true)
    (hstate : rt'.state.kind = .recovering) : rt'.recovery.isSome = true := by
  have hkept := congrArg Option.isSome h.policy
  rw [StepRuntimeState.policy, StepRuntimeState.policy, Option.isSome_map, Option.isSome_map]
    at hkept
  rw [hkept]
  cases h with
  | same | passed => exact hrt hstate
  | move h =>
    cases h with
    | recover _ _ _ hopens => rw [hopens.spec.1, Option.isSome_some]
    | handlerRunning _ hbefore => exact hrt (by rw [hbefore]; rfl)
    | _ => cases hstate
  | issue h => cases h <;> cases hstate
  | note h => exact hrt (h.1.state ▸ hstate)
  | complete => cases hstate
  | contained h =>
    cases h with
    | drop | contain => cases hstate
    | escalate | pass => exact hrt hstate

end Policies

variable [ConditionOutput V] {definition : RuntimeDefinition} {seed : ExecutionSeed V}

variable (h : Reachable definition seed m s) (hd : definition.steps.get? id = some d)
  (hrt : s.steps.get? id = some rt)
include h hd hrt

theorem Reachable.invocationMatches : InvocationMatches rt := by
  refine h.nodeInvariant (P := fun _ _ rt => InvocationMatches rt) ?_ ?_ hd hrt
  · intro id d _
    unfold initialStep
    refine ⟨fun _ => ⟨rfl, rfl⟩, ?_, ?_, fun _ => rfl⟩
    · rintro (h | h | h) <;> dsimp only at h <;> split at h <;> cases h
    · intro round activity h
      dsimp only at h
      split at h <;> cases h
  · intro o s n id d rt rt' _ _ hrt hchange
    exact hchange.invocationMatches hrt

/-- The recovery record of a node follows the declared policy, unless the node was inherited. -/
theorem Reachable.policy :
    rt.policy = d.recovery.map (fun policy => (policy.retries, policy.handlerKind)) ∨
      rt.recovery = none ∧ rt.state.kind = .inherited := by
  refine h.nodeInvariant (P := fun _ d rt =>
    rt.policy = d.recovery.map (fun policy => (policy.retries, policy.handlerKind)) ∨
      rt.recovery = none ∧ rt.state.kind = .inherited) ?_ ?_ hd hrt
  · intro id d _
    unfold StepRuntimeState.policy initialStep
    cases hseed : seed.steps.get? id with
    | none =>
      refine Or.inl ?_
      cases d.recovery <;> rfl
    | some => exact Or.inr ⟨rfl, rfl⟩
  · intro o s n id d rt rt' _ _ hrt hchange
    rcases hrt with hpolicy | ⟨hnone, hkind⟩
    · exact Or.inl (hchange.policy.trans hpolicy)
    · have hterminal : rt.state.isTerminal = true := isTerminal_iff_kind.mpr (by rw [hkind]; rfl)
      rw [hchange.settled_fixed hterminal]
      exact Or.inr ⟨hnone, hkind⟩

theorem Reachable.recovering (hstate : rt.state.kind = .recovering) :
    rt.recovery.isSome = true := by
  refine h.nodeInvariant (P := fun _ _ rt => rt.state.kind = .recovering →
    rt.recovery.isSome = true) ?_ ?_ hd hrt hstate
  · intro id d _ hstate
    unfold initialStep at hstate
    cases hseed : seed.steps.get? id <;> rw [hseed] at hstate <;> cases hstate
  · intro o s n id d rt rt' _ _ hrt hchange
    exact hchange.recovering hrt

theorem Reachable.policy_bound (hretries : ∀ policy ∈ d.recovery, policy.retries ≤ 10) :
    ∀ recovery, rt.recovery = some recovery →
      d.recovery.isSome = true ∧ recovery.configuredRounds < 255 := by
  intro recovery hrecovery
  rcases h.policy hd hrt with hpolicy | ⟨hnone, -⟩
  · rw [StepRuntimeState.policy, hrecovery] at hpolicy
    obtain ⟨policy, hdeclared, heq⟩ := Option.map_eq_some_iff.mp hpolicy.symm
    have hbound := hretries policy hdeclared
    have hrounds : policy.retries = recovery.configuredRounds := congrArg Prod.fst heq
    exact ⟨by rw [hdeclared]; rfl, by omega⟩
  · cases hnone.symm.trans hrecovery

theorem Reachable.recoveryHolds
    (hretries : ∀ policy ∈ d.recovery, policy.retries ≤ 10) : RecoveryHolds rt := by
  refine h.nodeInvariant (P := fun id d rt => definition.steps.get? id = some d →
    (∀ policy ∈ d.recovery, policy.retries ≤ 10) → RecoveryHolds rt) ?_ ?_ hd hrt hd hretries
  · intro id d _ _ _ recovery hrecovery
    unfold initialStep at hrecovery ⊢
    cases hseed : seed.steps.get? id with
    | some =>
      rw [hseed] at hrecovery
      cases hrecovery
    | none =>
      rw [hseed] at hrecovery
      obtain ⟨policy, -, rfl⟩ := Option.map_eq_some_iff.mp hrecovery
      exact ⟨⟨Nat.zero_le _, rfl, rfl, fun _ _ hmem => nomatch hmem⟩, nofun, fun _ => rfl, nofun,
        nofun, fun _ => rfl, nofun, nofun⟩
  · rintro o s n id d rt rt' ⟨m, hreach⟩ hrt hs hchange hd hretries
    exact hchange.recoveryHolds (hreach.invocationMatches hd hrt)
      (hreach.policy_bound hd hrt hretries) (hs hd hretries)

/-- A step that a command may recover once. -/
def recoverableDocument : WorkflowDocument :=
  commandDocument [] [("build", ⟨textCommand .required none [] ["log"], [],
    some ⟨1, some (.command ["true"] none)⟩⟩)] [] []

def recoverableDecoded : DecodedDocument where
  document := recoverableDocument
  structural := by decide

/-- The step fails, its handler asks for a recheck and the step runs again. -/
def recheckedBuild : Reduction Unit FailureDetail String Nat :=
  ledger ⟨RuntimeDefinition.fromAdmitted (acceptedWorkflow recoverableDocument) .empty 1
    32, none⟩ .empty
    [.stepStarted "build" ⟨1⟩, .stepExecutionFailed "build" ⟨1⟩ (.ofCode .execution .commandExit),
      .recoveryHandlerStarted "build" 1 ⟨3⟩,
      .recoveryHandlerCompleted "build" 1 ⟨3⟩ ⟨.recheck, "again", "flaky"⟩]

end ScherzoCloud.Workflow
