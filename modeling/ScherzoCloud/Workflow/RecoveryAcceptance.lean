import Mathlib.Data.List.Pairwise
import ScherzoCloud.Collections.Gathering
import ScherzoCloud.Workflow.CapacityAdmission
import ScherzoCloud.Workflow.RecoveryRecord

/-!
# Recovery evidence that a loader accepts

A result has the recovery summary of a step and one record for each invocation of the
step.  The summary is built from the recovery record of the node.  If the invocation
records name the history of the node, in order and with the state that each invocation
ended in, then both together pass `validate_step_recovery`.

The checks read five fields of an invocation record, its `InvocationKey`; the others are
checked one by one.
-/

namespace ScherzoCloud.Workflow

open Collections
open RecoveryRoundRecord (invocations)
open StepRuntimeState (rounds_of_recovery openTarget_of_target openTarget_of_execution
  rounds_of_none)

variable {V : Type} {records : List RecoveryInvocationV1} {rt : StepRuntimeState StepFailureCause V}
  {invocation : ActionId × ActiveStepInvocation} {recovery : StepRecoveryState StepFailureCause}
  {record last : RecoveryRoundRecord StepFailureCause} {d : RuntimeStep} {i n limit : Nat}
  {handler : RecoveryHandlerRecord StepFailureCause}
  {P : RecoveryHandlerOutcome StepFailureCause → Prop} {disposition : RecoveryTerminalDisposition}
  {summary : StepRecoverySummaryV1} {step : WorkflowStepV1} {round : RecoveryRoundSummaryV1}
  {formats : ResultFormats} {id : String}

section Keys

/-- What the checks relate about an invocation record. -/
structure InvocationKey where
  invocationId : Nat
  role : RecoveryInvocationRoleV1
  targetExecution : Option Nat
  recoveryRound : Option Nat
  state : RecoveryInvocationStateV1
  deriving DecidableEq

variable (record : RecoveryInvocationV1)

def RecoveryInvocationV1.key : InvocationKey :=
  ⟨record.invocationId, record.role, record.targetExecution, record.recoveryRound, record.state⟩

@[simp] theorem RecoveryInvocationV1.key_role : record.key.role = record.role := rfl

@[simp] theorem RecoveryInvocationV1.key_targetExecution :
    record.key.targetExecution = record.targetExecution := rfl

@[simp] theorem RecoveryInvocationV1.key_state : record.key.state = record.state := rfl

/-- The key of an invocation of the history that ended in a state. -/
def invocationKey (state : RecoveryInvocationStateV1) :
    ActionId × ActiveStepInvocation → InvocationKey
  | (action, .target n) => ⟨action.transitionSequence, .target, some n, none, state⟩
  | (action, .recoveryHandler round) =>
    ⟨action.transitionSequence, .recoveryHandler, none, some round, state⟩

/-- All invocations of a settled node: the last one was cancelled if the node was. -/
def StepRuntimeState.evidence (rt : StepRuntimeState StepFailureCause V) : List InvocationKey :=
  rt.invocations.dropLast.map (invocationKey .settled) ++
    rt.invocations.getLast?.toList.map
      (invocationKey (if rt.state.kind = .cancelled then .cancelled else .settled))

/-- A search finds something, and all that it can find satisfies `q`. -/
theorem find?_any {α : Type} {l : List α} {p q : α → Bool} {a : α} (ha : a ∈ l)
    (hp : p a = true) (hq : ∀ b ∈ l, p b = true → q b = true) : (l.find? p).any q = true := by
  obtain ⟨b, hb⟩ := Option.isSome_iff_exists.mp (List.find?_isSome.mpr ⟨a, ha, hp⟩)
  rw [hb, Option.any_some]
  exact hq b (List.mem_of_find?_eq_some hb) (List.find?_some hb)

@[simp] theorem invocationKey_id (state : RecoveryInvocationStateV1)
    (invocation : ActionId × ActiveStepInvocation) :
    (invocationKey state invocation).invocationId = invocation.1.transitionSequence := by
  obtain ⟨action, n | round⟩ := invocation <;> rfl

/-- What is read from the keys of a history does not depend on how its last invocation ended. -/
theorem evidence_map {β : Type} {f : InvocationKey → β} {g : ActionId × ActiveStepInvocation → β}
    (hfg : ∀ state invocation, f (invocationKey state invocation) = g invocation) :
    rt.evidence.map f = rt.invocations.map g := by
  have hcomp : ∀ state, f ∘ invocationKey state = g := fun state => funext (hfg state)
  unfold StepRuntimeState.evidence
  rw [List.map_append, List.map_map, List.map_map, hcomp, hcomp, ← List.map_append]
  congr 1
  cases hlast : rt.invocations.getLast? with
  | none => simp [List.getLast?_eq_none_iff.mp hlast]
  | some invocation => exact List.dropLast_append_getLast? invocation hlast

/-- The identities of the evidence are those of the history. -/
theorem evidence_ids (rt : StepRuntimeState StepFailureCause V) :
    rt.evidence.map InvocationKey.invocationId = rt.invocations.map (·.1.transitionSequence) :=
  evidence_map invocationKey_id

/-- An invocation that is not the last one has settled. -/
theorem settled_mem_evidence {last : ActionId × ActiveStepInvocation}
    (hmem : invocation ∈ rt.invocations) (hlast : rt.invocations.getLast? = some last)
    (hne : invocation ≠ last) : invocationKey .settled invocation ∈ rt.evidence := by
  rw [← List.dropLast_append_getLast? last hlast] at hmem
  rcases List.mem_append.mp hmem with hmem | hmem
  · exact List.mem_append_left _ (List.mem_map_of_mem hmem)
  · exact absurd (List.mem_singleton.mp hmem) hne

theorem last_mem_evidence {last : ActionId × ActiveStepInvocation}
    (hlast : rt.invocations.getLast? = some last) :
    invocationKey (if rt.state.kind = .cancelled then .cancelled else .settled) last ∈
      rt.evidence := by
  unfold StepRuntimeState.evidence
  rw [hlast]
  exact List.mem_append_right _ (List.mem_singleton_self _)

theorem mem_evidence {key : InvocationKey} (h : key ∈ rt.evidence) :
    ∃ invocation ∈ rt.invocations, ∃ state, key = invocationKey state invocation := by
  unfold StepRuntimeState.evidence at h
  rcases List.mem_append.mp h with h | h
  · obtain ⟨invocation, hmem, rfl⟩ := List.mem_map.mp h
    exact ⟨invocation, List.mem_of_mem_dropLast hmem, _, rfl⟩
  · obtain ⟨invocation, hmem, rfl⟩ := List.mem_map.mp h
    exact ⟨invocation, List.mem_of_getLast? (Option.mem_toList.mp hmem), _, rfl⟩

/-- Every invocation has ended, and unless the node was cancelled it has settled. -/
theorem exists_evidence (h : invocation ∈ rt.invocations) :
    ∃ state, invocationKey state invocation ∈ rt.evidence ∧
      (rt.state.kind ≠ .cancelled → state = .settled) := by
  obtain ⟨last, hlast⟩ := Option.isSome_iff_exists.mp
    (List.getLast?_isSome.mpr (List.ne_nil_of_mem h))
  by_cases heq : invocation = last
  · exact ⟨_, heq ▸ last_mem_evidence hlast, fun hstate => if_neg hstate⟩
  · exact ⟨_, settled_mem_evidence h hlast heq, fun _ => rfl⟩

/-- With ascending identities two pieces of evidence with one identity are the same. -/
theorem evidence_unique (hids : (rt.invocations.map (·.1.transitionSequence)).Pairwise (· < ·))
    {a b : InvocationKey} (ha : a ∈ rt.evidence) (hb : b ∈ rt.evidence)
    (heq : a.invocationId = b.invocationId) : a = b := by
  rw [← evidence_ids] at hids
  have hnodup : (rt.evidence.map InvocationKey.invocationId).Nodup :=
    hids.imp (fun h => Nat.ne_of_lt h)
  exact List.inj_on_of_nodup_map hnodup ha hb heq

end Keys

/-- The number of a round is its position. -/
theorem StepRecoveryState.Aligned.number_at (h : recovery.Aligned)
    (hi : recovery.rounds[i]? = some record) :
    record.number = i + 1 ∧ record.failedExecution.executionNumber = i + 1 := by
  have hlt : i < recovery.rounds.length := (List.getElem?_eq_some_iff.mp hi).1
  have hat : ∀ f : RecoveryRoundRecord StepFailureCause → Nat,
      recovery.rounds.map f = List.range' 1 recovery.rounds.length → f record = i + 1 := by
    intro f hf
    have hget := congrArg (fun l => l[i]?) hf
    rw [List.getElem?_map, hi, List.getElem?_range' hlt, Nat.one_mul, Nat.add_comm] at hget
    exact Option.some.inj hget
  exact ⟨hat _ h.numbers, hat _ h.executions⟩

/-- How the history of a settled node ends: with the execution after the last round, or with
the handler of the last round. -/
inductive HistoryEnds (rt : StepRuntimeState StepFailureCause V)
    (recovery : StepRecoveryState StepFailureCause) : Prop
  | execution (action : ActionId)
      (hlast : rt.invocations.getLast? = some (action, .target (recovery.rounds.length + 1)))
      (hopen : rt.openTarget = [(action, .target (recovery.rounds.length + 1))])
  | handler (record : RecoveryRoundRecord StepFailureCause)
      (handler : RecoveryHandlerRecord StepFailureCause)
      (hrecord : recovery.rounds.getLast? = some record) (hhandler : record.handler = some handler)
      (hlast : rt.invocations.getLast? =
        some (handler.invocation, .recoveryHandler recovery.rounds.length))
      (hopen : rt.openTarget = [])

/-- The position of an invocation: an execution comes before the handler of its round, and
that before the next execution. -/
def ActiveStepInvocation.rank : ActiveStepInvocation → Nat
  | .target n => 2 * n
  | .recoveryHandler round => 2 * round + 1

theorem StepRecoveryState.Aligned.ordered (h : recovery.Aligned) :
    recovery.rounds.Pairwise (fun a b => a.number < b.number) := by
  have hrange : (List.range' 1 recovery.rounds.length).Pairwise (· < ·) :=
    List.pairwise_lt_range'
  rw [← h.numbers] at hrange
  exact List.pairwise_map.mp hrange

theorem StepRecoveryState.Aligned.execution_eq (h : recovery.Aligned)
    (hmem : record ∈ recovery.rounds) : record.failedExecution.executionNumber = record.number ∧
      record.number ≤ recovery.rounds.length := by
  obtain ⟨i, hi⟩ := List.mem_iff_getElem?.mp hmem
  obtain ⟨hnumber, hexecution⟩ := h.number_at hi
  have hlt : i < recovery.rounds.length := (List.getElem?_eq_some_iff.mp hi).1
  exact ⟨hexecution.trans hnumber.symm, by rw [hnumber]; exact hlt⟩

theorem RecoveryRoundRecord.rank_of_mem
    (hnumber : record.failedExecution.executionNumber = record.number)
    (h : invocation ∈ record.invocations) :
    invocation.2.rank = 2 * record.number ∨ invocation.2.rank = 2 * record.number + 1 := by
  unfold invocations at h
  rcases List.mem_cons.mp h with rfl | h
  · exact Or.inl (congrArg (2 * ·) hnumber)
  · obtain ⟨handler, -, rfl⟩ := Option.map_eq_some_iff.mp (Option.mem_toList.mp h)
    exact Or.inr rfl

theorem evidence_filterMap {f : InvocationKey → Option Nat} {g : ActiveStepInvocation → Option Nat}
    (hfg : ∀ state invocation, f (invocationKey state invocation) = g invocation.2) :
    rt.evidence.filterMap f = rt.invocations.filterMap (fun invocation => g invocation.2) := by
  have hmap : (rt.evidence.map f).filterMap id =
      (rt.invocations.map (fun invocation => g invocation.2)).filterMap id :=
    congrArg (List.filterMap id) (evidence_map hfg)
  rwa [List.filterMap_map, List.filterMap_map] at hmap

theorem max?_range' (h : 0 < n) : (List.range' 1 n).max? = some n := by
  refine List.max?_eq_some_iff.mpr ⟨List.mem_range'_1.mpr (by omega), fun m hm => ?_⟩
  have hlt := (List.mem_range'_1.mp hm).2
  omega

theorem insertionSort_range' (n : Nat) :
    (List.range' 1 n).insertionSort (· ≤ ·) = List.range' 1 n :=
  (List.pairwise_le_range').insertionSort_eq

/-- How an outcome is published, once the handler has reported. -/
def RecoveryHandlerOutcome.codeV1 :
    RecoveryHandlerOutcome StepFailureCause → Option RecoveryHandlerOutcomeV1
  | .recheck _ _ => some .recheck
  | .gaveUp _ _ => some .gaveUp
  | .failed _ _ => some .failed
  | .cancelled => some .cancelled
  | .starting | .running => none

/-- What is published about a handler agrees with its record. -/
structure HandlerPublished (handler : RecoveryHandlerRecord StepFailureCause)
    (summary : RecoveryHandlerSummaryV1) : Prop where
  kind : summary.kind = handler.kind
  invocation : summary.invocationId = handler.invocation.transitionSequence
  outcome : handler.outcome.codeV1 = some summary.outcome
  valid : validateHandlerSummary summary = true
  failure : ∀ phase cause, handler.outcome = .failed phase cause →
    ∃ failure, recoveryHandlerFailureV1 phase cause = .ok failure ∧ summary.failure = some failure

/-- A handler that has reported can be published. -/
theorem handlerSummaryV1_ok (hlawful : handler.outcome.Lawful)
    (hreported : handler.outcome.codeV1.isSome = true) (requireSettledHandlers : Bool) :
    ∃ summary, handlerSummaryV1 requireSettledHandlers handler = .ok (some summary) ∧
      HandlerPublished handler summary := by
  obtain ⟨kind, invocation, outcome⟩ := handler
  cases outcome with
  | starting | running => cases hreported
  | recheck | gaveUp =>
    refine ⟨_, rfl, rfl, rfl, rfl, ?_, nofun⟩
    simp only [validateHandlerSummary, Option.any_some, hlawful.1, hlawful.2]
    rfl
  | failed =>
    obtain ⟨failure, rfl⟩ := hlawful
    refine ⟨_, rfl, rfl, rfl, rfl, ?_, ?_⟩
    · cases failure <;> rfl
    · rintro _ _ ⟨⟩
      exact ⟨_, rfl, rfl⟩
  | cancelled => exact ⟨_, rfl, rfl, rfl, rfl, rfl, nofun⟩

/-- What is published about a round agrees with its record. -/
structure RoundPublished (record : RecoveryRoundRecord StepFailureCause)
    (summary : RecoveryRoundSummaryV1) : Prop where
  number : summary.number = record.number
  execution : summary.failedExecution.executionNumber = record.failedExecution.executionNumber
  invocation : summary.failedExecution.invocationId =
    record.failedExecution.invocation.transitionSequence
  valid : validateFailure summary.failedExecution.failure = true
  detail : detailFromRecovery summary.failedExecution.failure = some record.failedExecution.detail
  handler : match record.handler, summary.handler with
    | none, none => True
    | some handler, some summary => HandlerPublished handler summary
    | _, _ => False

theorem roundSummaryV1_ok
    (hdetail : failureDetail record.failedExecution.phase record.failedExecution.cause =
      .ok record.failedExecution.detail)
    (hlawful : ∀ handler ∈ record.handler, handler.outcome.Lawful)
    (hreported : ∀ handler ∈ record.handler, handler.outcome.codeV1.isSome = true)
    (requireSettledHandlers : Bool) :
    ∃ summary, roundSummaryV1 requireSettledHandlers record = .ok summary ∧
      RoundPublished record summary := by
  obtain ⟨failure, hfailure, -⟩ := failureV1_of_detail hdetail
  have hvalid := validateFailure_of_detail hdetail hfailure
  have hback := detailFromRecovery_of_detail hdetail hfailure
  cases hhandler : record.handler with
  | none =>
    refine ⟨⟨record.number, ⟨_, _, failure⟩, none⟩, ?_, rfl, rfl, rfl, hvalid, hback, ?_⟩
    · simp only [roundSummaryV1, hhandler, hfailure]
      rfl
    · rw [hhandler]
      trivial
  | some handler =>
    obtain ⟨summary, hsummary, hpublished⟩ := handlerSummaryV1_ok (hlawful handler hhandler)
      (hreported handler hhandler) requireSettledHandlers
    refine ⟨⟨record.number, ⟨_, _, failure⟩, some summary⟩, ?_, rfl, rfl, rfl, hvalid, hback, ?_⟩
    · simp only [roundSummaryV1, hhandler, hsummary, hfailure]
      rfl
    · rw [hhandler]
      exact hpublished

/-- The summaries of an exact record can be built, round by round. -/
theorem publishedRounds_ok (hexact : RoundsExact recovery)
    (hreported : ∀ record ∈ recovery.rounds, ∀ handler ∈ record.handler,
      handler.outcome.codeV1.isSome = true) (requireSettledHandlers : Bool) :
    ∃ summaries, recoveryRoundSummariesV1 recovery requireSettledHandlers = .ok summaries ∧
      List.Forall₂ RoundPublished recovery.rounds summaries := by
  unfold recoveryRoundSummariesV1
  have hdetailed := hexact.detailed
  have hlawful := hexact.reported
  generalize recovery.rounds = rounds at hdetailed hlawful hreported
  induction rounds with
  | nil => exact ⟨[], rfl, .nil⟩
  | cons record rounds ih =>
    obtain ⟨summary, hsummary, hpublished⟩ := roundSummaryV1_ok
      (hdetailed record List.mem_cons_self) (hlawful record List.mem_cons_self)
      (hreported record List.mem_cons_self) requireSettledHandlers
    obtain ⟨summaries, hsummaries, hall⟩ := ih
      (fun r hr => hdetailed r (List.mem_cons_of_mem _ hr))
      (fun r hr => hlawful r (List.mem_cons_of_mem _ hr))
      (fun r hr => hreported r (List.mem_cons_of_mem _ hr))
    refine ⟨summary :: summaries, ?_, .cons hpublished hall⟩
    rw [List.mapM_cons, hsummary, hsummaries]
    rfl

variable {α β : Type} {R : α → β → Prop} {l : List α} {l' : List β}

theorem forall₂_getElem? (h : List.Forall₂ R l l') {b : β} (hb : l'[i]? = some b) :
    ∃ a, l[i]? = some a ∧ R a b := by
  induction h generalizing i with
  | nil => cases hb
  | @cons a b' l l' hab _ ih =>
    cases i with
    | zero =>
      cases hb
      exact ⟨a, rfl, hab⟩
    | succ i => exact ih hb

theorem forall₂_getLast? (h : List.Forall₂ R l l') {a : α} (ha : l.getLast? = some a) :
    ∃ b, l'.getLast? = some b ∧ R a b := by
  rw [List.getLast?_eq_getElem?] at ha
  have hlength := h.length_eq
  obtain ⟨hlt, -⟩ := List.getElem?_eq_some_iff.mp ha
  obtain ⟨b, hb⟩ : ∃ b, l'[l.length - 1]? = some b :=
    ⟨_, List.getElem?_eq_getElem (hlength ▸ hlt)⟩
  obtain ⟨a', ha', hab⟩ := forall₂_getElem? h hb
  obtain rfl : a' = a := Option.some.inj (ha'.symm.trans ha)
  refine ⟨b, ?_, hab⟩
  rw [List.getLast?_eq_getElem?, ← hlength, hb]

/-- The outcome with which the handler of a round has ended, by the end of the recovery. -/
def RecoveryTerminalDisposition.handlerOutcome (round : Nat) :
    RecoveryTerminalDisposition → Option RecoveryHandlerOutcomeV1
  | .gaveUp last => if last = round then some .gaveUp else none
  | .handlerFailed last _ => if last = round then some .failed else none
  | .cancelled last (.recoveryHandler _) => if last = round then some .cancelled else none
  | .cancelled _ (.target _) | .recovered _ | .exhausted _ => none

open RecoveryTerminalDisposition (handlerOutcome)

/-- The published end of a recovery says the same about its handlers. -/
theorem terminationV1_handlerOutcome {termination : RecoveryTerminationV1}
    (h : terminationV1 recovery disposition = .ok termination) (round : Nat) :
    terminalHandlerOutcome termination round = disposition.handlerOutcome round := by
  cases disposition with
  | recovered | exhausted | gaveUp =>
    cases h
    rfl
  | handlerFailed last phase =>
    simp only [terminationV1] at h
    cases hfailure : endingHandlerFailure recovery last phase with
    | none =>
      rw [hfailure] at h
      cases h
    | some =>
      rw [hfailure] at h
      obtain ⟨failure, -, rfl⟩ := map_eq_ok_iff.mp h
      rfl
  | cancelled _ active =>
    cases active <;> cases h <;> rfl

/-- A recovery was cancelled exactly when its node was. -/
theorem dispositionAgrees_cancelled {state : StepState V}
    (h : dispositionAgrees state disposition = true) :
    state.kind = .cancelled ↔ ∃ round active, disposition = .cancelled round active := by
  cases state <;> cases disposition <;> simp_all [dispositionAgrees, StepState.kind]

theorem dispositionAgrees_stepState {state : StepState V}
    (h : dispositionAgrees state disposition = true)
    (hstate : stepStateV1 state = .ok (step.state, step.detail)) :
    step.state = match disposition with
      | .recovered _ => .succeeded
      | .exhausted _ | .gaveUp _ | .handlerFailed _ _ => .failed
      | .cancelled _ _ => .cancelled := by
  have hpair := congrArg (Except.map Prod.fst) hstate
  cases state <;> cases disposition <;>
    first | exact (Except.ok.inj hpair).symm | cases h

/-- A round that is not the last one has ended with another execution. -/
theorem code_of_rechecked (h : record.Rechecked) (hhandler : record.handler = some handler) :
    handler.outcome.codeV1 = some .recheck := by
  obtain ⟨other, summary, reason, hother, houtcome⟩ := h
  obtain rfl : other = handler := Option.some.inj (hother.symm.trans hhandler)
  rw [houtcome]
  rfl

/-- A settled node with recovery rounds, and the records of its invocations. -/
structure SettledEvidence (rt : StepRuntimeState StepFailureCause V)
    (recovery : StepRecoveryState StepFailureCause) (disposition : RecoveryTerminalDisposition)
    (records : List RecoveryInvocationV1) : Prop where
  recovery_eq : rt.recovery = some recovery
  rounds_ne : recovery.rounds ≠ []
  aligned : recovery.Aligned
  exact : RoundsExact recovery
  recorded : RecoveryRecorded rt
  decided : recovery.terminalDisposition = some disposition
  ends : Ends rt recovery disposition
  agrees : dispositionAgrees rt.state disposition = true
  keys : records.map RecoveryInvocationV1.key = rt.evidence
  ids : (rt.invocations.map (fun invocation =>
    invocation.1.transitionSequence)).Pairwise (· < ·)

theorem checkRounds_eq_true {e : Nat} {rounds : List RecoveryRoundSummaryV1}
    (hall : ∀ i round, rounds[i]? = some round → checkRound records summary (e + i) round = true) :
    checkRounds records summary e rounds = true := by
  induction rounds generalizing e with
  | nil => rfl
  | cons round rounds ih =>
    rw [checkRounds, Bool.and_eq_true]
    refine ⟨hall 0 round rfl, ih (fun i next hnext => ?_)⟩
    rw [Nat.add_assoc, Nat.add_comm 1]
    exact hall (i + 1) next hnext

/-- The published failure of the last round is the detail with which the step failed. -/
theorem lastFailure_eq {round : RecoveryRoundNumber} (hin : EndsIn rt recovery round)
    (hstate : stepStateV1 rt.state = .ok (step.state, step.detail))
    (hrounds : List.Forall₂ RoundPublished recovery.rounds summary.rounds) :
    terminalFailureDetail step = summary.rounds.getLast?.bind (fun round =>
      detailFromRecovery round.failedExecution.failure) := by
  obtain ⟨record, hrecord, hfailed⟩ := hin.detail
  obtain ⟨published, hpublished, hround⟩ := forall₂_getLast? hrounds hrecord
  rw [hfailed] at hstate
  have hdetail : step.detail = some (.failed record.failedExecution.detail) :=
    (congrArg Prod.snd (Except.ok.inj hstate)).symm
  rw [terminalFailureDetail, hdetail, hpublished, Option.bind_some, hround.detail]

/-- The last published handler is that of the last record. -/
theorem lastHandler_published (hlast : recovery.LastOutcome P)
    (hrounds : List.Forall₂ RoundPublished recovery.rounds summary.rounds) :
    ∃ record handler published, recovery.rounds.getLast? = some record ∧
      record.handler = some handler ∧ P handler.outcome ∧ HandlerPublished handler published ∧
      summary.rounds.getLast?.bind RecoveryRoundSummaryV1.handler = some published := by
  obtain ⟨record, handler, hrecord, hhandler, houtcome⟩ := hlast
  obtain ⟨round, hround, hagree⟩ := forall₂_getLast? hrounds hrecord
  have hboth := hagree.handler
  cases hpublished : round.handler with
  | none =>
    rw [hhandler, hpublished] at hboth
    exact hboth.elim
  | some published =>
    rw [hhandler, hpublished] at hboth
    exact ⟨record, handler, published, hrecord, hhandler, houtcome, hboth, by
      rw [hround, Option.bind_some, hpublished]⟩

namespace SettledEvidence

variable {x y : ActionId × ActiveStepInvocation}
  (h : SettledEvidence rt recovery disposition records)
include h

theorem key_mem {record : RecoveryInvocationV1} (hmem : record ∈ records) :
    record.key ∈ rt.evidence :=
  h.keys ▸ List.mem_map_of_mem hmem

theorem exists_record {key : InvocationKey} (hkey : key ∈ rt.evidence) :
    ∃ record ∈ records, record.key = key :=
  List.mem_map.mp (h.keys ▸ hkey)

/-- The history has the failed execution of a round and its handler. -/
theorem mem_invocations (hmem : record ∈ recovery.rounds)
    (hin : invocation ∈ record.invocations) : invocation ∈ rt.invocations := by
  refine List.mem_append_left _ (List.mem_flatMap.mpr ⟨record, ?_, hin⟩)
  rwa [rounds_of_recovery h.recovery_eq]

theorem failed_mem_invocations (hmem : record ∈ recovery.rounds) :
    (record.failedExecution.invocation, .target record.number) ∈ rt.invocations := by
  rw [← (h.aligned.execution_eq hmem).1]
  exact h.mem_invocations hmem List.mem_cons_self

theorem handler_mem_invocations (hmem : record ∈ recovery.rounds)
    (hhandler : record.handler = some handler) :
    (handler.invocation, .recoveryHandler record.number) ∈ rt.invocations := by
  refine h.mem_invocations hmem ?_
  rw [invocations, hhandler]
  exact List.mem_cons_of_mem _ (List.mem_singleton_self _)

/-- The positions ascend along the history of a node. -/
theorem ranked : rt.invocations.Pairwise (fun x y => x.2.rank < y.2.rank) := by
  have hrounds := rounds_of_recovery h.recovery_eq
  rw [StepRuntimeState.invocations, hrounds]
  refine List.pairwise_append.mpr ⟨List.pairwise_flatMap.mpr ⟨?_, ?_⟩, ?_, ?_⟩
  · intro record hmem
    have hnumber := (h.aligned.execution_eq hmem).1
    unfold invocations
    cases record.handler with
    | none => exact List.pairwise_singleton _ _
    | some =>
      simp only [Option.map_some, Option.toList_some, List.pairwise_cons, List.mem_singleton,
        forall_eq, List.not_mem_nil, false_imp_iff, implies_true, List.Pairwise.nil, and_true]
      rw [ActiveStepInvocation.rank, ActiveStepInvocation.rank, hnumber]
      omega
  · refine (h.aligned.ordered.imp_of_mem ?_)
    intro a b ha hb hlt x hx y hy
    have hrx := RecoveryRoundRecord.rank_of_mem (h.aligned.execution_eq ha).1 hx
    have hry := RecoveryRoundRecord.rank_of_mem (h.aligned.execution_eq hb).1 hy
    have hlt' : @LT.lt Nat _ a.number b.number := hlt
    omega
  · unfold StepRuntimeState.openTarget
    split
    · split_ifs
      · exact List.pairwise_singleton _ _
      · exact .nil
    · exact .nil
  · intro x hx y hy
    obtain ⟨record, hmem, hx⟩ := List.mem_flatMap.mp hx
    have hrx := RecoveryRoundRecord.rank_of_mem (h.aligned.execution_eq hmem).1 hx
    have hle : @LE.le Nat _ record.number recovery.rounds.length :=
      (h.aligned.execution_eq hmem).2
    have hry : y.2.rank = 2 * (recovery.rounds.length + 1) := by
      unfold StepRuntimeState.openTarget at hy
      split at hy
      · split_ifs at hy with hn
        · rw [List.mem_singleton.mp hy, hn, hrounds]
          rfl
        · cases hy
      · cases hy
    omega

/-- An invocation at a lower position has a lower identity. -/
theorem id_lt_of_rank_lt (hx : x ∈ rt.invocations) (hy : y ∈ rt.invocations)
    (hlt : x.2.rank < y.2.rank) : x.1.transitionSequence < y.1.transitionSequence := by
  let before : ActionId × ActiveStepInvocation → ActionId × ActiveStepInvocation → Prop :=
    fun a b => a.2.rank < b.2.rank ∧ a.1.transitionSequence < b.1.transitionSequence
  have hboth : rt.invocations.Pairwise (fun a b => before a b ∨ before b a) :=
    (h.ranked.and (List.pairwise_map.mp h.ids)).imp Or.inl
  have hsymm : Std.Symm (fun a b => before a b ∨ before b a) := ⟨fun _ _ => Or.symm⟩
  have hne : x ≠ y := by
    rintro rfl
    exact Nat.lt_irrefl _ hlt
  rcases hboth.forall hx hy hne with h | h
  · exact h.2
  · exact absurd h.1 (Nat.lt_asymm hlt)

/-- The executions of a history are numbered without gaps. -/
theorem recordedExecutions_eq : recordedExecutions records =
    List.range' 1 recovery.rounds.length ++ rt.openTarget.filterMap (·.2.execution) := by
  have hexecutions : recordedExecutions records = rt.invocations.filterMap (·.2.execution) := by
    rw [← evidence_filterMap
      (f := fun key => if key.role = .target then key.targetExecution else none)
      (by rintro _ ⟨_, active⟩; cases active <;> rfl), ← h.keys, List.filterMap_map]
    refine List.filterMap_congr (fun record _ => ?_)
    cases hrole : record.role <;> simp [RecoveryInvocationV1.key, hrole]
  rw [hexecutions, StepRuntimeState.invocations, rounds_of_recovery h.recovery_eq,
    List.filterMap_append, ← h.aligned.executions, List.filterMap_flatMap]
  congr 1
  rw [← List.flatMap_singleton' (recovery.rounds.map _), List.flatMap_map]
  refine List.flatMap_congr (fun record _ => ?_)
  unfold invocations
  cases record.handler <;> rfl

/-- Every round of a history has a handler, or none has one. -/
theorem recordedRounds_eq : recordedRounds records =
    if recovery.handlerKind.isSome then List.range' 1 recovery.rounds.length else [] := by
  have hrounds : recordedRounds records = rt.invocations.filterMap (·.2.round) := by
    rw [← evidence_filterMap
      (f := fun key => if key.role = .target then none else key.recoveryRound)
      (by rintro _ ⟨_, active⟩; cases active <;> rfl), ← h.keys, List.filterMap_map]
    refine List.filterMap_congr (fun record _ => ?_)
    cases hrole : record.role <;> simp [RecoveryInvocationV1.key, hrole]
  rw [hrounds, StepRuntimeState.invocations, rounds_of_recovery h.recovery_eq,
    List.filterMap_append, openTarget_rounds, List.append_nil, List.filterMap_flatMap]
  have hround : ∀ record ∈ recovery.rounds,
      record.invocations.filterMap (·.2.round) =
        if recovery.handlerKind.isSome then [record.number] else [] := by
    intro record hmem
    rw [← h.exact.kinds record hmem]
    unfold invocations
    cases record.handler <;> rfl
  rw [List.flatMap_congr hround]
  split_ifs
  · rw [← h.aligned.numbers, ← List.flatMap_singleton' (recovery.rounds.map _), List.flatMap_map]
  · exact List.flatMap_eq_nil_iff.mpr (fun _ _ => rfl)

section

variable (hlast : recovery.rounds.getLast? = some last) (hmem : record ∈ recovery.rounds)
include hlast hmem

theorem mem_dropLast_of_ne_last
    (hne : record.number ≠ recovery.rounds.length) : record ∈ recovery.rounds.dropLast := by
  rw [← List.dropLast_append_getLast? last hlast] at hmem
  rcases List.mem_append.mp hmem with hmem | hmem
  · exact hmem
  · rw [List.mem_singleton.mp hmem] at hne
    exact absurd (h.aligned.last hlast).1 hne

theorem eq_last_of_number (heq : record.number = recovery.rounds.length) : record = last := by
  have hnodup : (recovery.rounds.map RecoveryRoundRecord.number).Nodup := by
    rw [h.aligned.numbers]
    exact List.nodup_range'
  exact List.inj_on_of_nodup_map hnodup hmem (List.mem_of_getLast? hlast)
    (heq.trans (h.aligned.last hlast).1.symm)

end

/-- Every handler has ended as the end of the recovery says. -/
theorem code (hmem : record ∈ recovery.rounds) (hhandler : record.handler = some handler) :
    handler.outcome.codeV1 = some ((disposition.handlerOutcome record.number).getD .recheck) := by
  have hends := h.ends
  have hkind : recovery.handlerKind.isSome = true := by
    rw [← h.exact.kinds record hmem, hhandler]
    rfl
  have hlastRound : ∀ {P : RecoveryHandlerOutcome StepFailureCause → Prop}
      {code : RecoveryHandlerOutcomeV1}, recovery.LastOutcome P →
      (∀ outcome, P outcome → outcome.codeV1 = some code) →
      handler.outcome.codeV1 =
        some ((if recovery.rounds.length = record.number then some code else none).getD
          .recheck) := by
    intro P code hlast hcode
    obtain ⟨last, lastHandler, hrecord, hlastHandler, houtcome⟩ := hlast
    by_cases heq : record.number = recovery.rounds.length
    · obtain rfl := h.eq_last_of_number hrecord hmem heq
      obtain rfl : lastHandler = handler := Option.some.inj (hlastHandler.symm.trans hhandler)
      rw [if_pos heq.symm, hcode _ houtcome]
      rfl
    · rw [if_neg (Ne.symm heq)]
      exact code_of_rechecked
        (h.aligned.earlier hkind record (h.mem_dropLast_of_ne_last hrecord hmem heq)) hhandler
  cases disposition with
  | recovered => exact code_of_rechecked (hends.rechecked hkind record hmem) hhandler
  | exhausted => exact code_of_rechecked (hends.1.rechecked hkind record hmem) hhandler
  | gaveUp =>
    obtain ⟨hin, hlast⟩ := hends
    rw [handlerOutcome, hin.number]
    exact hlastRound hlast (by rintro _ ⟨summary, reason, rfl⟩; rfl)
  | handlerFailed =>
    obtain ⟨hin, hlast⟩ := hends
    rw [handlerOutcome, hin.number]
    exact hlastRound hlast (by rintro _ ⟨cause, rfl⟩; rfl)
  | cancelled _ active =>
    cases active with
    | target => exact code_of_rechecked (hends.2.rechecked hkind record hmem) hhandler
    | recoveryHandler =>
      obtain ⟨hnumber, -, -, hlast⟩ := hends
      rw [handlerOutcome, hnumber]
      exact hlastRound hlast (by rintro _ rfl; rfl)

theorem ends_of_executes {n : TargetExecutionNumber} (hexecutes : Executes rt recovery n) :
    HistoryEnds rt recovery ∧ rt.openTarget ≠ [] := by
  obtain ⟨action, haction⟩ := Option.isSome_iff_exists.mp (h.recorded.paired (by
    rw [hexecutes.execution]; rfl))
  have hrounds := rounds_of_recovery h.recovery_eq
  have hnumber := hexecutes.number
  have hopen := openTarget_of_target hexecutes.execution haction (by rw [hrounds, hnumber])
  rw [hnumber] at hopen
  refine ⟨.execution action ?_ hopen, hopen ▸ List.cons_ne_nil _ _⟩
  rw [StepRuntimeState.invocations, hopen, List.getLast?_concat]

theorem ends_of_handler (hexecution : rt.targetExecution = some recovery.rounds.length)
    (hlast : recovery.LastOutcome P) : HistoryEnds rt recovery ∧ rt.openTarget = [] := by
  obtain ⟨record, handler, hrecord, hhandler, -⟩ := hlast
  have hrounds := rounds_of_recovery h.recovery_eq
  have hopen : rt.openTarget = [] := by
    refine openTarget_of_execution hexecution ?_
    rw [hrounds]
    exact Nat.ne_of_lt (Nat.lt_succ_self _)
  refine ⟨.handler record handler hrecord hhandler ?_ hopen, hopen⟩
  rw [StepRuntimeState.invocations, hopen, List.append_nil, hrounds,
    ← List.dropLast_append_getLast? record hrecord, List.flatMap_append]
  simp only [List.flatMap_singleton, invocations, hhandler, Option.map_some,
    Option.toList_some, (h.aligned.last hrecord).1]
  rw [List.getLast?_append]
  simp [List.dropLast_append_getLast? record hrecord]

/-- The history of a settled node ends with an execution or with the last handler, as the end
of the recovery says. -/
theorem history : HistoryEnds rt recovery ∧
    (disposition.handlerOutcome recovery.rounds.length = none ↔ rt.openTarget ≠ []) := by
  have hends := h.ends
  have hexecution : ∀ {n : TargetExecutionNumber}, Executes rt recovery n →
      HistoryEnds rt recovery ∧
        ((none : Option RecoveryHandlerOutcomeV1) = none ↔ rt.openTarget ≠ []) := by
    intro n hexecutes
    obtain ⟨hhistory, hopen⟩ := h.ends_of_executes hexecutes
    exact ⟨hhistory, fun _ => hopen, fun _ => rfl⟩
  cases disposition with
  | recovered => exact hexecution hends
  | exhausted => exact hexecution hends.1
  | gaveUp | handlerFailed =>
    obtain ⟨hin, hlast⟩ := hends
    obtain ⟨hhistory, hopen⟩ := h.ends_of_handler (hin.number ▸ hin.execution) hlast
    rw [handlerOutcome, if_pos hin.number]
    exact ⟨hhistory, nofun, fun h => absurd hopen h⟩
  | cancelled _ active =>
    cases active with
    | target => exact hexecution hends.2
    | recoveryHandler =>
      obtain ⟨hnumber, -, htarget, hlast⟩ := hends
      obtain ⟨hhistory, hopen⟩ := h.ends_of_handler htarget hlast
      rw [handlerOutcome, if_pos hnumber]
      exact ⟨hhistory, nofun, fun h => absurd hopen h⟩

/-- The failure that ended a recovery is that of the last handler. -/
theorem endingHandlerFailure_eq {round : RecoveryRoundNumber} {phase : RecoveryHandlerFailurePhase}
    {cause : StepFailureCause} (hround : round = recovery.rounds.length)
    (hrecord : recovery.rounds.getLast? = some record) (hhandler : record.handler = some handler)
    (houtcome : handler.outcome = .failed phase cause) :
    endingHandlerFailure recovery round phase = some cause := by
  have hnumber : record.number = round := (h.aligned.last hrecord).1.trans hround.symm
  have hsome : (recovery.rounds.find? (fun candidate =>
      decide (candidate.number = round))).isSome = true :=
    List.find?_isSome.mpr ⟨record, List.mem_of_getLast? hrecord, decide_eq_true hnumber⟩
  obtain ⟨found, hfound⟩ := Option.isSome_iff_exists.mp hsome
  have hmatch := List.find?_some hfound
  have heq := h.eq_last_of_number hrecord (List.mem_of_find?_eq_some hfound)
    ((of_decide_eq_true hmatch).trans hround)
  simp only [endingHandlerFailure, hfound, heq, Option.bind_some, hhandler, houtcome, if_true]

variable (h : SettledEvidence rt recovery disposition records)
include h

/-- The failed execution of every round has settled. -/
theorem failed_settled (hmem : record ∈ recovery.rounds) :
    (⟨record.failedExecution.invocation.transitionSequence, .target, some record.number, none,
      .settled⟩ : InvocationKey) ∈ rt.evidence := by
  have hle := (h.aligned.execution_eq hmem).2
  have hin := h.failed_mem_invocations hmem
  have hne : ∀ {action : ActionId} {active : ActiveStepInvocation},
      active ≠ .target record.number →
      (record.failedExecution.invocation, ActiveStepInvocation.target record.number) ≠
        (action, active) :=
    fun hactive heq => hactive (congrArg Prod.snd heq).symm
  cases h.history.1 with
  | execution _ hlast =>
    refine settled_mem_evidence hin hlast (hne fun heq => ?_)
    have hnumbers : recovery.rounds.length + 1 = record.number :=
      ActiveStepInvocation.target.inj heq
    rw [← hnumbers] at hle
    exact Nat.not_succ_le_self _ hle
  | handler _ _ _ _ hlast =>
    exact settled_mem_evidence hin hlast (hne nofun)

/-- The handler of every round has ended, cancelled only if it was so recorded. -/
theorem handler_ended (hmem : record ∈ recovery.rounds) (hhandler : record.handler = some handler) :
    (⟨handler.invocation.transitionSequence, .recoveryHandler, none, some record.number,
      if handler.outcome.codeV1 = some .cancelled then .cancelled else .settled⟩ :
        InvocationKey) ∈ rt.evidence := by
  have hin := h.handler_mem_invocations hmem hhandler
  have hcode := h.code hmem hhandler
  obtain ⟨hhistory, hopen⟩ := h.history
  have hagrees := dispositionAgrees_cancelled h.agrees
  by_cases hstate : rt.state.kind = .cancelled
  · obtain ⟨round, active, rfl⟩ := hagrees.mp hstate
    cases hhistory with
    | execution _ hlast htarget =>
      have hnone := hopen.mpr (by rw [htarget]; exact List.cons_ne_nil _ _)
      cases active with
      | target =>
        rw [hcode, if_neg (by simp [handlerOutcome])]
        exact settled_mem_evidence hin hlast (fun heq => nomatch congrArg Prod.snd heq)
      | recoveryHandler =>
        rw [handlerOutcome, if_pos h.ends.1] at hnone
        cases hnone
    | handler _ lastHandler hrecord hlastHandler hlast hnone =>
      cases active with
      | target => exact absurd hnone (hopen.mp rfl)
      | recoveryHandler =>
        rw [hcode, handlerOutcome, h.ends.1]
        by_cases hnumber : record.number = recovery.rounds.length
        · obtain rfl := h.eq_last_of_number hrecord hmem hnumber
          obtain rfl : lastHandler = handler :=
            Option.some.inj (hlastHandler.symm.trans hhandler)
          have hkey := last_mem_evidence hlast
          rw [if_pos hstate] at hkey
          simp only [hnumber, Option.getD_some, if_true]
          exact hkey
        · rw [if_neg (Ne.symm hnumber), if_neg (by simp)]
          refine settled_mem_evidence hin hlast (fun heq => hnumber ?_)
          exact ActiveStepInvocation.recoveryHandler.inj (congrArg Prod.snd heq)
  · have hsettled : handler.outcome.codeV1 ≠ some .cancelled := by
      rw [hcode]
      cases disposition with
      | cancelled round active => exact absurd (hagrees.mpr ⟨round, active, rfl⟩) hstate
      | recovered | exhausted => simp [handlerOutcome]
      | gaveUp | handlerFailed =>
        rw [handlerOutcome]
        split_ifs <;> simp
    rw [if_neg hsettled]
    obtain ⟨state, hkey, hsettles⟩ := exists_evidence hin
    exact hsettles hstate ▸ hkey

/-- Unless its handler ended the recovery, a round was followed by another execution. -/
theorem next_execution (hmem : record ∈ recovery.rounds)
    (hnone : disposition.handlerOutcome record.number = none) :
    ∃ action, (action, .target (record.number + 1)) ∈ rt.invocations := by
  by_cases hnumber : record.number = recovery.rounds.length
  · rw [hnumber] at hnone ⊢
    obtain ⟨hhistory, hopen⟩ := h.history
    cases hhistory with
    | execution action hlast => exact ⟨action, List.mem_of_getLast? hlast⟩
    | handler _ _ _ _ _ htarget =>
      exact absurd htarget (hopen.mp hnone)
  · -- the next round was opened by that execution
    obtain ⟨i, hi⟩ := List.mem_iff_getElem?.mp hmem
    have hat := (h.aligned.number_at hi).1
    have hlt : i + 1 < recovery.rounds.length := by
      have hlt : i < recovery.rounds.length := (List.getElem?_eq_some_iff.mp hi).1
      have hne : i + 1 ≠ recovery.rounds.length := fun heq => hnumber (hat.trans heq)
      omega
    have hnext := List.getElem?_eq_getElem hlt
    have hin := h.failed_mem_invocations (List.getElem_mem hlt)
    rw [(h.aligned.number_at hnext).1] at hin
    rw [hat]
    exact ⟨_, hin⟩

section

variable (hmem : record ∈ recovery.rounds) (hpublished : RoundPublished record round)
  (hkind : summary.handlerKind = recovery.handlerKind)
  (htermination : ∀ n, terminalHandlerOutcome summary.termination n = disposition.handlerOutcome n)
include hmem hpublished hkind htermination

/-- The handler check of a round passes and yields the identity of the handler. -/
theorem checkRoundHandler_eq : checkRoundHandler records summary record.number round =
      some (record.handler.map (·.invocation.transitionSequence)) := by
  have hkinds := h.exact.kinds record hmem
  have hagree := hpublished.handler
  unfold checkRoundHandler
  rw [hkind, ← hkinds]
  cases hhandler : record.handler with
  | none =>
    cases hround : round.handler with
    | none => rfl
    | some =>
      rw [hhandler, hround] at hagree
      exact hagree.elim
  | some handler =>
    cases hround : round.handler with
    | none =>
      rw [hhandler, hround] at hagree
      exact hagree.elim
    | some published =>
      rw [hhandler, hround] at hagree
      have hcode := h.code hmem hhandler
      have houtcome : published.outcome =
          (disposition.handlerOutcome record.number).getD .recheck :=
        Option.some.inj (hagree.outcome.symm.trans hcode)
      have hlt : round.failedExecution.invocationId < published.invocationId := by
        rw [hpublished.invocation, hagree.invocation]
        exact h.id_lt_of_rank_lt (h.failed_mem_invocations hmem)
          (h.handler_mem_invocations hmem hhandler) (Nat.lt_succ_self _)
      have hfound : (records.find? (fun invocation =>
          decide (invocation.invocationId = published.invocationId))).any (fun invocation =>
            decide (invocation.role = .recoveryHandler) &&
              decide (invocation.recoveryRound = some record.number) &&
              decide (invocation.state =
                if published.outcome = .cancelled then .cancelled else .settled)) = true := by
        have hended := h.handler_ended hmem hhandler
        rw [hagree.outcome] at hended
        obtain ⟨ended, hin, hkey⟩ := h.exists_record hended
        have hid := congrArg InvocationKey.invocationId hkey
        refine find?_any hin (decide_eq_true (hid.trans hagree.invocation.symm))
          (fun other hother hmatch => ?_)
        have heq := evidence_unique h.ids (h.key_mem hother) hended
          ((of_decide_eq_true hmatch).trans hagree.invocation)
        change (decide (other.key.role = _) && decide (other.key.recoveryRound = _) &&
          decide (other.key.state = _)) = true
        simp [heq]
      simp only [Option.map_some, htermination]
      rw [if_pos ⟨hagree.kind.symm, hlt, houtcome, hagree.valid, hfound⟩, hagree.invocation]

/-- Every round passes its check. -/
theorem checkRound_eq_true : checkRound records summary record.number round = true := by
  have hexecution := (h.aligned.execution_eq hmem).1
  have hfailed : records.any (fun invocation =>
      decide (invocation.invocationId = round.failedExecution.invocationId) &&
        decide (invocation.role = .target) &&
        decide (invocation.targetExecution = some record.number) &&
        decide (invocation.state = .settled)) = true := by
    obtain ⟨failed, hin, hkey⟩ := h.exists_record (h.failed_settled hmem)
    refine List.any_eq_true.mpr ⟨failed, hin, ?_⟩
    change (decide (failed.key.invocationId = _) && decide (failed.key.role = _) &&
      decide (failed.key.targetExecution = _) && decide (failed.key.state = _)) = true
    simp [hkey, hpublished.invocation]
  unfold checkRound
  rw [h.checkRoundHandler_eq hmem hpublished hkind htermination, hfailed, hpublished.number,
    hpublished.execution, hexecution, hpublished.valid, htermination]
  simp only [decide_true, Bool.and_self, Bool.true_and, Bool.or_eq_true]
  cases hterminal : disposition.handlerOutcome record.number with
  | some => exact Or.inl rfl
  | none =>
    refine Or.inr ?_
    obtain ⟨action, hnext⟩ := h.next_execution hmem hterminal
    obtain ⟨state, hnextKey, -⟩ := exists_evidence hnext
    obtain ⟨next, hin, hkey⟩ := h.exists_record hnextKey
    refine find?_any hin ?_ (fun other hother hmatch => ?_)
    · change (decide (next.key.role = _) && decide (next.key.targetExecution = _)) = true
      simp [hkey, invocationKey]
    obtain ⟨hrole, hexecution⟩ : other.key.role = .target ∧
        other.key.targetExecution = some (record.number + 1) := by simpa using hmatch
    change decide (_ < other.key.invocationId) = true
    obtain ⟨⟨action', active⟩, hother, state', heq⟩ := mem_evidence (h.key_mem hother)
    rw [heq] at hrole hexecution ⊢
    cases active with
    | recoveryHandler => cases hrole
    | target n =>
      obtain rfl : n = record.number + 1 := Option.some.inj hexecution
      refine decide_eq_true ?_
      -- the invocation before the next execution is the handler, if there is one
      cases hhandler : record.handler with
      | none =>
        rw [Option.map_none, Option.getD_none, hpublished.invocation]
        exact h.id_lt_of_rank_lt (h.failed_mem_invocations hmem) hother
          (Nat.mul_lt_mul_of_pos_left (Nat.lt_succ_self _) (by decide))
      | some =>
        rw [Option.map_some, Option.getD_some]
        exact h.id_lt_of_rank_lt (h.handler_mem_invocations hmem hhandler) hother
          (Nat.lt_succ_self (2 * record.number + 1))

end

/-- The largest number of an execution. -/
theorem executions_range : ∃ n, recordedExecutions records = List.range' 1 n ∧ 0 < n ∧
      (n = recovery.rounds.length + 1 ∧ rt.openTarget ≠ [] ∨
        n = recovery.rounds.length ∧ rt.openTarget = []) := by
  have hpos := List.length_pos_iff.mpr h.rounds_ne
  rw [h.recordedExecutions_eq]
  cases h.history.1 with
  | execution _ _ hopen =>
    refine ⟨recovery.rounds.length + 1, ?_, Nat.succ_pos _, Or.inl ⟨rfl, ?_⟩⟩
    · rw [hopen, List.range'_1_concat, Nat.add_comm 1]
      rfl
    · rw [hopen]
      exact List.cons_ne_nil _ _
  | handler _ _ _ _ _ hopen =>
    refine ⟨recovery.rounds.length, ?_, hpos, Or.inr ⟨rfl, hopen⟩⟩
    rw [hopen, List.filterMap_nil, List.append_nil]

theorem checkNumbers_eq_true (hkind : summary.handlerKind = recovery.handlerKind)
    (hlength : summary.rounds.length = recovery.rounds.length)
    (hn : recordedExecutions records = List.range' 1 n) :
    checkNumbers records summary n = true := by
  unfold checkNumbers
  rw [hn, insertionSort_range', decide_eq_true rfl, Bool.true_and, hkind, h.recordedRounds_eq,
    hlength]
  cases recovery.handlerKind with
  | none => rfl
  | some => exact decide_eq_true (insertionSort_range' _)

/-- The summary of a settled node can be built, and it agrees with the record. -/
theorem summary_ok : ∃ summary, stepRecoverySummaryV1 (some recovery) = .ok (some summary) ∧
    summary.schemaVersion = 1 ∧ summary.configuredRetries = recovery.configuredRounds ∧
    summary.handlerKind = recovery.handlerKind ∧
    List.Forall₂ RoundPublished recovery.rounds summary.rounds ∧
    terminationV1 recovery disposition = .ok summary.termination := by
  obtain ⟨summaries, hsummaries, hall⟩ := publishedRounds_ok h.exact
    (fun record hmem handler hhandler => by
      rw [h.code hmem hhandler]
      rfl) true
  obtain ⟨termination, htermination⟩ : ∃ t, terminationV1 recovery disposition = .ok t := by
    have hends := h.ends
    cases disposition with
    | recovered | exhausted | gaveUp => exact ⟨_, rfl⟩
    | cancelled _ active => cases active <;> exact ⟨_, rfl⟩
    | handlerFailed round phase =>
      obtain ⟨hin, record, handler, hrecord, hhandler, cause, houtcome⟩ := hends
      have hlawful := h.exact.reported record (List.mem_of_getLast? hrecord) handler hhandler
      rw [houtcome] at hlawful
      obtain ⟨failure, rfl⟩ := hlawful
      refine ⟨.handlerFailed round ⟨phase, failure.causeV1⟩, ?_⟩
      simp only [terminationV1, h.endingHandlerFailure_eq hin.number hrecord hhandler houtcome]
      rfl
  refine ⟨⟨1, recovery.configuredRounds, recovery.handlerKind, summaries, termination⟩, ?_, rfl,
    rfl, rfl, hall, htermination⟩
  have hne : recovery.rounds.isEmpty = false := by
    cases hrounds : recovery.rounds with
    | nil => exact absurd hrounds h.rounds_ne
    | cons => rfl
  simp only [stepRecoverySummaryV1, hne, hsummaries, h.decided]
  simp [htermination, Bind.bind, Except.bind]

/-- The end of the recovery goes with the state of the step. -/
theorem checkTermination_eq_true (hstate : stepStateV1 rt.state = .ok (step.state, step.detail))
    (hinvocations : step.invocations = records)
    (hconfigured : summary.configuredRetries = recovery.configuredRounds)
    (hrounds : List.Forall₂ RoundPublished recovery.rounds summary.rounds)
    (htermination : terminationV1 recovery disposition = .ok summary.termination)
    (hn : n = recovery.rounds.length + 1 ∧ rt.openTarget ≠ [] ∨
      n = recovery.rounds.length ∧ rt.openTarget = []) :
    checkTermination step summary n = true := by
  have hlength := hrounds.length_eq
  obtain ⟨hhistory, hopen⟩ := h.history
  have hends := h.ends
  have hstepState := dispositionAgrees_stepState h.agrees hstate
  have hexecuted : rt.openTarget ≠ [] → n = recovery.rounds.length + 1 :=
    fun hne => (hn.resolve_right fun hclosed => hne hclosed.2).1
  have hclosed : rt.openTarget = [] → n = recovery.rounds.length :=
    fun heq => (hn.resolve_left fun hne => hne.2 heq).1
  cases disposition with
  | recovered k =>
    have ht : summary.termination = .recovered k := (Except.ok.inj htermination).symm
    have hk : k = recovery.rounds.length + 1 := hends.number
    simp [checkTermination, ht, hstepState, hk, ← hlength, hexecuted (hopen.mp rfl)]
  | exhausted k =>
    have ht : summary.termination = .exhausted k := (Except.ok.inj htermination).symm
    have hk : k = recovery.rounds.length + 1 := hends.1.number
    simp [checkTermination, ht, hstepState, hk, ← hlength, hexecuted (hopen.mp rfl), hconfigured,
      hends.2]
  | gaveUp round =>
    obtain ⟨hin, hlast⟩ := hends
    have ht : summary.termination = .gaveUp round := (Except.ok.inj htermination).symm
    have hdetail := lastFailure_eq hin hstate hrounds
    obtain ⟨-, handler, published, -, -, ⟨text, reason, houtcome⟩, hpublished, hlastPublished⟩ :=
      lastHandler_published hlast hrounds
    have hcode : published.outcome = .gaveUp := by
      have hcode := hpublished.outcome
      rw [houtcome] at hcode
      exact (Option.some.inj hcode).symm
    have hnone : rt.openTarget = [] :=
      not_not.mp (mt hopen.mpr (by simp [handlerOutcome, hin.number]))
    simp [checkTermination, ht, hstepState, hin.number, ← hlength, hclosed hnone, hlastPublished,
      hcode, hdetail]
  | handlerFailed round phase =>
    obtain ⟨hin, hlast⟩ := hends
    have hdetail := lastFailure_eq hin hstate hrounds
    obtain ⟨record, handler, published, hrecord, hhandler, ⟨cause, houtcome⟩, hpublished,
      hlastPublished⟩ := lastHandler_published hlast hrounds
    obtain ⟨failure, hfailure, hpublishedFailure⟩ := hpublished.failure phase cause houtcome
    have ht : summary.termination = .handlerFailed round failure := by
      simp only [terminationV1,
        h.endingHandlerFailure_eq hin.number hrecord hhandler houtcome, hfailure] at htermination
      exact (Except.ok.inj htermination).symm
    have hcode : published.outcome = .failed := by
      have hcode := hpublished.outcome
      rw [houtcome] at hcode
      exact (Option.some.inj hcode).symm
    have hnone : rt.openTarget = [] :=
      not_not.mp (mt hopen.mpr (by simp [handlerOutcome, hin.number]))
    simp [checkTermination, ht, hstepState, hin.number, ← hlength, hclosed hnone, hlastPublished,
      hcode, hpublishedFailure, hdetail]
  | cancelled round active =>
    have hkind := (dispositionAgrees_cancelled h.agrees).mpr ⟨round, active, rfl⟩
    have hany : ∀ p : InvocationKey → Bool, (∃ key ∈ rt.evidence, p key = true) →
        step.invocations.any (fun invocation => p invocation.key) = true := by
      rintro p ⟨key, hkey, hp⟩
      obtain ⟨record, hmem, rfl⟩ := h.exists_record hkey
      exact List.any_eq_true.mpr ⟨record, hinvocations ▸ hmem, hp⟩
    cases active with
    | target k =>
      obtain ⟨hround, hexecutes⟩ := hends
      have hk : k = recovery.rounds.length + 1 := hexecutes.number
      have ht : summary.termination = .cancelled round .target (some k) :=
        (Except.ok.inj htermination).symm
      cases hhistory with
      | handler _ _ _ _ _ hnone => exact absurd hnone (hopen.mp rfl)
      | execution _ hlast =>
        have hkey := last_mem_evidence hlast
        rw [if_pos hkind] at hkey
        have hfound := hany (fun key => decide (key.role = .target) &&
          decide (key.state = .cancelled) &&
          decide (key.targetExecution = some (recovery.rounds.length + 1)))
          ⟨_, hkey, by simp [invocationKey]⟩
        simp only [List.any_eq_true, Bool.and_eq_true, decide_eq_true_eq] at hfound
        simp only [checkTermination, ht, hstepState, hround, hk, ← hlength,
          hexecuted (hopen.mp rfl)]
        simpa using hfound
    | recoveryHandler =>
      have hround := hends.1
      have ht : summary.termination = .cancelled round .recoveryHandler none :=
        (Except.ok.inj htermination).symm
      have hnot : ¬ rt.openTarget ≠ [] := mt hopen.mpr (by simp [handlerOutcome, hround])
      cases hhistory with
      | execution _ _ htarget =>
        exact absurd (by rw [htarget]; exact List.cons_ne_nil _ _) hnot
      | handler _ _ _ _ hlast =>
        have hkey := last_mem_evidence hlast
        rw [if_pos hkind] at hkey
        have hfound := hany (fun key => decide (key.role = .recoveryHandler) &&
          decide (key.state = .cancelled)) ⟨_, hkey, by simp [invocationKey]⟩
        simp only [List.any_eq_true, Bool.and_eq_true, decide_eq_true_eq] at hfound
        simp only [checkTermination, ht, hstepState, hround, ← hlength]
        simpa using hfound

end SettledEvidence

section Acceptance

variable {maximumStreamBytes : Nat}

/-- What is checked about a record by itself, apart from its key. -/
structure WellFormedRecord (formats : ResultFormats) (maximumStreamBytes : Nat)
    (record : RecoveryInvocationV1) : Prop where
  startedAt : formats.canonicalTimestamp record.startedAt = true
  finishedAt : formats.canonicalTimestamp record.finishedAt = true
  reference : record.diagnosticReference.all isCanonicalRelativePath = true
  diagnostics : ∀ diagnostic ∈ record.diagnostics,
    isCanonicalRelativePath diagnostic.reference = true ∧
      validStream formats diagnostic.stream maximumStreamBytes = true

variable (h : SettledEvidence rt recovery disposition records)
  (hpositive : ∀ invocation ∈ rt.invocations, invocation.1.transitionSequence ≠ 0)
  (hformed : ∀ record ∈ records, WellFormedRecord formats maximumStreamBytes record)
  (hbudget : (records.map retainedDiagnosticBytes).sum ≤ maximumRetainedStreamBytesPerRun)
include h hpositive hformed hbudget

/-- The records of a history are valid by themselves. -/
theorem SettledEvidence.validInvocations_eq_true :
    validInvocations formats maximumStreamBytes records = true := by
  have hids : records.map RecoveryInvocationV1.invocationId =
      rt.invocations.map (·.1.transitionSequence) := by
    rw [← evidence_ids, ← h.keys, List.map_map]
    rfl
  obtain ⟨n, hexecutions, -⟩ := h.executions_range
  simp only [validInvocations, Bool.and_eq_true, decide_eq_true_eq, List.all_eq_true]
  refine ⟨⟨⟨⟨fun record hmem => ?_, hids ▸ h.ids⟩, ?_⟩, ?_⟩, hbudget⟩
  · have hwell := hformed record hmem
    obtain ⟨⟨action, active⟩, hin, state, heq⟩ := mem_evidence (h.key_mem hmem)
    have hid : record.invocationId = action.transitionSequence := by
      have := congrArg InvocationKey.invocationId heq
      rwa [invocationKey_id] at this
    have hne : record.invocationId ≠ 0 := hid ▸ hpositive _ hin
    have hrole : record.role = (invocationKey state (action, active)).role :=
      congrArg InvocationKey.role heq
    have htarget : record.targetExecution =
      (invocationKey state (action, active)).targetExecution :=
      congrArg InvocationKey.targetExecution heq
    have hround : record.recoveryRound = (invocationKey state (action, active)).recoveryRound :=
      congrArg InvocationKey.recoveryRound heq
    simp only [validInvocation, hwell.startedAt, hwell.finishedAt, hwell.reference, hrole, htarget,
      hround, Bool.and_eq_true, List.all_eq_true, and_true]
    refine ⟨⟨⟨decide_eq_true hne, ?_⟩, ?_⟩, hwell.diagnostics⟩
    · cases active <;> rfl
    · cases active <;> rfl
  · rw [hexecutions]
    exact List.nodup_range'
  · rw [h.recordedRounds_eq]
    split_ifs
    · exact List.nodup_range'
    · exact List.nodup_nil

/-- The summary of a settled step and the records of its history are accepted together. -/
theorem validateStepRecovery_of_history
    (hconfigured : recovery.configuredRounds ≤ 10) (hrole : step.role = .step)
    (hinvocations : step.invocations = records)
    (hrecovery : stepRecoverySummaryV1 rt.recovery = .ok step.recovery)
    (hstate : stepStateV1 rt.state = .ok (step.state, step.detail)) :
    validateStepRecovery formats maximumStreamBytes step = true := by
  obtain ⟨summary, hsummary, hversion, hretries, hkind, hrounds, htermination⟩ := h.summary_ok
  have hstep : step.recovery = some summary := by
    rw [h.recovery_eq, hsummary] at hrecovery
    exact (Except.ok.inj hrecovery).symm
  obtain ⟨n, hexecutions, hpos, hn⟩ := h.executions_range
  have hlength := hrounds.length_eq
  have hsome := List.length_pos_iff.mpr h.rounds_ne
  have hbounded := h.aligned.bounded
  have hsummaryRounds : summary.rounds.isEmpty = false := by
    cases hlist : summary.rounds with
    | nil =>
      rw [hlist, List.length_nil] at hlength
      omega
    | cons => rfl
  have hrecords : records.isEmpty = false := by
    cases hlist : records with
    | nil =>
      rw [hlist, recordedExecutions, List.filterMap_nil] at hexecutions
      have := congrArg List.length hexecutions
      rw [List.length_range', List.length_nil] at this
      omega
    | cons => rfl
  have hcheck : checkRounds records summary 1 summary.rounds = true := by
    refine checkRounds_eq_true (fun i round hi => ?_)
    obtain ⟨record, hrecord, hpublished⟩ := forall₂_getElem? hrounds hi
    have hnumber := (h.aligned.number_at hrecord).1
    rw [Nat.add_comm 1, ← hnumber]
    exact h.checkRound_eq_true (List.mem_of_getElem? hrecord) hpublished hkind
      (terminationV1_handlerOutcome htermination)
  unfold validateStepRecovery
  rw [hinvocations, h.validInvocations_eq_true hpositive hformed hbudget, hstep, Bool.true_and]
  simp only [hrole, hversion, hretries, hsummaryRounds, hrecords, hcheck, hexecutions,
    max?_range' hpos, h.checkNumbers_eq_true hkind hlength.symm hexecutions,
    h.checkTermination_eq_true hstate hinvocations hretries hrounds htermination hn, ← hlength]
  simp only [decide_true, Bool.not_false, Bool.and_true, Bool.and_eq_true, decide_eq_true_eq]
  exact ⟨⟨trivial, by omega, hconfigured⟩, hbounded⟩

end Acceptance

variable {document : WorkflowDocument} {workflow : ValidatedWorkflow}
  {inputs : BTreeMap String ResolvedInput} {parallel transitions : Nat}
  {requirements : ComputedWorkflowCapacity}

/-- The capacity of a workflow counts every invocation that a node may need. -/
theorem BasicRequirements.node_invocations_le (haccepted : Accepted document workflow)
    (h : BasicRequirements ⟨workflow.steps.size, workflow.finalizers.size,
      (workflow.recoveries.values.map recoveryRounds).sum,
      (workflow.recoveries.values.map handlerRounds).sum⟩ requirements) {policy : RuntimeRecovery}
    (hd : (RuntimeDefinition.fromAdmitted workflow inputs parallel transitions).steps.get? id =
      some d) (hpolicy : d.recovery = some policy) :
    1 + policy.retries + (if policy.handlerKind.isSome then policy.retries else 0) ≤
      requirements.maximumInvocations := by
  rcases (nodes_get? (fun _ _ _ => haccepted.disjoint)).mp hd with
    ⟨step, hstep, rfl⟩ | ⟨finalizer, -, rfl⟩
  · obtain ⟨recovery, hrecovery, rfl⟩ := Option.map_eq_some_iff.mp hpolicy
    have hget : workflow.recoveries.get? id = some (some recovery) := by
      cases hrecoveries : workflow.recoveries.get? id with
      | none => rw [hrecoveries] at hrecovery; cases hrecovery
      | some =>
        rw [hrecoveries] at hrecovery
        exact congrArg some hrecovery
    have hmem := BTreeMap.mem_values_iff.mpr ⟨id, hget⟩
    have hrounds : recovery.retries ≤ (workflow.recoveries.values.map recoveryRounds).sum :=
      List.le_sum_of_mem (List.mem_map.mpr ⟨some recovery, hmem, rfl⟩)
    have hhandlers : (if recovery.handler.isSome then recovery.retries else 0) ≤
        (workflow.recoveries.values.map handlerRounds).sum :=
      List.le_sum_of_mem (List.mem_map.mpr ⟨some recovery, hmem, rfl⟩)
    have hsize : 0 < workflow.steps.size := by
      refine List.length_pos_of_mem (BTreeMap.get?_eq_some_iff.mp hstep)
    rw [h.invocations]
    dsimp only
    rw [Option.isSome_map]
    omega
  · cases hpolicy

/-- A round has one invocation, and another one for its handler. -/
theorem SettledEvidence.invocations_length_le (h : SettledEvidence rt recovery disposition records) :
    rt.invocations.length ≤ 1 + recovery.configuredRounds +
      (if recovery.handlerKind.isSome then recovery.configuredRounds else 0) := by
  have hrounds : (recovery.rounds.flatMap invocations).length =
      recovery.rounds.length * (1 + if recovery.handlerKind.isSome then 1 else 0) := by
    rw [List.length_flatMap, ← List.sum_replicate_nat, ← List.map_const']
    refine congrArg List.sum (List.map_congr_left (fun record hmem => ?_))
    rw [← h.exact.kinds record hmem, Option.isSome_map]
    unfold invocations
    cases record.handler <;> rfl
  have hbounded := h.aligned.bounded
  have hopen : rt.openTarget.length ≤ 1 := openTarget_length_le
  rw [StepRuntimeState.invocations, List.length_append, rounds_of_recovery h.recovery_eq, hrounds]
  split_ifs <;> omega

/-- The two streams of an invocation have at most the limit each. -/
theorem WellFormedRecord.retained_le {record : RecoveryInvocationV1}
    (h : WellFormedRecord formats limit record) (hstreams : record.diagnostics.length ≤ 2) :
    retainedDiagnosticBytes record ≤ 2 * limit := by
  have hlimit : ∀ diagnostic ∈ record.diagnostics, diagnostic.stream.retainedBytes ≤ limit := by
    intro diagnostic hmem
    have hvalid := (h.diagnostics diagnostic hmem).2
    simp only [validStream, Bool.and_eq_true, decide_eq_true_eq] at hvalid
    exact hvalid.1.1.1.2
  unfold retainedDiagnosticBytes
  have hsum := List.sum_le_card_nsmul (record.diagnostics.map (·.stream.retainedBytes)) limit
    (by simpa using hlimit)
  rw [List.length_map, Nat.nsmul_eq_mul] at hsum
  exact hsum.trans (Nat.mul_le_mul_right limit hstreams)

/-- The records of one node stay within the budget of a run. -/
theorem BasicRequirements.retained_sum_le {counts : CapacityCounts}
    (h : BasicRequirements counts requirements)
    (hlimit : limit ≤ requirements.maximumRetainedBytesPerInvocation)
    (hlength : records.length ≤ requirements.maximumInvocations)
    (hrecords : ∀ record ∈ records, retainedDiagnosticBytes record ≤ 2 * limit) :
    (records.map retainedDiagnosticBytes).sum ≤ maximumRetainedStreamBytesPerRun := by
  have hsum := List.sum_le_card_nsmul (records.map retainedDiagnosticBytes) (2 * limit)
    (by simpa using hrecords)
  rw [List.length_map, Nat.nsmul_eq_mul] at hsum
  have hnative := h.native_le
  rw [h.native] at hnative
  calc (records.map retainedDiagnosticBytes).sum
      ≤ records.length * (2 * limit) := hsum
    _ ≤ requirements.maximumInvocations * (2 * requirements.maximumRetainedBytesPerInvocation) :=
        Nat.mul_le_mul hlength (Nat.mul_le_mul_left 2 hlimit)
    _ = 2 * (requirements.maximumInvocations * requirements.maximumRetainedBytesPerInvocation) :=
        Nat.mul_left_comm _ _ _
    _ ≤ maximumRetainedStreamBytesPerRun := Nat.mul_le_mul_left 2 hnative

variable {O D : Type} [ConditionOutput V] [ProvisionalStepResources O] {start : ExecutionStart D}
  {seed : ExecutionSeed V} {occurrences : List (Occurrence O StepFailureCause V D)}

/-- The recovery of a node that has ended in a run, with the records of its invocations. -/
theorem ledger_settledEvidence (hcoherent : start.definition.Coherent)
    (hd : start.definition.steps.get? id = some d)
    (hretries : ∀ policy ∈ d.recovery, policy.retries ≤ 10)
    (hrole : d.recovery.isSome = true → d.role = .step)
    (hlawful : ∀ occurrence ∈ occurrences, occurrence.Lawful)
    (hrt : (ledger start seed occurrences).state.steps.get? id = some rt)
    (hrounds : rt.rounds ≠ []) (hended : rt.state.isTerminal = true)
    (hkeys : records.map RecoveryInvocationV1.key = rt.evidence)
    (hids : (rt.invocations.map (·.1.transitionSequence)).Pairwise (· < ·)) :
    ∃ recovery disposition policy, SettledEvidence rt recovery disposition records ∧
      d.recovery = some policy ∧ recovery.configuredRounds = policy.retries ∧
      recovery.handlerKind = policy.handlerKind := by
  obtain ⟨hbook, hrecorded⟩ := ledger_recorded hcoherent hd hretries hrole hlawful hrt
  cases hrecovery : rt.recovery with
  | none => exact absurd (rounds_of_none hrecovery) hrounds
  | some recovery =>
    have hne : recovery.rounds ≠ [] := rounds_of_recovery hrecovery ▸ hrounds
    have hinv := hbook.recovery recovery hrecovery
    have hexact := hrecorded.exact recovery hrecovery
    obtain ⟨disposition, hdecided⟩ :=
      Option.isSome_iff_exists.mp ((hinv.decided hended).mpr hne)
    rcases (ledger_reachable start seed hcoherent occurrences).policy hd hrt with
      hpolicy | ⟨hnone, -⟩
    · rw [StepRuntimeState.policy, hrecovery] at hpolicy
      obtain ⟨policy, hdeclared, heq⟩ := Option.map_eq_some_iff.mp hpolicy.symm
      obtain ⟨hconfigured, hkind⟩ := Prod.mk.inj heq
      exact ⟨recovery, disposition, policy, ⟨hrecovery, hne, hinv.aligned, hexact.rounds,
        hrecorded, hdecided, hexact.ends disposition hdecided, hinv.agrees disposition hdecided,
        hkeys, hids⟩, hdeclared, hconfigured.symm, hkind.symm⟩
    · cases hnone.symm.trans hrecovery

end ScherzoCloud.Workflow
