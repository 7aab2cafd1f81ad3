import ScherzoCloud.Workflow.Observation
import ScherzoCloud.Workflow.RecoveryHistory
import ScherzoCloud.Workflow.FailureCauses

/-!
# The history of a recovery, as it is observed

An observer sees a step only through its transitions, each with a summary from the state
after the reduction.  What a summary says about the invocations of the step is the active
invocation and, for some transitions, the execution that has just ended.
-/

namespace ScherzoCloud.Workflow

open Collections
open StepRuntimeState (rounds_of_recovery openTarget_of_target invocations)

variable {O V D : Type} {id : String} {rt rt₁ : StepRuntimeState StepFailureCause V}
  {source target : StepStateKind}
  {report : (ActionId × ActiveStepInvocation) × Option (ActionId × ActiveStepInvocation)}
  {record : RecoveryRoundRecord StepFailureCause} {phase : FailurePhase} {cause : StepFailureCause}
  {detail : FailureDetail}

/-- What the summary of a step reports about its invocations: the active one and, if there is
one, the one that has just ended. -/
def reportedInvocations : Option ObservedStepTransition →
    Option ((ActionId × ActiveStepInvocation) × Option (ActionId × ActiveStepInvocation))
  | some (.recovery active activeInvocationId settledInvocation _ _ _ _) =>
    some ((activeInvocationId, active), settledInvocation)
  | _ => none

/-- The execution that a transition of a node in a recovery reports to have ended. -/
def endedTarget (source : StepStateKind) (last : RecoveryRoundRecord StepFailureCause) :
    Option (ActionId × ActiveStepInvocation) :=
  if source = .running ∨ source = .capturingOutputs then
    some (last.failedExecution.invocation, .target last.failedExecution.executionNumber)
  else none

/-- The same, from the state of the node. -/
def nodeReport (source target : StepStateKind) (rt : StepRuntimeState StepFailureCause V) :
    Option ((ActionId × ActiveStepInvocation) × Option (ActionId × ActiveStepInvocation)) :=
  if target.isWorking then
    rt.rounds.getLast?.bind (fun last =>
      rt.activeInvocation.bind (fun active =>
        (rt.activeInvocationId active).map (fun action =>
          ((action, active), endedTarget source last))))
  else none

theorem reportedInvocations_observedState (target : StepStateKind) (state : StepState V) :
    reportedInvocations (observedState target state) = none := by
  unfold observedState
  cases state <;> first | rfl | (dsimp only; split_ifs <;> rfl)

theorem reportedInvocations_eq (source target : StepStateKind)
    (rt : StepRuntimeState StepFailureCause V) :
    reportedInvocations ((observedRecovery source target rt).or (observedState target rt.state)) =
      nodeReport source target rt := by
  have hnone := reportedInvocations_observedState target rt.state
  unfold observedRecovery nodeReport StepRuntimeState.rounds
  by_cases hworking : target.isWorking = true
  · rw [if_pos hworking, if_pos hworking]
    cases rt.recovery with
    | none => exact hnone
    | some recovery =>
      dsimp only [Option.bind_eq_bind, Option.bind_some, Option.map_some, Option.getD_some]
      cases recovery.rounds.getLast? with
      | none => exact hnone
      | some =>
        dsimp only [Option.bind_some]
        cases rt.activeInvocation with
        | none => exact hnone
        | some active =>
          dsimp only [Option.bind_some]
          cases rt.activeInvocationId active with
          | none => exact hnone
          | some => rfl
  · rw [if_neg hworking, if_neg hworking]
    exact hnone

theorem reportedInvocations_step {state : RuntimeState StepFailureCause V D}
    (hrt : state.steps.get? id = some rt) (sequence : TransitionSequence) (role : WorkflowNodeRole)
    (policy : FailurePolicy) (source target : StepStateKind) : reportedInvocations
        (observedStepTransition (.step sequence id role policy source target) state) =
      nodeReport source target rt := by
  rw [← reportedInvocations_eq]
  unfold observedStepTransition
  dsimp only
  rw [hrt]
  rfl

theorem nodeReport_eq_some_iff :
    nodeReport source target rt = some report ↔ target.isWorking = true ∧
      ∃ last active action, rt.rounds.getLast? = some last ∧ rt.activeInvocation = some active ∧
        rt.activeInvocationId active = some action ∧
        report = ((action, active), endedTarget source last) := by
  unfold nodeReport
  split_ifs with hworking
  · simp only [Option.bind_eq_some_iff, Option.map_eq_some_iff, hworking, true_and]
    constructor
    · rintro ⟨last, hlast, active, hactive, action, haction, rfl⟩
      exact ⟨last, active, action, hlast, hactive, haction, rfl⟩
    · rintro ⟨last, active, action, hlast, hactive, haction, rfl⟩
      exact ⟨last, hlast, active, hactive, action, haction, rfl⟩
  · simp [hworking]

/-- A step that was not recovered yet reports nothing. -/
theorem nodeReport_of_no_rounds (h : rt.rounds = []) : nodeReport source target rt = none := by
  unfold nodeReport
  rw [h]
  exact ite_self _

theorem nodeReport_of_inactive (h : rt.activeInvocation = none) :
    nodeReport source target rt = none := by
  unfold nodeReport
  rw [h]
  cases rt.rounds.getLast? <;> exact ite_self _

/-- One transition of a step, as the observer meets it.  The summary is taken from the state
`last` after the reduction; `met` is false if the report of the first execution is missing. -/
inductive Tracked (met : Prop) (last rt : StepRuntimeState StepFailureCause V) :
    StepStateKind × StepStateKind → StepRuntimeState StepFailureCause V → Prop
  | quiet {source target : StepStateKind} {rt₁ : StepRuntimeState StepFailureCause V}
      (hrounds : rt₁.rounds = [] ↔ rt.rounds = [])
      (hinvocations : rt.rounds ≠ [] → rt₁.invocations = rt.invocations)
      (hlive : rt.state.isTerminal = false) (hlive₁ : rt₁.state.isTerminal = false)
      (htarget : target.endsExecution = false)
      (hreport : ∀ report ∈ nodeReport source target last, rt.rounds ≠ [] ∧
        rt.invocations.getLast? = some report.1 ∧
        ∀ invocation ∈ report.2, invocation ∈ rt.invocations.dropLast) :
      Tracked met last rt (source, target) rt₁
  | started {source target : StepStateKind} {rt₁ : StepRuntimeState StepFailureCause V}
      {invocation : ActionId × ActiveStepInvocation}
      {settled : Option (ActionId × ActiveStepInvocation)} (hrounds : rt₁.rounds ≠ [])
      (hinvocations : rt₁.invocations = rt.invocations ++ [invocation])
      (hlive : rt.state.isTerminal = false) (hlive₁ : rt₁.state.isTerminal = false)
      (htarget : target.endsExecution = false)
      (hreport : nodeReport source target last = some (invocation, settled))
      (hsettled : ∀ ended ∈ settled, rt.invocations.getLast? = some ended)
      (hmissing : rt.rounds = [] → settled = none → ¬ met) :
      Tracked met last rt (source, target) rt₁
  | ended {source target : StepStateKind} {rt₁ : StepRuntimeState StepFailureCause V}
      (hrounds : rt₁.rounds = [] ↔ rt.rounds = [])
      (hinvocations : rt.rounds ≠ [] → rt₁.invocations = rt.invocations)
      (hlive : rt.state.isTerminal = false) (hended : rt₁.state.isTerminal = true)
      (hkind : rt₁.state.kind = target)
      (htarget : rt.rounds ≠ [] → target.endsExecution = true)
      (hreport : nodeReport source target last = none) :
      Tracked met last rt (source, target) rt₁

/-- The transitions of a step in one reduction. -/
inductive TrackedMoves (met : Prop) (last : StepRuntimeState StepFailureCause V) :
    StepRuntimeState StepFailureCause V → List (StepStateKind × StepStateKind) → Prop
  | done {rt : StepRuntimeState StepFailureCause V} (hhistory : rt.SameHistory last)
      (hstate : last.state = rt.state) : TrackedMoves met last rt []
  | step {rt rt₁ : StepRuntimeState StepFailureCause V}
      {move : StepStateKind × StepStateKind} {moves : List (StepStateKind × StepStateKind)}
      (h : Tracked met last rt move rt₁) (hleading : rt.invocations <+: last.invocations)
      (hrest : TrackedMoves met last rt₁ moves) : TrackedMoves met last rt (move :: moves)

variable {met : Prop} {last : StepRuntimeState StepFailureCause V}
  {move : StepStateKind × StepStateKind}

theorem Tracked.moves (h : Tracked met last rt move last)
    (hleading : rt.invocations <+: last.invocations) : TrackedMoves met last rt [move] :=
  .step h hleading (.done (.refl last) rfl)

/-- The invocations only grow in a reduction. -/
theorem TrackedMoves.invocations_prefix {moves : List (StepStateKind × StepStateKind)}
    (h : TrackedMoves met last rt moves) : rt.invocations <+: last.invocations := by
  cases h with
  | done hhistory => rw [hhistory.invocations]
  | step _ hleading => exact hleading

/-- The invocations that a report names are in the history. -/
theorem Tracked.report_mem (h : Tracked met last rt (source, target) rt₁)
    (hreport : nodeReport source target last = some report) :
    report.1 ∈ rt₁.invocations ∧ ∀ ended ∈ report.2, ended ∈ rt₁.invocations := by
  cases h with
  | quiet _ hinvocations _ _ _ hquiet =>
    obtain ⟨hne, hlast, hended⟩ := hquiet report hreport
    rw [hinvocations hne]
    exact ⟨List.mem_of_getLast? hlast, fun ended hmem => List.dropLast_subset _ (hended ended hmem)⟩
  | started _ hinvocations _ _ _ hstarted hsettled =>
    obtain rfl := Option.some.inj (hstarted.symm.trans hreport)
    rw [hinvocations]
    exact ⟨List.mem_append_right _ (List.mem_singleton_self _),
      fun ended hmem => List.mem_append_left _ (List.mem_of_getLast? (hsettled ended hmem))⟩
  | ended _ _ _ _ _ _ hnone => cases hnone.symm.trans hreport

/-- The start of the first execution of a step that can recover is reported to have failed. -/
def firstStartFails (step : String) (rt : StepRuntimeState StepFailureCause V) :
    Occurrence O StepFailureCause V D → Bool
  | .stepStartFailed id action _ =>
    decide (id = step) && decide (rt.currentAction = some action) && rt.recovery.isSome &&
      rt.rounds.isEmpty
  | _ => false

variable {d : RuntimeStep}

theorem recovery_of_rounds (h : rt.rounds.getLast? = some record) :
    ∃ recovery, rt.recovery = some recovery ∧ rt.rounds = recovery.rounds := by
  cases hrecovery : rt.recovery with
  | none => rw [StepRuntimeState.rounds_of_none hrecovery] at h; cases h
  | some recovery => exact ⟨recovery, rfl, rounds_of_recovery hrecovery⟩

/-- While an execution after the first one is active, it is the last invocation. -/
theorem invocations_of_target (hbook : NodeBookkeeping d rt) {n : TargetExecutionNumber}
    {action : ActionId} (hlast : rt.rounds.getLast? = some record)
    (hactive : rt.activeInvocation = some (.target n)) (haction : rt.targetInvocation = some action)
    : rt.invocations =
      rt.rounds.flatMap RecoveryRoundRecord.invocations ++ [(action, .target n)] := by
  obtain ⟨recovery, hrecovery, hrounds⟩ := recovery_of_rounds hlast
  obtain ⟨hexecution, hn, -⟩ := (hbook.recovery recovery hrecovery).target n hactive
  rw [invocations,
    openTarget_of_target hexecution haction (by rw [hrounds]; exact hn)]

/-- The report of a node names its last invocation as the active one. -/
theorem nodeReport_last (hbook : NodeBookkeeping d rt) (hcurrent : rt.HandlerCurrent)
    (hkind : rt.state.kind = target) (h : nodeReport source target rt = some report) :
    rt.rounds ≠ [] ∧ rt.invocations.getLast? = some report.1 := by
  obtain ⟨hworking, record, active, action, hlast, hactive, haction, rfl⟩ :=
    nodeReport_eq_some_iff.mp h
  refine ⟨fun hnil => ?_, ?_⟩
  · rw [hnil] at hlast
    cases hlast
  cases active with
  | target =>
    rw [invocations_of_target hbook hlast hactive haction, List.getLast?_concat]
  | recoveryHandler round =>
    have hhandler : ∃ round activity, rt.state = .recovering round activity := by
      by_contra hnot
      have htarget : rt.RunsTarget := by
        subst hkind
        cases hstate : rt.state <;> rw [hstate] at hworking <;> cases hworking
        · exact Or.inl hstate
        · exact Or.inr (Or.inl hstate)
        · exact Or.inr (Or.inr hstate)
        · exact absurd ⟨_, _, hstate⟩ hnot
      obtain ⟨n, hn⟩ := hbook.invocation.target htarget
      cases hn.symm.trans hactive
    obtain ⟨round', activity, hstate⟩ := hhandler
    cases (hbook.invocation.handler round' activity hstate).symm.trans hactive
    obtain ⟨current, hcurrent, hlast⟩ := hcurrent _ _ hstate
    rw [hlast, Option.some.inj (hcurrent.symm.trans haction)]

variable {o : Option (Occurrence O StepFailureCause V D)}
  {occurrence : Occurrence O StepFailureCause V D} {s : RuntimeState StepFailureCause V D}
  {rt' : StepRuntimeState StepFailureCause V} {moves : List (StepStateKind × StepStateKind)}
  {starts : List (ActionId × ActiveStepInvocation)}

theorem StepRuntimeState.SameHistory.rounds_iff (h : rt.SameHistory rt') :
    rt'.rounds = [] ↔ rt.rounds = [] := by
  rw [← List.length_eq_zero_iff, ← List.length_eq_zero_iff, h.length]

/-- A quiet transition to the state after the reduction. -/
theorem Tracked.of_sameHistory (hhistory : rt.SameHistory rt') (hbook : NodeBookkeeping d rt')
    (hcurrent : rt'.HandlerCurrent) (hkind : rt'.state.kind = target)
    (hlive : rt.state.isTerminal = false) (hlive' : rt'.state.isTerminal = false)
    (htarget : target.endsExecution = false)
    (hended : ∀ report ∈ nodeReport source target rt', ∀ invocation ∈ report.2,
      invocation ∈ rt'.invocations.dropLast) : Tracked met rt' rt (source, target) rt' := by
  refine .quiet hhistory.rounds_iff (fun _ => hhistory.invocations) hlive hlive'
    htarget (fun report hreport => ?_)
  obtain ⟨hrounds, hlast⟩ := nodeReport_last hbook hcurrent hkind hreport
  rw [← hhistory.invocations]
  exact ⟨fun h => hrounds (hhistory.rounds_iff.mpr h), hlast, hended report hreport⟩

theorem Tracked.of_end (hhistory : rt.SameHistory rt') (hlive : rt.state.isTerminal = false)
    (hended : rt'.state.isTerminal = true) (htarget : rt'.state.kind.endsExecution = true)
    (hinactive : rt'.activeInvocation = none) : Tracked met rt' rt (source, rt'.state.kind) rt' :=
  .ended hhistory.rounds_iff (fun _ => hhistory.invocations) hlive hended rfl
    (fun _ => htarget) (nodeReport_of_inactive hinactive)

theorem live_of_kind {kind : StepStateKind} (h : rt.state.kind = kind)
    (hworking : kind.isWorking = true) : rt.state.isTerminal = false := by
  subst h
  cases hstate : rt.state <;> rw [hstate] at hworking <;> first | rfl | cases hworking

/-- An execution fails while its node is working.  A failure in a later phase than the start
is reported with the transition. -/
theorem TargetFails.reports (h : TargetFails occurrence id rt phase cause detail) :
    rt.state.kind.isWorking = true ∧
      ((rt.state.kind = .running ∨ rt.state.kind = .capturingOutputs) ∨
        ∃ action, occurrence = .stepStartFailed id action cause ∧
          rt.currentAction = some action) := by
  obtain ⟨action, hreported, haction⟩ := h.reported
  rw [h.state]
  cases occurrence <;> simp only [reportedFailure] at hreported <;> cases hreported
  · exact ⟨rfl, Or.inr ⟨action, rfl, haction⟩⟩
  · exact ⟨rfl, Or.inl (Or.inl rfl)⟩
  · exact ⟨rfl, Or.inl (Or.inr rfl)⟩

/-- The transition that opens a round reports the execution that failed, unless it failed to
start. -/
theorem endedTarget_opened {recovery : StepRecoveryState StepFailureCause}
    (hfails : TargetFails occurrence id rt phase cause detail)
    (hopen : openRound rt phase detail cause = some (recovery, record))
    (hmet : met → firstStartFails id rt occurrence = false) :
    (∀ ended ∈ endedTarget rt.state.kind record, rt.invocations.getLast? = some ended) ∧
      (rt.rounds = [] → endedTarget rt.state.kind record = none → ¬ met) := by
  obtain ⟨invocation, hinvocation, hexecution, hrecovery, -, rfl⟩ := openRound_eq hopen
  have hrounds := rounds_of_recovery hrecovery
  constructor
  · intro ended hended
    unfold endedTarget at hended
    split_ifs at hended
    · cases hended
      rw [invocations, openTarget_of_target hexecution hinvocation
        (by rw [hrounds]), List.getLast?_concat]
    · cases hended
  · intro hnone hmissing hmets
    rcases hfails.reports.2 with hkind | ⟨action, rfl, haction⟩
    · rw [endedTarget, if_pos hkind] at hmissing
      cases hmissing
    · have hfalse := hmet hmets
      simp [firstStartFails, haction, hrecovery, hnone] at hfalse

/-- The transition of an occurrence, as the observer meets it. -/
theorem OccurrenceMove.tracked (h : OccurrenceMove occurrence s id d rt rt' starts)
    (hbook : NodeBookkeeping d rt) (hbook' : NodeBookkeeping d rt')
    (hcurrent' : rt'.HandlerCurrent) (hmet : met → firstStartFails id rt occurrence = false) :
    Tracked met rt' rt (rt.state.kind, rt'.state.kind) rt' := by
  have hinvocations := h.invocations hbook
  have hsame : starts = [] → rt.SameHistory rt' := fun hnil => by
    subst hnil
    exact h.sameHistory hbook
  cases h with
  | run _ _ _ hstate | handlerRunning _ _ _ _ _ hstate =>
    refine .of_sameHistory (hsame rfl) hbook' hcurrent' rfl (by rw [hstate]; rfl) rfl rfl ?_
    intro report hreport ended hended
    obtain ⟨-, record, active, current, -, -, -, rfl⟩ := nodeReport_eq_some_iff.mp hreport
    rw [hstate] at hended
    cases hended
  | capture _ _ _ _ hstate =>
    refine .of_sameHistory (hsame rfl) hbook' hcurrent' rfl (by rw [hstate]; rfl) rfl rfl ?_
    intro report hreport ended hended
    obtain ⟨-, record, active, current, hlast, hactive, hid, rfl⟩ :=
      nodeReport_eq_some_iff.mp hreport
    obtain ⟨n, hn⟩ := hbook'.invocation.target (Or.inr (Or.inr rfl))
    cases hn.symm.trans hactive
    rw [invocations_of_target hbook' hlast hactive hid, List.dropLast_concat]
    rw [hstate] at hended
    cases hended
    exact List.mem_flatMap.mpr ⟨record, List.mem_of_getLast? hlast, List.mem_cons_self⟩
  | succeed action outputs ho haction hstate
  | gaveUp round action decision failure ho hdecision haction hactive hstate
  | handlerFailed failure ho haction hactive hstate | quiesce action reason active ho hstate =>
    exact .of_end (hsame rfl) (by rw [hstate]; rfl) rfl rfl rfl
  | @retry _ _ _ recovery record n hfails hopen =>
    obtain ⟨hended, hmissing⟩ := endedTarget_opened hfails hopen hmet
    have hrounds : ((rt.opened record).started s.actionId n).rounds = recovery.rounds ++ [record] :=
      (StepRuntimeState.opened_invocations hopen).1
    refine .started ?_ hinvocations (live_of_kind rfl hfails.reports.1) rfl rfl
      (nodeReport_eq_some_iff.mpr ⟨rfl, record, .target n, s.actionId, ?_, rfl, rfl, rfl⟩)
      hended hmissing
    · rw [hrounds]
      exact List.concat_ne_nil _ _
    · rw [hrounds, List.getLast?_concat]
  | @recover _ _ _ _ record kind hfails hopen =>
    obtain ⟨hended, hmissing⟩ := endedTarget_opened hfails hopen hmet
    have hrounds := (StepRuntimeState.handlerStarted_invocations hopen s.actionId kind).1
    refine .started ?_ hinvocations (live_of_kind rfl hfails.reports.1) rfl rfl
      (nodeReport_eq_some_iff.mpr ⟨rfl,
        { record with handler := some ⟨kind, s.actionId, .starting⟩ },
        .recoveryHandler record.number, s.actionId, ?_, rfl, rfl, rfl⟩) hended hmissing
    · rw [hrounds]
      exact List.concat_ne_nil _ _
    · rw [hrounds, List.getLast?_concat]
  | exhaust _ hfails =>
    have hend : Tracked met _ rt (rt.state.kind, _) _ :=
      .of_end (hsame rfl) (live_of_kind rfl hfails.reports.1) rfl rfl rfl
    exact hend
  | recheck n round _ decision _ _ _ _ hstate =>
    have hhistory : rt.SameHistory (rt.noteOutcome round
        (.recheck decision.summary decision.reason)) :=
      StepRuntimeState.noteOutcome_sameHistory round _
    obtain ⟨failure, hfailure⟩ := hbook.failed hstate
    obtain ⟨recovery, record, hrecovery, hlast, -⟩ := hbook.latest hfailure
    have hrounds : rt.rounds ≠ [] := by
      rw [rounds_of_recovery hrecovery]
      rintro hnil
      rw [hnil] at hlast
      cases hlast
    have hrounds' : ((rt.noteOutcome round (.recheck decision.summary decision.reason)).started
        s.actionId n).rounds ≠ [] := fun hnil => hrounds (hhistory.rounds_iff.mp hnil)
    obtain ⟨last, hlast'⟩ := Option.isSome_iff_exists.mp (List.getLast?_isSome.mpr hrounds')
    refine .started hrounds' hinvocations (by rw [hstate]; rfl) rfl rfl
      (nodeReport_eq_some_iff.mpr ⟨rfl, last, .target n, s.actionId, hlast', rfl, rfl, rfl⟩) ?_
      (fun hnil => absurd hnil hrounds)
    intro ended hended
    rw [hstate] at hended
    cases hended

/-- The transitions of a step in a reduction, as the observer meets them. -/
theorem NodeReduction.tracked (h : NodeReduction o s id d rt rt' moves starts)
    (hbook : NodeBookkeeping d rt) (hbook' : NodeBookkeeping d rt') (hcurrent' : rt'.HandlerCurrent)
    (hmet : met → ∀ occurrence ∈ o, firstStartFails id rt occurrence = false) :
    TrackedMoves met rt' rt moves := by
  have hleading : rt.invocations <+: rt'.invocations := ⟨starts, (h.invocations hbook).symm⟩
  cases h with
  | still | recontained => exact .done ⟨rfl, rfl, rfl⟩ rfl
  | lost _ hstate hlost => exact absurd hlost (hbook.not_lost hstate)
  | begun _ hpending hbegins =>
    have hnone := (hbook.pending hpending).1
    have hlive : rt.state.isTerminal = false := by rw [hpending]; rfl
    cases hbegins with
    | start =>
      refine Tracked.moves (.quiet Iff.rfl (fun hrounds => absurd hnone hrounds) hlive rfl rfl
        (fun report hreport => ?_)) hleading
      cases hreport.symm.trans (nodeReport_of_no_rounds hnone)
    | drop _ hterminal | fail _ hterminal =>
      exact Tracked.moves (.ended Iff.rfl (fun hrounds => absurd hnone hrounds) hlive hterminal
        rfl (fun hrounds => absurd hnone hrounds) (nodeReport_of_no_rounds hnone)) hleading
  | dropped _ hpending =>
    exact Tracked.moves (.of_end ⟨rfl, rfl, rfl⟩ (by rw [hpending]; rfl) rfl rfl
      (hbook.invocation.pending hpending).1) hleading
  | contained _ active _ hstate =>
    have hhistory : rt.SameHistory (rt.noteHandlerCancelled active) :=
      StepRuntimeState.noteHandlerCancelled_sameHistory active
    refine Tracked.moves (.of_sameHistory ⟨hhistory.execution, hhistory.invocation, hhistory.rounds⟩
      hbook' hcurrent' rfl ?_ rfl rfl (fun report hreport => ?_)) hleading
    · rcases hstate with (hstate | hstate | hstate) | ⟨round, activity, hstate⟩ <;>
        rw [hstate] <;> rfl
    · exact absurd (nodeReport_eq_some_iff.mp hreport).1 Bool.false_ne_true
  | moved ho hmove =>
    exact (hmove.tracked hbook hbook' hcurrent' (fun hm => hmet hm _ ho)).moves hleading
  | completed hstate =>
    -- both transitions are observed with the state after the second one
    have hhistory : rt.SameHistory (rt.noteExecution .recovered) :=
      StepRuntimeState.noteExecution_sameHistory .recovered
    have hcapture : Tracked met ((rt.noteExecution .recovered).settled
        (.succeeded .empty)) rt (.running, .capturingOutputs)
        { rt with state := .capturingOutputs } := by
      refine .quiet Iff.rfl (fun _ => rfl) (by rw [hstate]; rfl) rfl rfl (fun report hreport => ?_)
      cases (nodeReport_of_inactive rfl).symm.trans hreport
    refine .step hcapture hleading (Tracked.moves (.of_end ?_ rfl rfl rfl rfl) hleading)
    exact ⟨hhistory.execution, hhistory.invocation, hhistory.rounds⟩

end ScherzoCloud.Workflow
