import ScherzoCloud.Runner.ExecutionObserver
import ScherzoCloud.Workflow.ObservedHistory
import ScherzoCloud.Workflow.RecoveryAcceptance

/-!
# What an observation does to the invocations

An observation about a step touches the invocations of that step only.  All that it can do
is to file a record, to release the active invocation of the step and to register another
one, so every fact about another step is kept.
-/

namespace ScherzoCloud.Runner

open Collections Workflow

variable {D : Type} {j : String} {state state' : ObserverState D} {step : String} {k : Nat}
  {invocation : RunnerActiveInvocation} {finishedAt : RunnerExecutionInstant} {cancelled : Bool}
  {evidence evidence' : Option RecoveryInvocationV1} {env : ObserverEnvironment}
  {belongs : Nat → String → Prop} {activeInvocationId : ActionId}
  {summary : Option ObservedStepTransition} {target : StepStateKind} {P : ObserverState D → Prop}

/-- The record of a step that is filed under an identity. -/
def ObserverState.recorded (state : ObserverState D) (step : String) (k : Nat) :
    Option RecoveryInvocationV1 :=
  (state.settledInvocations.get? k).bind (fun settled =>
    if settled.1 = step then some settled.2 else none)

variable {record : RecoveryInvocationV1}

theorem recorded_eq_some_iff : state.recorded step k = some record ↔
      state.settledInvocations.get? k = some (step, record) := by
  rw [ObserverState.recorded, Option.bind_eq_some_iff]
  constructor
  · rintro ⟨⟨owner, known⟩, hget, heq⟩
    dsimp only at heq
    split_ifs at heq with howner
    rw [hget, howner, Option.some.inj heq]
  · exact fun hget => ⟨(step, record), hget, if_pos rfl⟩

theorem recorded_file :
    (state.file step record).recorded j k =
      if k = record.invocationId then (if step = j then some record else none)
      else state.recorded j k := by
  simp only [ObserverState.recorded, ObserverState.file, BTreeMap.get?_insert]
  split_ifs <;> simp [*]

theorem recorded_file_self :
    (state.file step record).recorded step record.invocationId = some record := by
  rw [recorded_file, if_pos rfl, if_pos rfl]

theorem recorded_file_of_ne (hne : k ≠ record.invocationId) :
    (state.file step record).recorded j k = state.recorded j k := by
  rw [recorded_file, if_neg hne]

@[simp] theorem file_activeInvocations :
    (state.file step record).activeInvocations = state.activeInvocations := rfl

theorem release_get? :
    (state.release step).activeInvocations.get? j =
      if j = step then none else state.activeInvocations.get? j :=
  BTreeMap.get?_erase _ _ _

theorem register_get? : (state.register step invocation).activeInvocations.get? j =
      if j = step then some invocation else state.activeInvocations.get? j :=
  BTreeMap.get?_insert _ _ _ _

section Settling

variable (env : ObserverEnvironment) (moment : Nat)

/-- The state in which an invocation is recorded. -/
def settledState (cancelled : Bool) : RecoveryInvocationStateV1 :=
  if cancelled then .cancelled else .settled

/-- The record of an invocation never fails: a difference of two readings of the monotonic
clock is a duration. -/
theorem invocationEvidence_eq :
    ∃ record, invocationEvidence env moment step invocation finishedAt cancelled = some record ∧
      record.key = invocationKey (settledState cancelled) (invocation.id, invocation.role) ∧
      record.invocationId = invocation.id.transitionSequence := by
  have hduration : finishedAt.monotonic - invocation.startedAt.monotonic < 2 ^ 64 :=
    Nat.lt_of_le_of_lt (Nat.sub_le _ _) finishedAt.inRange
  unfold invocationEvidence
  obtain ⟨id, role, startedAt⟩ := invocation
  cases role with
  | target | recoveryHandler =>
    simp only [if_pos hduration]
    exact ⟨_, rfl, rfl, rfl⟩

/-- An invocation that is not yet filed is settled. -/
theorem settleRunnerInvocation_fresh
    (hfresh : state.settledInvocations.get? invocation.id.transitionSequence = none) :
    ∃ record, settleRunnerInvocation env moment state step invocation finishedAt cancelled none =
        .ok (some record, state.file step record) ∧
      record.key = invocationKey (settledState cancelled) (invocation.id, invocation.role) := by
  obtain ⟨record, hrecord, hkey, hid⟩ := @invocationEvidence_eq step invocation finishedAt
    cancelled env moment
  rw [← hid] at hfresh
  refine ⟨record, ?_, hkey⟩
  unfold settleRunnerInvocation
  rw [hrecord]
  dsimp only
  rw [hfresh]
  rfl

/-- Settling an invocation files at most its own record. -/
theorem settleRunnerInvocation_cases
    (h : settleRunnerInvocation env moment state step invocation finishedAt cancelled evidence =
      .ok (evidence', state')) :
    state' = state ∨ ∃ record : RecoveryInvocationV1, state' = state.file step record ∧
      record.invocationId = invocation.id.transitionSequence ∧
      invocationEvidence env moment step invocation finishedAt cancelled = some record := by
  obtain ⟨record, hrecord, -, hid⟩ := @invocationEvidence_eq step invocation finishedAt
    cancelled env moment
  unfold settleRunnerInvocation at h
  rw [hrecord] at h
  dsimp only at h
  split at h
  · split_ifs at h
    cases h
    exact Or.inl rfl
  · split_ifs at h
    cases h
    exact Or.inr ⟨record, rfl, hid, hrecord⟩

end Settling

/-- The record was made from an invocation. -/
def Made (env : ObserverEnvironment) (record : RecoveryInvocationV1) : Prop :=
  ∃ moment step invocation finishedAt cancelled,
    invocationEvidence env moment step invocation finishedAt cancelled = some record

/-- All that an observation of a step does to the invocations.  The identities that it uses
belong to the step. -/
inductive Touches (env : ObserverEnvironment) (belongs : Nat → String → Prop) (step : String)
    (state : ObserverState D) : ObserverState D → Prop
  | refl : Touches env belongs step state state
  | file {state' : ObserverState D} (h : Touches env belongs step state state')
      (record : RecoveryInvocationV1) (hown : belongs record.invocationId step)
      (hmade : Made env record) : Touches env belongs step state (state'.file step record)
  | release {state' : ObserverState D} (h : Touches env belongs step state state') :
      Touches env belongs step state (state'.release step)
  | register {state' : ObserverState D} (h : Touches env belongs step state state')
      (invocation : RunnerActiveInvocation) (hown : belongs invocation.id.transitionSequence step) :
      Touches env belongs step state (state'.register step invocation)

/-- Every record is filed under its identity for the step that the identity belongs to, and
every active invocation belongs to its step. -/
structure Filed (env : ObserverEnvironment) (belongs : Nat → String → Prop)
    (state : ObserverState D) : Prop where
  record : ∀ k step record, state.settledInvocations.get? k = some (step, record) →
    record.invocationId = k ∧ belongs k step
  made : ∀ k step record, state.settledInvocations.get? k = some (step, record) → Made env record
  active : ∀ step invocation, state.activeInvocations.get? step = some invocation →
    belongs invocation.id.transitionSequence step

/-- Two observers agree about the invocations of a step. -/
structure SameInvocations (step : String) (state state' : ObserverState D) : Prop where
  active : state'.activeInvocations.get? step = state.activeInvocations.get? step
  recorded : ∀ k, state'.recorded step k = state.recorded step k

theorem Filed.initial : Filed env belongs (ObserverState.initial : ObserverState D) :=
  ⟨fun _ _ _ h => absurd h (Option.some_ne_none _).symm,
    fun _ _ _ h => absurd h (Option.some_ne_none _).symm,
    fun _ _ h => absurd h (Option.some_ne_none _).symm⟩

variable {state'' : ObserverState D}

section

variable (h : Touches env belongs step state state')
include h

theorem Touches.trans
    (h' : Touches env belongs step state' state'') : Touches env belongs step state state'' := by
  induction h' with
  | refl => exact h
  | file _ record hown hmade ih => exact ih.file record hown hmade
  | release _ ih => exact ih.release
  | register _ invocation hown ih => exact ih.register invocation hown

theorem Touches.filed (hfiled : Filed env belongs state) : Filed env belongs state' := by
  induction h with
  | refl => exact hfiled
  | file _ record hown hmade ih =>
    refine ⟨fun k owner known hget => ?_, fun k owner known hget => ?_, ih.active⟩ <;>
      rw [ObserverState.file, BTreeMap.get?_insert] at hget <;> split_ifs at hget with hk
    · cases hget
      exact ⟨hk.symm, hk ▸ hown⟩
    · exact ih.record k owner known hget
    · cases hget
      exact hmade
    · exact ih.made k owner known hget
  | release _ ih =>
    refine ⟨ih.record, ih.made, fun owner invocation hget => ?_⟩
    rw [release_get?] at hget
    split_ifs at hget
    exact ih.active owner invocation hget
  | register _ _ hown ih =>
    refine ⟨ih.record, ih.made, fun owner known hget => ?_⟩
    rw [register_get?] at hget
    split_ifs at hget with howner
    · cases hget
      exact howner ▸ hown
    · exact ih.active owner known hget

end

/-- The identities belong to one step each. -/
def Separate (belongs : Nat → String → Prop) : Prop :=
  ∀ k step j, belongs k step → belongs k j → step = j

/-- What belongs to a step is filed for that step only. -/
theorem Filed.recorded_eq_none (hfiled : Filed env belongs state) (hseparate : Separate belongs)
    (hown : belongs k step) (hj : j ≠ step) : state.recorded j k = none := by
  cases hrecorded : state.recorded j k with
  | none => rfl
  | some record =>
    have hfiled := hfiled.record k j record (recorded_eq_some_iff.mp hrecorded)
    exact absurd (hseparate k j step hfiled.2 hown) hj

/-- An observation of one step keeps the invocations of every other step. -/
theorem Touches.same (h : Touches env belongs step state state') (hfiled : Filed env belongs state)
    (hseparate : Separate belongs) (hj : j ≠ step) : SameInvocations j state state' := by
  induction h with
  | refl => exact ⟨rfl, fun _ => rfl⟩
  | file h _ hown _ ih =>
    refine ⟨ih.active, fun k => ?_⟩
    rw [recorded_file]
    split_ifs with hk howner
    · exact absurd howner.symm hj
    · rw [hk, ← ih.recorded, (h.filed hfiled).recorded_eq_none hseparate hown hj]
    · exact ih.recorded k
  | release _ ih => exact ⟨by rw [release_get?, if_neg hj, ih.active], ih.recorded⟩
  | register _ _ _ ih =>
    exact ⟨by rw [register_get?, if_neg hj, ih.active], ih.recorded⟩

variable {moment : Nat}

theorem settleRunnerInvocation_touches
    (h : settleRunnerInvocation env moment state step invocation finishedAt cancelled evidence =
      .ok (evidence', state')) (hown : belongs invocation.id.transitionSequence step) :
    Touches env belongs step state state' := by
  rcases settleRunnerInvocation_cases env moment h with rfl | ⟨record, rfl, hid, hrecord⟩
  · exact .refl
  · exact Touches.refl.file record (hid ▸ hown)
      ⟨moment, step, invocation, finishedAt, cancelled, hrecord⟩

theorem settlePrevious_touches
    (h : settlePrevious env moment state step activeInvocationId = .ok (evidence, state'))
    (hfiled : Filed env belongs state) : Touches env belongs step state state' := by
  unfold settlePrevious at h
  split at h
  · rename_i previous hprevious
    split_ifs at h
    · exact Touches.refl.release.trans
        (settleRunnerInvocation_touches h (hfiled.active step previous hprevious))
    · cases h
      exact .refl
  · cases h
    exact .refl

theorem settleReported_touches {settledInvocation : Option (ActionId × ActiveStepInvocation)}
    (h : settleReported env moment state step settledInvocation evidence = .ok (evidence', state'))
    (hsettled : ∀ invocation ∈ settledInvocation, belongs invocation.1.transitionSequence step) :
    Touches env belongs step state state' := by
  unfold settleReported at h
  split at h
  · rename_i id role
    split_ifs at h
    · cases h
      exact .refl
    · exact settleRunnerInvocation_touches h (hsettled (id, role) rfl)
  · cases h
    exact .refl

theorem registerActive_touches {active : ActiveStepInvocation}
    (hown : belongs activeInvocationId.transitionSequence step) : Touches env belongs step state
      (registerActive env moment state step active activeInvocationId) := by
  unfold registerActive
  split
  · exact .refl
  · exact Touches.refl.register ⟨activeInvocationId, active, env.now moment⟩ hown

theorem observeSummary_of_none (h : reportedInvocations summary = none) :
    observeSummary env moment state step summary = .ok (none, state) := by
  unfold observeSummary
  split
  · cases h
  · rfl

theorem observeSummary_of_some {active : ActionId × ActiveStepInvocation}
    {settled : Option (ActionId × ActiveStepInvocation)}
    (h : reportedInvocations summary = some (active, settled)) :
    observeSummary env moment state step summary =
      observeRecovery env moment state step active.2 active.1 settled := by
  unfold observeSummary
  unfold reportedInvocations at h
  split at h
  · cases h
    rfl
  · cases h

/-- The invocations that the summary of a step reports belong to the step. -/
def OwnReport (belongs : Nat → String → Prop) (step : String)
    (summary : Option ObservedStepTransition) : Prop :=
  ∀ report ∈ reportedInvocations summary, belongs report.1.1.transitionSequence step ∧
    ∀ ended ∈ report.2, belongs ended.1.transitionSequence step

theorem observeSummary_touches
    (h : observeSummary env moment state step summary = .ok (evidence, state'))
    (hfiled : Filed env belongs state) (hown : OwnReport belongs step summary) :
    Touches env belongs step state state' := by
  cases hreport : reportedInvocations summary with
  | none =>
    rw [observeSummary_of_none hreport] at h
    cases h
    exact .refl
  | some report =>
    obtain ⟨hactive, hended⟩ := hown report hreport
    rw [observeSummary_of_some hreport] at h
    unfold observeRecovery at h
    obtain ⟨⟨evidence₁, state₁⟩, h₁, h⟩ := bind_eq_ok_iff.mp h
    obtain ⟨⟨evidence₂, state₂⟩, h₂, h⟩ := bind_eq_ok_iff.mp h
    cases h
    exact ((settlePrevious_touches h₁ hfiled).trans (settleReported_touches h₂ hended)).trans
      (registerActive_touches hactive)

theorem observeEnd_touches
    (h : observeEnd env moment state step target evidence = .ok (evidence', state'))
    (hfiled : Filed env belongs state) : Touches env belongs step state state' := by
  unfold observeEnd at h
  split_ifs at h
  · split at h
    · cases h
      exact .refl
    · rename_i active hactive
      exact Touches.refl.release.trans
        (settleRunnerInvocation_touches h (hfiled.active step active hactive))
  · cases h
    exact .refl

/-- The log of the invocations knows only invocations of the step it is asked for. -/
def ObserverEnvironment.Logs (env : ObserverEnvironment) (belongs : Nat → String → Prop) : Prop :=
  ∀ moment step, ∀ id ∈ env.invocationIds moment step, belongs id.transitionSequence step

theorem observeAgent_touches (hlogs : env.Logs belongs)
    (h : observeAgent env moment state step target evidence = .ok (evidence', state')) :
    Touches env belongs step state state' ∧ state'.activeInvocations = state.activeInvocations := by
  unfold observeAgent at h
  split_ifs at h
  · split at h
    · cases h
      exact ⟨.refl, rfl⟩
    · rename_i id hids
      split at h
      · cases h
      · split at h
        · cases h
        · rename_i timing _ _ record hrecord
          obtain ⟨record', hrecord', _, hid⟩ := @invocationEvidence_eq step
            ⟨id, .target 1, timing.startedAt⟩ (env.now moment) (target = .cancelled) env moment
          obtain rfl : record' = record := Option.some.inj (hrecord'.symm.trans hrecord)
          cases h
          refine ⟨Touches.refl.file record' (hid ▸ hlogs moment step id ?_)
            ⟨moment, step, _, _, _, hrecord⟩, rfl⟩
          rw [hids]
          exact List.mem_singleton_self id
    · cases h
  · cases h
    exact ⟨.refl, rfl⟩

theorem observeInvocations_touches {sequence : TransitionSequence} {role : WorkflowNodeRole}
    {policy : FailurePolicy} {source : StepStateKind} (hlogs : env.Logs belongs)
    (h : observeInvocations env moment state
      ⟨.step sequence step role policy source target, summary⟩ = .ok (evidence, state'))
    (hfiled : Filed env belongs state) (hown : OwnReport belongs step summary) :
    Touches env belongs step state state' := by
  unfold observeInvocations at h
  obtain ⟨⟨evidence₁, state₁⟩, h₁, h⟩ := bind_eq_ok_iff.mp h
  obtain ⟨⟨evidence₂, state₂⟩, h₂, h⟩ := bind_eq_ok_iff.mp h
  have htouches₁ : Touches env belongs step state state₁ := observeSummary_touches h₁ hfiled hown
  have htouches₂ : Touches env belongs step state₁ state₂ :=
    observeEnd_touches h₂ (htouches₁.filed hfiled)
  exact (htouches₁.trans htouches₂).trans (observeAgent_touches hlogs h).1

/-- What holds of the invocations after a transition, if the observer goes on; it does not
stop because a settlement failed. -/
def Settles (P : ObserverState D → Prop) :
    Except (ObserverState D) (Option RecoveryInvocationV1 × ObserverState D) → Prop
  | .ok (_, state) => P state ∧ state.fault = none
  | .error stopped => ∃ fault, stopped.fault = some fault ∧ fault ≠ .invocationSettlementFailed

theorem Settles.imp {Q : ObserverState D → Prop}
    {result : Except (ObserverState D) (Option RecoveryInvocationV1 × ObserverState D)}
    (h : Settles P result) (himp : ∀ state, P state → Q state) : Settles Q result := by
  cases result with
  | error => exact h
  | ok => exact ⟨himp _ h.1, h.2⟩

variable (event : TransitionEvent D)

@[simp] theorem noteForceAbort_activeInvocations :
    (state.noteForceAbort event).activeInvocations = state.activeInvocations := by
  cases event <;> rfl

@[simp] theorem noteForceAbort_settledInvocations :
    (state.noteForceAbort event).settledInvocations = state.settledInvocations := by
  cases event <;> rfl

@[simp] theorem noteForceAbort_fault : (state.noteForceAbort event).fault = state.fault := by
  cases event <;> rfl

@[simp] theorem note_activeInvocations :
    (state.note env moment event).activeInvocations = state.activeInvocations := by
  unfold ObserverState.note
  cases event with
  | cancellationAccepted => dsimp only; split_ifs <;> rfl
  | _ => rfl

@[simp] theorem note_settledInvocations :
    (state.note env moment event).settledInvocations = state.settledInvocations := by
  unfold ObserverState.note
  cases event with
  | cancellationAccepted => dsimp only; split_ifs <;> rfl
  | _ => rfl

/-- Counting a transition stops the observer at a second cancellation only. -/
theorem note_fault : (state.note env moment event).fault = state.fault ∨
      (state.note env moment event).fault = some .duplicateCancellation := by
  unfold ObserverState.note
  cases event with
  | cancellationAccepted =>
    dsimp only
    split_ifs
    · exact Or.inr rfl
    · exact Or.inl rfl
  | _ => exact Or.inl rfl

/-- An observation of an observer that has not stopped: it stops, or the invocations are those
after the transition. -/
theorem observe_spec {transition : TransitionObservation D} (hfence : env.fenced moment = false)
    (hfault : state.fault = none) (h : Settles P (observeInvocations env moment state transition))
    (hkeep : ∀ state₁ state₂ : ObserverState D, P state₁ →
      state₂.activeInvocations = state₁.activeInvocations →
      state₂.settledInvocations = state₁.settledInvocations → P state₂) :
    (observe env moment state transition).fault ≠ some .invocationSettlementFailed ∧
      ((observe env moment state transition).fault = none →
        P (observe env moment state transition)) := by
  have hstopped : ∀ {result : ObserverState D} {fault : ObserverFault},
      result.fault = some fault → fault ≠ .invocationSettlementFailed →
      result.fault ≠ some .invocationSettlementFailed ∧ (result.fault = none → P result) := by
    intro result fault hresult hne
    rw [hresult]
    exact ⟨fun heq => hne (Option.some.inj heq), nofun⟩
  unfold observe
  rw [if_neg (by rw [hfence]; exact fun h => Bool.false_ne_true h.1),
    if_neg (by rw [hfault]; exact Bool.false_ne_true)]
  split_ifs
  · exact hstopped rfl nofun
  · exact hstopped rfl nofun
  · exact hstopped rfl nofun
  · cases hobserved : observeInvocations env moment state transition with
    | error =>
      rw [hobserved] at h
      obtain ⟨fault, heq, hne⟩ := h
      exact hstopped heq hne
    | ok result =>
      obtain ⟨evidence, state₁⟩ := result
      rw [hobserved] at h
      obtain ⟨hsettles, hnone⟩ : P state₁ ∧ state₁.fault = none := h
      dsimp only
      split
      · exact hstopped rfl nofun
      · have hp := hkeep state₁ ((state₁.noteForceAbort transition.event).note env moment
          transition.event) hsettles (by simp) (by simp)
        rcases @note_fault _ (state₁.noteForceAbort transition.event) env moment
          transition.event with hnote | hnote
        · rw [hnote, noteForceAbort_fault, hnone]
          exact ⟨nofun, fun _ => hp⟩
        · exact hstopped hnote nofun

end ScherzoCloud.Runner
