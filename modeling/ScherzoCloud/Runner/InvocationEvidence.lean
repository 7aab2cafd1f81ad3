import ScherzoCloud.Runner.ObserverFrames

/-!
# The invocation evidence of a run

The observer of the runner has to rebuild the history of every step that is recovered.  The
invariant relates the active invocation and the records of a step to the history of the
step between any two reductions.
-/

namespace ScherzoCloud.Runner

open Collections Workflow

variable {O V D : Type} {met : Prop} {state state' : ObserverState D} {step : String}
  {rt rt₁ last : StepRuntimeState StepFailureCause V} {record : RecoveryInvocationV1}
  {invocation : ActionId × ActiveStepInvocation} {env : ObserverEnvironment}
  {belongs : Nat → String → Prop} {moment : Nat} {P : ObserverState D → Prop}
  {seed : ExecutionSeed V} {d : RuntimeStep}

/-- The invocations of a step whose records are due. -/
def dueRecords (rt : StepRuntimeState StepFailureCause V) : List InvocationKey :=
  if rt.state.isTerminal then rt.evidence
  else rt.invocations.dropLast.map (invocationKey .settled)

/-- What the observer knows about a step.  `met` is false if the first execution of the step
failed to start: its record may be missing then. -/
structure Evidence (met : Prop) (state : ObserverState D) (step : String)
    (rt : StepRuntimeState StepFailureCause V) : Prop where
  idle : rt.rounds = [] → state.activeInvocations.get? step = none ∧
    (rt.state.isTerminal = false → ∀ k, state.recorded step k = none)
  working : rt.rounds ≠ [] → rt.state.isTerminal = false → ∃ action active startedAt,
    rt.invocations.getLast? = some (action, active) ∧
      state.activeInvocations.get? step = some ⟨action, active, startedAt⟩
  ended : rt.state.isTerminal = true → state.activeInvocations.get? step = none
  sound : rt.rounds ≠ [] → ∀ k record, state.recorded step k = some record →
    record.key ∈ dueRecords rt
  complete : met → rt.rounds ≠ [] → ∀ key ∈ dueRecords rt,
    ∃ record, state.recorded step key.invocationId = some record

theorem Evidence.of_same (h : Evidence met state step rt)
    (hsame : SameInvocations step state state') : Evidence met state' step rt where
  idle hrounds := by
    obtain ⟨hactive, hrecorded⟩ := h.idle hrounds
    exact ⟨hsame.active.trans hactive, fun hlive k => (hsame.recorded k).trans (hrecorded hlive k)⟩
  working hrounds hlive := by
    obtain ⟨action, active, startedAt, hlast, hactive⟩ := h.working hrounds hlive
    exact ⟨action, active, startedAt, hlast, hsame.active.trans hactive⟩
  ended hended := hsame.active.trans (h.ended hended)
  sound hrounds k record hrecorded := h.sound hrounds k record
    ((hsame.recorded k).symm.trans hrecorded)
  complete hmet hrounds key hkey := by
    obtain ⟨record, hrecorded⟩ := h.complete hmet hrounds key hkey
    exact ⟨record, (hsame.recorded _).trans hrecorded⟩

/-- The evidence depends on the history of the step only. -/
theorem Evidence.of_history (h : Evidence met state step rt)
    (hrounds : rt₁.rounds = [] ↔ rt.rounds = [])
    (hinvocations : rt.rounds ≠ [] → rt₁.invocations = rt.invocations)
    (hkind : rt.rounds ≠ [] → dueRecords rt₁ = dueRecords rt)
    (hstate : rt₁.state.isTerminal = rt.state.isTerminal) : Evidence met state step rt₁ where
  idle hnil := by
    rw [hstate]
    exact h.idle (hrounds.mp hnil)
  working hne hlive := by
    have hne' := fun hnil => hne (hrounds.mpr hnil)
    rw [hinvocations hne']
    exact h.working hne' (hstate ▸ hlive)
  ended hended := h.ended (hstate ▸ hended)
  sound hne := by
    have hne' := fun hnil => hne (hrounds.mpr hnil)
    rw [hkind hne']
    exact h.sound hne'
  complete hmet hne := by
    have hne' := fun hnil => hne (hrounds.mpr hnil)
    rw [hkind hne']
    exact h.complete hmet hne'

theorem dueRecords_live (hlive : rt.state.isTerminal = false) :
    dueRecords rt = rt.invocations.dropLast.map (invocationKey .settled) := by
  rw [dueRecords, hlive]
  rfl

/-- A record that is due may be filed. -/
theorem Evidence.file (h : Evidence met state step rt) (hrounds : rt.rounds ≠ [])
    (hdue : record.key ∈ dueRecords rt) : Evidence met (state.file step record) step rt where
  idle hnil := absurd hnil hrounds
  working := h.working
  ended := h.ended
  sound _ k known hknown := by
    by_cases hk : k = record.invocationId
    · rw [hk, recorded_file_self] at hknown
      exact Option.some.inj hknown ▸ hdue
    · rw [recorded_file_of_ne hk] at hknown
      exact h.sound hrounds k known hknown
  complete hmet _ key hkey := by
    by_cases hk : key.invocationId = record.invocationId
    · exact ⟨record, by rw [hk, recorded_file_self]⟩
    · rw [recorded_file_of_ne hk]
      exact h.complete hmet hrounds key hkey

/-- A new invocation is registered once the records of all earlier ones are filed. -/
theorem Evidence.register (hrounds : rt₁.rounds ≠ []) (hlive : rt₁.state.isTerminal = false)
    (hinvocations : rt₁.invocations = rt.invocations ++ [invocation])
    (hsound : ∀ k record, state.recorded step k = some record →
      record.key ∈ rt.invocations.map (invocationKey .settled))
    (hcomplete : met → ∀ key ∈ rt.invocations.map (invocationKey .settled),
      ∃ record, state.recorded step key.invocationId = some record)
    (startedAt : RunnerExecutionInstant) :
    Evidence met (state.register step ⟨invocation.1, invocation.2, startedAt⟩) step rt₁ where
  idle hnil := absurd hnil hrounds
  working _ _ := ⟨invocation.1, invocation.2, startedAt, by rw [hinvocations, List.getLast?_concat],
    by rw [register_get?, if_pos rfl]⟩
  ended hended := absurd (hlive.symm.trans hended) Bool.false_ne_true
  sound _ := by
    rw [dueRecords_live hlive, hinvocations, List.dropLast_concat]
    exact hsound
  complete hmet _ := by
    rw [dueRecords_live hlive, hinvocations, List.dropLast_concat]
    exact hcomplete hmet

/-- The evidence of a step that has ended without a recovery. -/
theorem Evidence.of_unrecovered (hrounds : rt.rounds = []) (hended : rt.state.isTerminal = true)
    (hactive : state.activeInvocations.get? step = none) : Evidence met state step rt where
  idle _ := ⟨hactive, fun hlive => absurd (hlive.symm.trans hended) Bool.false_ne_true⟩
  working hne := absurd hrounds hne
  ended _ := hactive
  sound hne := absurd hrounds hne
  complete _ hne := absurd hrounds hne

/-- An identity of the step under which the step has no record is free. -/
theorem Filed.get?_eq_none (hfiled : Filed env belongs state) (hseparate : Separate belongs)
    {k : Nat} (hown : belongs k step) (hrecorded : state.recorded step k = none) :
    state.settledInvocations.get? k = none := by
  cases hget : state.settledInvocations.get? k with
  | none => rfl
  | some settled =>
    obtain ⟨owner, record⟩ := settled
    obtain rfl : owner = step := hseparate k owner step (hfiled.record k owner record hget).2 hown
    cases (recorded_eq_some_iff.mpr hget).symm.trans hrecorded

/-- The active invocation of a step has no record yet. -/
theorem Evidence.active_unrecorded (h : Evidence met state step rt)
    (hfiled : Filed env belongs state) (hrounds : rt.rounds ≠ [])
    (hlive : rt.state.isTerminal = false)
    (hnodup : (rt.invocations.map (·.1.transitionSequence)).Nodup)
    (hlast : rt.invocations.getLast? = some invocation) :
    state.recorded step invocation.1.transitionSequence = none := by
  cases hrecorded : state.recorded step invocation.1.transitionSequence with
  | none => rfl
  | some record =>
    have hdue := h.sound hrounds _ record hrecorded
    have hid := (hfiled.record _ _ _ (recorded_eq_some_iff.mp hrecorded)).1
    rw [dueRecords_live hlive] at hdue
    obtain ⟨earlier, hearlier, heq⟩ := List.mem_map.mp hdue
    have hids : earlier.1.transitionSequence = invocation.1.transitionSequence := by
      rw [← hid, ← invocationKey_id .settled earlier, heq]
      rfl
    rw [← List.dropLast_append_getLast? invocation hlast, List.map_append] at hnodup
    exact absurd rfl ((List.nodup_append.mp hnodup).2.2 _ (List.mem_map_of_mem hearlier) _
      (hids ▸ List.mem_singleton_self _))

section Transitions

variable {source target : StepStateKind} {summary : Option ObservedStepTransition}
  {sequence : TransitionSequence} {role : WorkflowNodeRole} {policy : FailurePolicy}

/-- A transition that does not end the execution is handled by its summary. -/
theorem observeInvocations_of_working (htarget : target.endsExecution = false) :
    observeInvocations env moment state ⟨.step sequence step role policy source target, summary⟩ =
      observeSummary env moment state step summary := by
  have hnot : ¬ target.endsExecution = true := by rw [htarget]; exact Bool.false_ne_true
  unfold observeInvocations
  dsimp only
  cases observeSummary env moment state step summary with
  | error => rfl
  | ok result =>
    obtain ⟨evidence, state₁⟩ := result
    dsimp only [bind, Except.bind, observeEnd]
    rw [if_neg hnot]
    dsimp only [observeAgent]
    rw [if_neg (fun h => hnot h.1)]

/-- A transition without a report only ends the execution. -/
theorem observeInvocations_of_end (h : reportedInvocations summary = none) :
    observeInvocations env moment state ⟨.step sequence step role policy source target, summary⟩ =
      (observeEnd env moment state step target none).bind (fun result =>
        observeAgent env moment result.2 step target result.1) := by
  unfold observeInvocations
  dsimp only
  rw [observeSummary_of_none h]
  rfl

theorem observeEnd_of_none (hnone : state.activeInvocations.get? step = none) :
    observeEnd env moment state step target none = .ok (none, state) := by
  unfold observeEnd
  split_ifs
  · rw [hnone]
  · rfl

theorem observeAgent_settles {evidence : Option RecoveryInvocationV1} (hfault : state.fault = none)
    (h : ∀ state' : ObserverState D, state'.activeInvocations = state.activeInvocations →
      P state') : Settles P (observeAgent env moment state step target evidence) := by
  unfold observeAgent
  split_ifs
  · split
    · exact ⟨h state rfl, hfault⟩
    · split
      · exact ⟨_, rfl, nofun⟩
      · split
        · exact ⟨_, rfl, nofun⟩
        · exact ⟨h _ rfl, hfault⟩
    · exact ⟨_, rfl, nofun⟩
  · exact ⟨h state rfl, hfault⟩

/-- Without other evidence the reported execution is known or is settled. -/
theorem settleReported_cases (settled : Option (ActionId × ActiveStepInvocation)) :
    ∃ evidence state₁, settleReported env moment state step settled none = .ok (evidence, state₁) ∧
      ((state₁ = state ∧ ∀ ended ∈ settled,
          (state.settledInvocations.get? ended.1.transitionSequence).isSome = true) ∨
        ∃ ended record, settled = some ended ∧ state₁ = state.file step record ∧
          record.key = invocationKey .settled ended) := by
  cases settled with
  | none => exact ⟨none, state, rfl, Or.inl ⟨rfl, nofun⟩⟩
  | some ended =>
    obtain ⟨action, active⟩ := ended
    unfold settleReported
    dsimp only
    split_ifs with hknown
    · refine ⟨none, state, rfl, Or.inl ⟨rfl, fun ended hended => ?_⟩⟩
      cases hended
      exact hknown
    · have hfree : state.settledInvocations.get? action.transitionSequence = none :=
        Option.not_isSome_iff_eq_none.mp hknown
      obtain ⟨record, hrecord, hkey⟩ := @settleRunnerInvocation_fresh D state step
        ⟨action, active, ((state.stepTimings.get? step).map
          RunnerStepTiming.startedAt).getD (env.now moment)⟩ (env.now moment) false env moment hfree
      exact ⟨some record, _, hrecord, Or.inr ⟨(action, active), record, rfl, rfl, hkey⟩⟩

section

variable (h : Evidence met state step rt)
include h

/-- A quiet transition settles at most an execution whose record is due. -/
theorem Evidence.quiet (hfault : state.fault = none) (hlive : rt.state.isTerminal = false)
    (hreport : ∀ report ∈ reportedInvocations summary, rt.rounds ≠ [] ∧
      rt.invocations.getLast? = some report.1 ∧
      ∀ invocation ∈ report.2, invocation ∈ rt.invocations.dropLast) :
    Settles (fun state' => Evidence met state' step rt)
      (observeSummary env moment state step summary) := by
  cases hsummary : reportedInvocations summary with
  | none =>
    rw [observeSummary_of_none hsummary]
    exact ⟨h, hfault⟩
  | some report =>
    obtain ⟨⟨action, active⟩, settled⟩ := report
    obtain ⟨hrounds, hlast, hsettled⟩ := hreport _ hsummary
    obtain ⟨action', active', startedAt, hlast', hactive⟩ := h.working hrounds hlive
    obtain ⟨rfl, rfl⟩ := Prod.mk.inj (Option.some.inj (hlast'.symm.trans hlast))
    have hprevious : settlePrevious env moment state step action' = .ok (none, state) := by
      unfold settlePrevious
      rw [hactive]
      exact if_neg (not_not_intro rfl)
    have hregister : ∀ state₁ : ObserverState D,
        state₁.activeInvocations = state.activeInvocations →
        registerActive env moment state₁ step active' action' = state₁ := by
      intro state₁ hsame
      unfold registerActive
      rw [hsame, hactive]
    obtain ⟨evidence, state₁, hreported, hcases⟩ :=
      @settleReported_cases D state step env moment settled
    rw [observeSummary_of_some hsummary]
    unfold observeRecovery
    dsimp only
    rw [hprevious]
    dsimp only [bind, Except.bind]
    rw [hreported]
    rcases hcases with ⟨rfl, -⟩ | ⟨ended, record, rfl, rfl, hkey⟩
    · exact ⟨(hregister state₁ rfl).symm ▸ h, (hregister state₁ rfl).symm ▸ hfault⟩
    · have hdue : record.key ∈ dueRecords rt := by
        rw [dueRecords_live hlive, hkey]
        exact List.mem_map_of_mem (hsettled ended rfl)
      have hsame := hregister (state.file step record) rfl
      exact ⟨hsame.symm ▸ h.file hrounds hdue, hsame.symm ▸ hfault⟩

/-- The records after the settlement of the active invocation. -/
theorem Evidence.settled_active (hrounds : rt.rounds ≠ [])
    (hlive : rt.state.isTerminal = false) {ending : RecoveryInvocationStateV1}
    (hkey : record.key = invocationKey ending invocation) :
    (∀ k known, ((state.release step).file step record).recorded step k = some known →
      known.key ∈ rt.invocations.dropLast.map (invocationKey .settled) ++
        [invocationKey ending invocation]) ∧
    (met → ∀ key ∈ rt.invocations.dropLast.map (invocationKey .settled) ++
        [invocationKey ending invocation],
      ∃ known, ((state.release step).file step record).recorded step key.invocationId =
        some known) := by
  have hsound := h.sound hrounds
  have hcomplete := fun hmet => h.complete hmet hrounds
  rw [dueRecords_live hlive] at hsound hcomplete
  constructor
  · intro k known hknown
    by_cases hk : k = record.invocationId
    · rw [hk, recorded_file_self] at hknown
      rw [← Option.some.inj hknown, hkey]
      exact List.mem_append_right _ (List.mem_singleton_self _)
    · rw [recorded_file_of_ne hk] at hknown
      exact List.mem_append_left _ (hsound k known hknown)
  · intro hmet key hmem
    by_cases hk : key.invocationId = record.invocationId
    · exact ⟨record, by rw [hk, recorded_file_self]⟩
    · rw [recorded_file_of_ne hk]
      rcases List.mem_append.mp hmem with hmem | hmem
      · exact hcomplete hmet key hmem
      · refine absurd ?_ hk
        rw [List.mem_singleton.mp hmem, ← hkey]
        rfl

/-- The active invocation of a step can be settled. -/
theorem Evidence.settle_active (hfiled : Filed env belongs state)
    (hseparate : Separate belongs) (hrounds : rt.rounds ≠ []) (hlive : rt.state.isTerminal = false)
    (hown : ∀ invocation ∈ rt.invocations, belongs invocation.1.transitionSequence step)
    (hnodup : (rt.invocations.map (·.1.transitionSequence)).Nodup) (cancelled : Bool) :
    ∃ invocation active record, rt.invocations.getLast? = some invocation ∧
      state.activeInvocations.get? step = some active ∧ active.id = invocation.1 ∧
      settleRunnerInvocation env moment (state.release step) step active (env.now moment) cancelled
        none = .ok (some record, (state.release step).file step record) ∧
      record.key = invocationKey (settledState cancelled) invocation := by
  obtain ⟨action, active, startedAt, hlast, hactive⟩ := h.working hrounds hlive
  have hfree : state.settledInvocations.get? action.transitionSequence = none :=
    Filed.get?_eq_none hfiled hseparate (hown (action, active) (List.mem_of_getLast? hlast))
      (h.active_unrecorded hfiled hrounds hlive hnodup hlast)
  obtain ⟨record, hrecord, hkey⟩ := @settleRunnerInvocation_fresh D (state.release step)
    step ⟨action, active, startedAt⟩ (env.now moment) cancelled env moment hfree
  exact ⟨(action, active), ⟨action, active, startedAt⟩, record, hlast, hactive, rfl, hrecord, hkey⟩

end

/-- Before its first round a step has at most one invocation. -/
theorem invocations_of_no_rounds (hrounds : rt.rounds = [])
    (hlast : rt.invocations.getLast? = some invocation) : rt.invocations = [invocation] := by
  have hopen : rt.invocations = rt.openTarget := by
    rw [StepRuntimeState.invocations, hrounds]
    rfl
  rw [hopen] at hlast ⊢
  unfold StepRuntimeState.openTarget at hlast ⊢
  split at hlast
  · split_ifs at hlast ⊢ with hn
    · exact congrArg (fun x => [x]) (Option.some.inj hlast)
    · cases hlast
  · cases hlast

theorem registerActive_of_none {active : ActiveStepInvocation} {action : ActionId}
    (hnone : state.activeInvocations.get? step = none) :
    registerActive env moment state step active action =
      state.register step ⟨action, active, env.now moment⟩ := by
  unfold registerActive
  rw [hnone]

variable (h : Evidence met state step rt) (hfiled : Filed env belongs state)
  (hseparate : Separate belongs) (hfault : state.fault = none)
  (hown : ∀ invocation ∈ rt.invocations, belongs invocation.1.transitionSequence step)
include h hfiled hseparate hfault hown

section Started

variable {settled : Option (ActionId × ActiveStepInvocation)} (hrounds : rt₁.rounds ≠ [])
  (hinvocations : rt₁.invocations = rt.invocations ++ [invocation])
  (hlive : rt.state.isTerminal = false) (hlive₁ : rt₁.state.isTerminal = false)
  (hsettled : ∀ ended ∈ settled, rt.invocations.getLast? = some ended)
include hrounds hinvocations hlive hlive₁ hsettled

/-- The first execution of a step was never registered: it is settled if it is reported. -/
theorem Evidence.started_first (hfirst : rt.rounds = []) (hmissing : settled = none → ¬ met) :
    Settles (fun state' => Evidence met state' step rt₁)
      (observeRecovery env moment state step invocation.2 invocation.1 settled) := by
  obtain ⟨hactive, hunrecorded⟩ := h.idle hfirst
  have hprevious : settlePrevious env moment state step invocation.1 = .ok (none, state) := by
    unfold settlePrevious
    rw [hactive]
  obtain ⟨evidence, state₁, hreported, hcases⟩ :=
    @settleReported_cases D state step env moment settled
  unfold observeRecovery
  rw [hprevious]
  dsimp only [bind, Except.bind]
  rw [hreported]
  rcases hcases with ⟨rfl, hknown⟩ | ⟨ended, record, rfl, rfl, hkey⟩
  · have hnone : settled = none := by
      cases settled with
      | none => rfl
      | some ended =>
        have hmem := List.mem_of_getLast? (hsettled ended rfl)
        have hfree := Filed.get?_eq_none hfiled hseparate (hown ended hmem) (hunrecorded hlive _)
        have hsome := hknown ended rfl
        rw [hfree] at hsome
        cases hsome
    dsimp only
    rw [registerActive_of_none hactive]
    refine ⟨.register hrounds hlive₁ hinvocations ?_ ?_ _, hfault⟩
    · intro k record hrecorded
      cases (hunrecorded hlive k).symm.trans hrecorded
    · exact fun hmet => absurd hmet (hmissing hnone)
  · have hone := invocations_of_no_rounds hfirst (hsettled ended rfl)
    have hactive' : (state.file step record).activeInvocations.get? step = none := hactive
    dsimp only
    rw [registerActive_of_none hactive']
    refine ⟨.register hrounds hlive₁ hinvocations ?_ ?_ _, hfault⟩
    · intro k known hknown
      rw [recorded_file, hunrecorded hlive k, if_pos rfl] at hknown
      split_ifs at hknown
      cases hknown
      rw [hone, hkey]
      exact List.mem_singleton_self _
    · intro _ key hmem
      rw [hone, List.map_singleton, ← hkey] at hmem
      exact ⟨record, by rw [List.mem_singleton.mp hmem]; exact recorded_file_self⟩

/-- A later invocation was registered: it is settled when the next one is active. -/
theorem Evidence.started_later
    (hnodup : ((rt.invocations ++ [invocation]).map (·.1.transitionSequence)).Nodup)
    (hlater : rt.rounds ≠ []) : Settles (fun state' => Evidence met state' step rt₁)
      (observeRecovery env moment state step invocation.2 invocation.1 settled) := by
  rw [List.map_append] at hnodup
  obtain ⟨hnodup, -, hfresh⟩ := List.nodup_append.mp hnodup
  obtain ⟨previous, active, record, hlast, hactive, hid, hsettle, hkey⟩ :=
    @Evidence.settle_active _ _ _ _ _ _ _ _ moment h hfiled hseparate hlater hlive hown hnodup false
  have hne : active.id ≠ invocation.1 := by
    intro heq
    refine hfresh _ (List.mem_map_of_mem (List.mem_of_getLast? hlast)) _
      (List.mem_singleton_self _) ?_
    rw [← hid, heq]
  have hprevious : settlePrevious env moment state step invocation.1 =
      .ok (some record, (state.release step).file step record) := by
    unfold settlePrevious
    rw [hactive]
    dsimp only
    rw [if_pos hne, hsettle]
  have hreported : settleReported env moment ((state.release step).file step record) step settled
      (some record) = .ok (some record, (state.release step).file step record) := by
    cases settled with
    | none => rfl
    | some ended =>
      have hended := Option.some.inj (hlast.symm.trans (hsettled ended rfl))
      refine if_pos ?_
      have hknown := recorded_eq_some_iff.mp (@recorded_file_self D (state.release step)
        step record)
      have hsame : record.invocationId = ended.1.transitionSequence := by
        rw [← hended, ← invocationKey_id (settledState false) previous, ← hkey]
        rfl
      rw [hsame] at hknown
      rw [hknown]
      rfl
  unfold observeRecovery
  rw [hprevious]
  dsimp only [bind, Except.bind]
  rw [hreported]
  dsimp only
  rw [registerActive_of_none (by rw [file_activeInvocations, release_get?, if_pos rfl])]
  obtain ⟨hsound, hcomplete⟩ := h.settled_active hlater hlive hkey
  have hall : rt.invocations.dropLast.map (invocationKey .settled) ++
      [invocationKey (settledState false) previous] =
      rt.invocations.map (invocationKey .settled) := by
    nth_rewrite 2 [← List.dropLast_append_getLast? previous hlast]
    rw [List.map_append]
    rfl
  rw [hall] at hsound hcomplete
  exact ⟨.register hrounds hlive₁ hinvocations hsound hcomplete _, hfault⟩

end Started

/-- The end of a step settles its active invocation. -/
theorem Evidence.finished (hnodup : (rt.invocations.map (·.1.transitionSequence)).Nodup)
    (hrounds : rt₁.rounds = [] ↔ rt.rounds = [])
    (hinvocations : rt.rounds ≠ [] → rt₁.invocations = rt.invocations)
    (hlive : rt.state.isTerminal = false) (hended : rt₁.state.isTerminal = true)
    (hkind : rt₁.state.kind = target) (htarget : rt.rounds ≠ [] → target.endsExecution = true) :
    Settles (fun state' => Evidence met state' step rt₁)
      ((observeEnd env moment state step target none).bind (fun result =>
        observeAgent env moment result.2 step target result.1)) := by
  by_cases hfirst : rt.rounds = []
  · have hactive := (h.idle hfirst).1
    rw [observeEnd_of_none hactive]
    refine observeAgent_settles hfault (fun state' hsame => ?_)
    exact .of_unrecovered (hrounds.mpr hfirst) hended (by rw [hsame]; exact hactive)
  · obtain ⟨invocation, active, record, hlast, hactive, _, hsettle, hkey⟩ :=
      @Evidence.settle_active _ _ _ _ _ _ _ _ moment h hfiled hseparate
        hfirst hlive hown hnodup (target = .cancelled)
    have hend : observeEnd env moment state step target none =
        .ok (some record, (state.release step).file step record) := by
      unfold observeEnd
      rw [if_pos (htarget hfirst), hactive]
      exact hsettle
    have hagent : observeAgent env moment ((state.release step).file step record) step target
        (some record) = .ok (some record, (state.release step).file step record) :=
      if_neg (fun hall => absurd hall.2.2.1 (Option.some_ne_none record))
    have hdue : dueRecords rt₁ = rt.invocations.dropLast.map (invocationKey .settled) ++
        [invocationKey (settledState (target = .cancelled)) invocation] := by
      unfold dueRecords StepRuntimeState.evidence
      rw [if_pos hended, hinvocations hfirst, hlast, hkind, settledState]
      simp only [decide_eq_true_eq]
      rfl
    obtain ⟨hsound, hcomplete⟩ := h.settled_active hfirst hlive hkey
    rw [← hdue] at hsound hcomplete
    rw [hend]
    dsimp only [Except.bind]
    rw [hagent]
    have hreleased : ((state.release step).file step record).activeInvocations.get? step =
      none := by
      rw [file_activeInvocations, release_get?, if_pos rfl]
    exact ⟨⟨fun hnil => absurd (hrounds.mp hnil) hfirst,
      fun _ hlive₁ => absurd (hlive₁.symm.trans hended) Bool.false_ne_true, fun _ => hreleased,
      fun _ => hsound, fun hmet _ => hcomplete hmet⟩, hfault⟩

/-- The transitions of a step keep its evidence. -/
theorem Evidence.tracked (htracked : Tracked met last rt (source, target) rt₁)
    (hnodup : (rt.invocations.map (·.1.transitionSequence)).Nodup)
    (hnodup₁ : (rt₁.invocations.map (·.1.transitionSequence)).Nodup)
    (hsummary : reportedInvocations summary = nodeReport source target last) :
    Settles (fun state' => Evidence met state' step rt₁) (observeInvocations env moment state
        ⟨.step sequence step role policy source target, summary⟩) := by
  cases htracked with
  | quiet hrounds hinvocations hlive hlive₁ htarget hreport =>
    rw [observeInvocations_of_working htarget]
    refine (h.quiet hfault hlive (hsummary ▸ hreport)).imp (fun state' h' => ?_)
    refine h'.of_history hrounds hinvocations (fun hne => ?_) (hlive₁.trans hlive.symm)
    rw [dueRecords_live hlive, dueRecords_live hlive₁, hinvocations hne]
  | started hrounds hinvocations hlive hlive₁ htarget hreport hsettled hmissing =>
    rw [observeInvocations_of_working htarget, observeSummary_of_some (hsummary.trans hreport)]
    by_cases hfirst : rt.rounds = []
    · exact h.started_first hfiled hseparate hfault hown hrounds hinvocations hlive hlive₁ hsettled
        hfirst (hmissing hfirst)
    · exact h.started_later hfiled hseparate hfault hown hrounds hinvocations hlive hlive₁ hsettled
        (hinvocations ▸ hnodup₁) hfirst
  | ended hrounds hinvocations hlive hended hkind htarget hreport =>
    rw [observeInvocations_of_end (hsummary.trans hreport)]
    exact h.finished hfiled hseparate hfault hown hnodup hrounds hinvocations hlive hended hkind
      htarget

end Transitions

section Reductions

variable {met : String → Prop} {final : RuntimeState StepFailureCause V D}
  {event : TransitionEvent D} {events : List (TransitionEvent D)}

/-- What an observer that goes on knows in the middle of a reduction: the evidence of every
step is at most the transitions behind that are still to come. -/
structure Knows (env : ObserverEnvironment) (belongs : Nat → String → Prop) (met : String → Prop)
    (final : RuntimeState StepFailureCause V D)
    (events : List (TransitionEvent D)) (state : ObserverState D) : Prop where
  filed : Filed env belongs state
  known : ∀ step last, final.steps.get? step = some last → ∃ rt,
    Evidence (met step) state step rt ∧ TrackedMoves (met step) last rt (movesOf step events)
  unknown : ∀ step, final.steps.get? step = none → state.activeInvocations.get? step = none

/-- The observer goes on with its knowledge, or it has stopped for another reason than a
settlement that failed. -/
def Watched (env : ObserverEnvironment) (belongs : Nat → String → Prop) (met : String → Prop)
    (final : RuntimeState StepFailureCause V D)
    (events : List (TransitionEvent D)) (state : ObserverState D) : Prop :=
  state.fault ≠ some .invocationSettlementFailed ∧
    (state.fault = none → Knows env belongs met final events state)

/-- The histories of the nodes: every invocation has its own identity and belongs to its step. -/
structure Identified (belongs : Nat → String → Prop)
    (final : RuntimeState StepFailureCause V D) : Prop where
  own : ∀ step last, final.steps.get? step = some last → ∀ invocation ∈ last.invocations,
    belongs invocation.1.transitionSequence step
  nodup : ∀ step last, final.steps.get? step = some last →
    (last.invocations.map (fun invocation => invocation.1.transitionSequence)).Nodup

theorem Knows.of_eq (h : Knows env belongs met final events state)
    (hactive : state'.activeInvocations = state.activeInvocations)
    (hsettled : state'.settledInvocations = state.settledInvocations) :
    Knows env belongs met final events state' where
  filed := ⟨hsettled ▸ h.filed.record, hsettled ▸ h.filed.made, hactive ▸ h.filed.active⟩
  known step last hlast := by
    obtain ⟨rt, hevidence, hmoves⟩ := h.known step last hlast
    refine ⟨rt, hevidence.of_same ⟨by rw [hactive], fun k => ?_⟩, hmoves⟩
    rw [ObserverState.recorded, hsettled]
    rfl
  unknown step hnone := hactive ▸ h.unknown step hnone

/-- After a transition of one step the knowledge about the others is kept. -/
theorem Knows.of_touches (h : Knows env belongs met final (event :: events) state)
    (hseparate : Separate belongs) (htouches : Touches env belongs step state state')
    (hothers : ∀ j, j ≠ step → movesOf j (event :: events) = movesOf j events)
    (hknown : ∀ last, final.steps.get? step = some last → ∃ rt,
      Evidence (met step) state' step rt ∧ TrackedMoves (met step) last rt (movesOf step events))
    (hunknown : final.steps.get? step = none → state'.activeInvocations.get? step = none) :
    Knows env belongs met final events state' where
  filed := htouches.filed h.filed
  known j last hlast := by
    by_cases hj : j = step
    · subst hj
      exact hknown last hlast
    · obtain ⟨rt, hevidence, hmoves⟩ := h.known j last hlast
      rw [hothers j hj] at hmoves
      exact ⟨rt, hevidence.of_same (htouches.same h.filed hseparate hj), hmoves⟩
  unknown j hnone := by
    by_cases hj : j = step
    · subst hj
      exact hunknown hnone
    · rw [(htouches.same h.filed hseparate hj).active]
      exact h.unknown j hnone

/-- What is shown of the result of an observation holds with the frame of the observation. -/
theorem Settles.and {result : Except (ObserverState D)
      (Option RecoveryInvocationV1 × ObserverState D)} {Q : ObserverState D → Prop}
    (h : Settles P result) (hok : ∀ evidence state', result = .ok (evidence, state') → Q state') :
    Settles (fun state' => P state' ∧ Q state') result := by
  cases result with
  | error => exact h
  | ok => exact ⟨⟨h.1, hok _ _ rfl⟩, h.2⟩

section Observing

variable (hlogs : env.Logs belongs) (hseparate : Separate belongs)
  (hidentified : Identified belongs final)
include hlogs hseparate hidentified

/-- A transition keeps the knowledge of the observer. -/
theorem Knows.settles (h : Knows env belongs met final (event :: events) state)
    (hfault : state.fault = none) : Settles (Knows env belongs met final events)
      (observeInvocations env moment state ⟨event, observedStepTransition event final⟩) := by
  cases event with
  | workflow | cancellationAccepted | finalizationCancellationAccepted | forceAbortAccepted =>
    exact ⟨⟨h.filed, h.known, h.unknown⟩, hfault⟩
  | step sequence step role policy source target =>
    have hothers : ∀ j, j ≠ step → movesOf j
        (.step sequence step role policy source target :: events) = movesOf j events := by
      intro j hj
      rw [movesOf_cons, moveOf, if_neg (fun heq => hj heq.symm)]
      rfl
    cases hlast : final.steps.get? step with
    | none =>
      have hactive := h.unknown step hlast
      have hsummary : observedStepTransition
          (.step sequence step role policy source target) final = none := by
        unfold observedStepTransition
        dsimp only
        rw [hlast]
        rfl
      rw [hsummary, observeInvocations_of_end rfl, observeEnd_of_none hactive]
      have hagent : Settles (fun _ : ObserverState D => True)
          (observeAgent env moment state step target none) :=
        observeAgent_settles hfault (fun _ _ => trivial)
      refine (Settles.and hagent (fun evidence state' hok =>
        observeAgent_touches hlogs hok)).imp (fun state' hall => ?_)
      refine h.of_touches hseparate hall.2.1 hothers (fun last hsome => ?_) (fun _ => ?_)
      · cases hlast.symm.trans hsome
      · rw [hall.2.2]
        exact hactive
    | some last =>
      obtain ⟨rt, hevidence, hmoves⟩ := h.known step last hlast
      rw [movesOf_cons, moveOf, if_pos rfl] at hmoves
      cases hmoves with
      | step htracked hleading hrest =>
        have hsummary := reportedInvocations_step hlast sequence role policy source target
        have hown := hidentified.own step last hlast
        have hnodup := hidentified.nodup step last hlast
        have hleading' := hrest.invocations_prefix
        have hreport : OwnReport belongs step (observedStepTransition
            (.step sequence step role policy source target) final) := by
          intro report hreport
          obtain ⟨hactive, hended⟩ := htracked.report_mem (hsummary.symm.trans hreport)
          exact ⟨hown _ (hleading'.subset hactive),
            fun ended hmem => hown _ (hleading'.subset (hended ended hmem))⟩
        refine (Settles.and (hevidence.tracked h.filed hseparate hfault
          (fun invocation hmem => hown _ (hleading.subset hmem)) htracked
          (hnodup.sublist (hleading.sublist.map _)) (hnodup.sublist (hleading'.sublist.map _))
          hsummary) (fun evidence state' hok =>
            observeInvocations_touches hlogs hok h.filed hreport)).imp (fun state' hall => ?_)
        refine h.of_touches hseparate hall.2 hothers (fun last' hsome => ?_) (fun hnone => ?_)
        · cases hlast.symm.trans hsome
          exact ⟨_, hall.1, hrest⟩
        · cases hlast.symm.trans hnone

/-- An observation keeps the observer watching. -/
theorem Watched.observe (h : Watched env belongs met final (event :: events) state)
    (hfence : env.fenced moment = false) : Watched env belongs met final events
      (observe env moment state ⟨event, observedStepTransition event final⟩) := by
  cases hfault : state.fault with
  | some =>
    have hsame : Runner.observe env moment state ⟨event, observedStepTransition event final⟩ =
        state := by
      unfold Runner.observe
      rw [if_neg (by rw [hfence]; exact fun h => Bool.false_ne_true h.1),
        if_pos (by rw [hfault]; rfl)]
    rw [hsame]
    refine ⟨h.1, fun hnone => ?_⟩
    cases hfault.symm.trans hnone
  | none =>
    exact observe_spec hfence hfault
      ((h.2 hfault).settles hlogs hseparate hidentified hfault)
      (fun state₁ state₂ hknows => hknows.of_eq)

/-- The observations of a reduction keep the observer watching. -/
theorem Watched.observeFrom (h : Watched env belongs met final events state)
    (hfence : ∀ moment, env.fenced moment = false) :
    Watched env belongs met final [] (observeFrom env moment state
      (events.map (fun event => ⟨event, observedStepTransition event final⟩))) := by
  induction events generalizing moment state with
  | nil => exact h
  | cons event events ih =>
    exact ih (h.observe hlogs hseparate hidentified (hfence moment))

end Observing

/-- After a reduction the evidence of every step is up to date. -/
theorem Knows.evidence (h : Knows env belongs met final [] state)
    (hlast : final.steps.get? step = some last) : Evidence (met step) state step last := by
  obtain ⟨rt, hevidence, hmoves⟩ := h.known step last hlast
  cases hmoves with
  | done hhistory hstate =>
    refine hevidence.of_history hhistory.rounds_iff (fun _ => hhistory.invocations) (fun _ => ?_)
      (by rw [hstate])
    unfold dueRecords StepRuntimeState.evidence
    rw [hhistory.invocations, hstate]

end Reductions

section Runs

theorem Evidence.initial (hactive : state.activeInvocations = .empty)
    (hsettled : state.settledInvocations = .empty) :
    Evidence met state step (initialStep seed step d) := by
  have hnone : (initialStep seed step d : StepRuntimeState StepFailureCause V).rounds = [] := by
    unfold initialStep StepRuntimeState.rounds
    cases seed.steps.get? step <;> cases d.recovery <;> rfl
  have hidle : state.activeInvocations.get? step = none := by rw [hactive]; rfl
  exact ⟨fun _ => ⟨hidle, fun _ k => by rw [ObserverState.recorded, hsettled]; rfl⟩,
    fun hne => absurd hnone hne, fun _ => hidle, fun hne => absurd hnone hne,
    fun _ hne => absurd hnone hne⟩

/-- An invocation of a step was requested. -/
def Started (actions : List (RequestedAction O StepFailureCause V D)) (k : Nat)
    (step : String) : Prop :=
  ∃ invocation ∈ startsOf step actions, invocation.1.transitionSequence = k

theorem started_separate {actions : List (RequestedAction O StepFailureCause V D)}
    (h : ((startIds actions).map ActionId.number).Pairwise (· < ·)) :
    Separate (Started actions) := by
  rintro k step j ⟨⟨action, active⟩, hmem, rfl⟩ ⟨⟨action', active'⟩, hmem', hid⟩
  obtain rfl : action' = action := by
    cases action
    cases action'
    exact congrArg ActionId.mk hid
  refine startsOf_node ?_ hmem hmem'
  exact List.Nodup.of_map ActionId.number (h.imp (fun hlt => Nat.ne_of_lt hlt))

variable [ConditionOutput V] [ProvisionalStepResources O] {start : ExecutionStart D}
  {occurrences before : List (Occurrence O StepFailureCause V D)} {id : String}

/-- In a run, no first execution of a step that can recover fails to start. -/
def NoFirstStartFails (start : ExecutionStart D) (seed : ExecutionSeed V)
    (occurrences : List (Occurrence O StepFailureCause V D)) (step : String) : Prop :=
  ∀ before occurrence, before ++ [occurrence] <+: occurrences → ∀ rt,
    (ledger start seed before).state.steps.get? step = some rt →
    firstStartFails step rt occurrence = false

variable (hcoherent : start.definition.Coherent)
  (hretries : ∀ id d, start.definition.steps.get? id = some d →
    ∀ policy ∈ d.recovery, policy.retries ≤ 10)
  (hascending : ((startIds (ledger start seed occurrences).actions).map
    ActionId.number).Pairwise (· < ·)) (hbefore : before <+: occurrences)
include hcoherent hretries hascending hbefore

theorem ledger_identified : Identified (Started (ledger start seed occurrences).actions)
      (ledger start seed before).state := by
  have hreach := ledger_reachable start seed hcoherent before
  have hactions : (ledger start seed before).actions <+: (ledger start seed occurrences).actions := by
    obtain ⟨later, rfl⟩ := hbefore
    obtain ⟨m, -, hemission⟩ := ledger_append start seed hcoherent before later
    exact ⟨m.actions, (congrArg Emission.actions hemission).symm⟩
  have hhistory : ∀ step last, (ledger start seed before).state.steps.get? step = some last →
      startsOf step (ledger start seed before).actions = last.invocations := by
    intro step last hlast
    obtain ⟨d, hd⟩ := hreach.nodesMatch.definition hlast
    rw [hreach.definition_eq] at hd
    exact ledger_invocations hcoherent hd (hretries step d hd) hlast
  constructor
  · intro step last hlast invocation hmem
    rw [← hhistory step last hlast] at hmem
    exact ⟨invocation, (hactions.filterMap _).subset hmem, rfl⟩
  · intro step last hlast
    rw [← hhistory step last hlast]
    have hsub := (@startsOf_sublist _ _ _ _ (ledger start seed occurrences).actions step).map
      ActionId.number
    have hstarts := ((hactions.filterMap (startOf step)).sublist.map Prod.fst).map ActionId.number
    have hnodup := (hascending.imp (fun hlt => Nat.ne_of_lt hlt)).sublist (hstarts.trans hsub)
    rwa [List.map_map] at hnodup

/-- The observer watches every run that it sees without a fence. -/
theorem run_watched (hfence : ∀ moment, env.fenced moment = false)
    (hlogs : env.Logs (Started (ledger start seed occurrences).actions)) :
    Watched env (Started (ledger start seed occurrences).actions)
      (NoFirstStartFails start seed occurrences) (ledger start seed before).state []
      (observeAll env (observedRun start seed before).2) := by
  have hseparate : Separate (Started (ledger start seed occurrences).actions) :=
    started_separate hascending
  induction before using List.reverseRecOn with
  | nil =>
    have hidentified := ledger_identified hcoherent hretries hascending hbefore
    refine Watched.observeFrom hlogs hseparate hidentified ⟨by rintro ⟨⟩, fun _ => ⟨Filed.initial,
      fun step last hlast => ?_, fun _ _ => rfl⟩⟩ hfence
    have hreach := ledger_reachable start seed hcoherent
      ([] : List (Occurrence O StepFailureCause V D))
    obtain ⟨d, hd⟩ := hreach.nodesMatch.definition hlast
    rw [hreach.definition_eq] at hd
    have hnode : ∃ rt', (initializeSeededDefinition start seed :
        Reduction O StepFailureCause V D).state.steps.get? step = some rt' ∧
        _ := initialize_node hcoherent hd
    obtain ⟨rt', hrt', hview⟩ := hnode
    obtain rfl := Option.some.inj (hrt'.symm.trans hlast)
    obtain ⟨hbook', hcurrent'⟩ := ledger_handlerCurrent hcoherent hd (hretries step d hd) hlast
    have hinitial : Reachable start.definition seed
        (1 : Emission O StepFailureCause V D)
        (initialState start.definition seed) := .refl _
    exact ⟨initialStep seed step d, .initial rfl rfl, hview.tracked
      (hinitial.nodeBookkeeping hd (hretries step d hd) (get?_initialState hd seed)) hbook' hcurrent'
      (by rintro _ _ ⟨⟩)⟩
  | append_singleton before occurrence ih =>
    have hearlier : before <+: occurrences := (List.prefix_append _ _).trans hbefore
    have hwatched := ih hearlier
    have hidentified := ledger_identified hcoherent hretries hascending hbefore
    rw [observedRun_concat, observeAll, observeFrom_append]
    rw [ledger_concat] at hidentified ⊢
    refine Watched.observeFrom hlogs hseparate hidentified ⟨hwatched.1, fun hfault => ?_⟩ hfence
    have hknows := hwatched.2 hfault
    have hreach := ledger_reachable start seed hcoherent before
    have hcoherent' := hreach.coherent hcoherent
    refine ⟨hknows.filed, fun step last hlast => ?_, fun step hnone => ?_⟩
    · have hlast' : (ledger start seed (before ++ [occurrence])).state.steps.get? step =
          some last := by rw [ledger_concat]; exact hlast
      have hreach' := ledger_reachable start seed hcoherent (before ++ [occurrence])
      obtain ⟨d, hd⟩ := hreach'.nodesMatch.definition hlast'
      rw [hreach'.definition_eq] at hd
      have hd' : (ledger start seed before).state.definition.steps.get? step = some d := by
        rwa [hreach.definition_eq]
      obtain ⟨rt, hrt⟩ := hreach.nodesMatch.runtime hd'
      obtain ⟨rt', hrt', hview⟩ := reduce_node hreach.nodesMatch hcoherent' occurrence hd' hrt
      obtain rfl := Option.some.inj (hrt'.symm.trans hlast)
      obtain ⟨hbook', hcurrent'⟩ :=
        ledger_handlerCurrent hcoherent hd (hretries step d hd) hlast'
      obtain ⟨hbook, -⟩ := ledger_handlerCurrent hcoherent hd (hretries step d hd) hrt
      refine ⟨rt, hknows.evidence hrt, hview.tracked hbook hbook' hcurrent' ?_⟩
      intro hmet occurrence' hoccurrence
      cases hoccurrence
      exact hmet before occurrence hbefore rt hrt
    · refine hknows.unknown step ?_
      cases hbefore' : (ledger start seed before).state.steps.get? step with
      | none => rfl
      | some =>
        obtain ⟨d, hd⟩ := hreach.nodesMatch.definition hbefore'
        obtain ⟨rt', hrt', -⟩ := reduce_node hreach.nodesMatch hcoherent' occurrence hd hbefore'
        cases hnone.symm.trans hrt'

end Runs

variable {formats : ResultFormats} {limit : Nat}

/-- What the machine gives to the observer can be published: times and sessions in their
canonical form, streams within the limit. -/
structure ObserverEnvironment.WellFormed (env : ObserverEnvironment) (formats : ResultFormats)
    (limit : Nat) : Prop where
  timestamp : ∀ utc, formats.canonicalTimestamp (env.formatUtc utc) = true
  session : ∀ moment id, ∀ session ∈ env.nativeSession moment id,
    isCanonicalRelativePath ("runner/native-sessions/" ++ session) = true
  stream : ∀ moment step id, ∀ output ∈ env.diagnostic moment step id,
    validStream formats output.stdout limit = true ∧ validStream formats output.stderr limit = true

theorem isFileName_toString (n : Nat) : isFileName (toString n) = true := by
  have hdigit : ∀ c, c.isDigit = false → c ∉ (toString n).toList := by
    intro c hc hmem
    rw [Nat.toString_eq_ofList_toDigits, String.toList_ofList] at hmem
    rw [Nat.isDigit_of_mem_toDigits (by decide) (by decide) hmem] at hc
    cases hc
  have hdot : '.' ∉ (toString n).toList := hdigit '.' rfl
  simp only [isFileName, Bool.and_eq_true, Bool.not_eq_true', List.contains_eq_mem,
    decide_eq_false_iff_not, ne_eq, decide_not]
  refine ⟨⟨⟨fun h => ?_, fun h => hdot ?_⟩, fun h => hdot ?_⟩, hdigit '/' rfl⟩
  · rw [Nat.toString_eq_ofList_toDigits, String.ofList_eq_empty_iff] at h
    exact Nat.toDigits_ne_nil h
  · rw [h]
    decide
  · rw [h]
    decide

theorem isCanonicalRelativePath_diagnostic (directory stream : FileName) :
    isCanonicalRelativePath ("runner/invocations/" ++ directory.text ++ ("/" ++ stream.text)) =
      true := by
  have hpieces :
      ("runner/invocations/" ++ directory.text ++ ("/" ++ stream.text)).toList.splitOn '/' =
        ["runner", "invocations", directory.text, stream.text].map String.toList := by
    have hsplit := List.splitOn_intercalate '/' (show ∀ piece ∈ ["runner", "invocations",
      directory.text, stream.text].map String.toList, '/' ∉ piece by
        simp [directory.separator_notMem, stream.separator_notMem]) (by simp)
    simpa [List.intercalate] using hsplit
  have hnames : isFileName "runner" = true ∧ isFileName "invocations" = true := by decide
  unfold isCanonicalRelativePath
  rw [hpieces, List.all_map]
  simp [hnames, directory.valid, stream.valid]

theorem Made.wellFormed (h : Made env record) (henv : env.WellFormed formats limit) :
    WellFormedRecord formats limit record ∧ record.diagnostics.length ≤ 2 := by
  obtain ⟨moment, step, ⟨id, role, startedAt⟩, finishedAt, cancelled, h⟩ := h
  have hduration : finishedAt.monotonic - startedAt.monotonic < 2 ^ 64 :=
    Nat.lt_of_le_of_lt (Nat.sub_le _ _) finishedAt.inRange
  unfold invocationEvidence at h
  dsimp only at h
  rw [if_pos hduration] at h
  cases h
  refine ⟨⟨henv.timestamp _, henv.timestamp _, ?_, ?_⟩, ?_⟩
  · dsimp only
    cases hsession : env.nativeSession moment id with
    | none => rfl
    | some session => exact henv.session moment id session hsession
  · intro diagnostic hmem
    dsimp only at hmem
    cases houtput : env.diagnostic moment step id with
    | none =>
      rw [houtput] at hmem
      cases hmem
    | some output =>
      rw [houtput] at hmem
      obtain ⟨hstdout, hstderr⟩ := henv.stream moment step id output houtput
      have hreference := isCanonicalRelativePath_diagnostic
        ⟨_, isFileName_toString id.transitionSequence⟩
      rcases List.mem_cons.mp hmem with rfl | hmem
      · exact ⟨hreference ⟨"stdout", by decide⟩, hstdout⟩
      · rw [List.mem_singleton.mp hmem]
        exact ⟨hreference ⟨"stderr", by decide⟩, hstderr⟩
  · dsimp only
    cases env.diagnostic moment step id with
    | none => exact Nat.zero_le 2
    | some => exact Nat.le_refl 2

theorem mem_invocationsForStep :
    record ∈ state.invocationsForStep step ↔ ∃ k, state.recorded step k = some record := by
  unfold ObserverState.invocationsForStep
  rw [List.mem_filterMap]
  constructor
  · rintro ⟨⟨owner, known⟩, hmem, heq⟩
    obtain ⟨k, hget⟩ := BTreeMap.mem_values_iff.mp hmem
    dsimp only at heq
    split_ifs at heq with howner
    exact ⟨k, recorded_eq_some_iff.mpr (by rw [hget, howner, Option.some.inj heq])⟩
  · rintro ⟨k, hrecorded⟩
    refine ⟨(step, record), BTreeMap.mem_values_iff.mpr ⟨k, recorded_eq_some_iff.mp hrecorded⟩, ?_⟩
    exact if_pos rfl

/-- The records of a step come in the order of their identities. -/
theorem Filed.ascending (h : Filed env belongs state) :
    ((state.invocationsForStep step).map RecoveryInvocationV1.invocationId).Pairwise (· < ·) := by
  unfold ObserverState.invocationsForStep BTreeMap.values
  rw [List.filterMap_map, List.pairwise_map]
  have hids : ∀ e ∈ state.settledInvocations.entries, e.2.2.invocationId = e.1 := fun e hmem =>
    (h.record e.1 e.2.1 e.2.2 (BTreeMap.get?_eq_some_iff.mpr hmem)).1
  refine List.Pairwise.filterMap _ (R := fun e e' => e.2.2.invocationId < e'.2.2.invocationId) ?_ ?_
  · intro e e' hlt record hrecord record' hrecord'
    simp only [Function.comp_apply, Option.ite_none_right_eq_some] at hrecord hrecord'
    rw [← Option.some.inj hrecord.2, ← Option.some.inj hrecord'.2]
    exact hlt
  · refine state.settledInvocations.sorted.imp_of_mem (fun {e e'} hmem hmem' hlt => ?_)
    rw [hids e hmem, hids e' hmem']
    exact hlt

/-- Lists in the order of a key are equal if they have the same elements. -/
theorem eq_of_ascending {α : Type} {f : α → Nat} {l l' : List α}
    (hl : (l.map f).Pairwise (· < ·)) (hl' : (l'.map f).Pairwise (· < ·))
    (h : ∀ a, a ∈ l ↔ a ∈ l') : l = l' := by
  have hnodup : ∀ {l : List α}, (l.map f).Pairwise (· < ·) → l.Nodup := fun hl =>
    List.Nodup.of_map f (hl.imp (fun hlt => Nat.ne_of_lt hlt))
  refine ((List.perm_ext_iff_of_nodup (hnodup hl) (hnodup hl')).mpr h).eq_of_pairwise ?_
    (List.pairwise_map.mp hl) (List.pairwise_map.mp hl')
  exact fun a b _ _ hab hba => absurd (hab.trans hba) (Nat.lt_irrefl _)

/-- The observer has exactly the records of a recovered step that has ended. -/
theorem Evidence.records (h : Evidence met state step rt) (hfiled : Filed env belongs state)
    (hmet : met) (hrounds : rt.rounds ≠ []) (hended : rt.state.isTerminal = true)
    (hascending : (rt.invocations.map (·.1.transitionSequence)).Pairwise (· < ·)) :
    (state.invocationsForStep step).map RecoveryInvocationV1.key = rt.evidence := by
  have hdue : dueRecords rt = rt.evidence := if_pos hended
  have hsound := h.sound hrounds
  have hcomplete := h.complete hmet hrounds
  rw [hdue] at hsound hcomplete
  refine eq_of_ascending (f := InvocationKey.invocationId) ?_ ?_ (fun key => ⟨?_, ?_⟩)
  · rw [List.map_map]
    exact hfiled.ascending
  · rw [evidence_ids]
    exact hascending
  · intro hmem
    obtain ⟨record, hrecord, rfl⟩ := List.mem_map.mp hmem
    obtain ⟨k, hk⟩ := mem_invocationsForStep.mp hrecord
    exact hsound k record hk
  · intro hmem
    obtain ⟨record, hrecorded⟩ := hcomplete key hmem
    have hid := (hfiled.record _ _ _ (recorded_eq_some_iff.mp hrecorded)).1
    refine List.mem_map.mpr ⟨record, mem_invocationsForStep.mpr ⟨_, hrecorded⟩, ?_⟩
    exact evidence_unique hascending (hsound _ record hrecorded) hmem hid

variable [ConditionOutput V] [ProvisionalStepResources O]

/-- The evidence of the runner is complete for every step whose first execution, if the step
can recover, did not fail to start.  Without a fence no settlement fails; unless the observer
has stopped for another reason, a recovered step that has ended has exactly one record for each
invocation that was requested for it, in the order of the identities, with the last one
cancelled if the step was; and the check of the result accepts the records with the summary of
the recovery. -/
theorem invocation_evidence_complete {decoded : DecodedDocument} {workflow : ValidatedWorkflow}
    (hvalid : validate decoded.document = .ok workflow)
    (inputs : BTreeMap String ResolvedInput)
    (parallel transitions : Nat)
    (initial : Option (InitialCancellation D))
    (seed : ExecutionSeed V)
    (occurrences : List (Occurrence O StepFailureCause V D))
    {start : ExecutionStart D}
    (hstart : start =
      ⟨RuntimeDefinition.fromAdmitted workflow inputs parallel transitions, initial⟩)
    {run : Reduction O StepFailureCause V D}
    (hrun : run = ledger start seed occurrences)
    (hwithin : run.state.transitionCapacityExceeded = false)
    (env : ObserverEnvironment)
    (hfence : ∀ moment, env.fenced moment = false)
    (hlogs : env.Logs (Started run.actions))
    {observer : ObserverState D}
    (hobserver : observer = observeAll env (observedRun start seed occurrences).2) :
    observer.fault ≠ some .invocationSettlementFailed ∧
    (observer.fault = none → ∀ step rt, run.state.steps.get? step = some rt → rt.rounds ≠ [] →
      rt.state.isTerminal = true → NoFirstStartFails start seed occurrences step →
      rt.invocations = startsOf step run.actions ∧
      (observer.invocationsForStep step).map RecoveryInvocationV1.key = rt.evidence ∧
      ((observer.invocationsForStep step).map RecoveryInvocationV1.invocationId).Pairwise (· < ·) ∧
      ∀ formats digest bytes capacity limit,
        resolveWorkflowCapacity workflow digest bytes = .ok capacity →
        limit ≤ capacity.requirements.maximumRetainedBytesPerInvocation →
        env.WellFormed formats limit → (∀ occurrence ∈ occurrences, occurrence.Lawful) →
        ∃ summary state detail, stepRecoverySummaryV1 rt.recovery = .ok (some summary) ∧
          stepStateV1 rt.state = .ok (state, detail) ∧
          ∀ node : WorkflowStepV1, node.role = .step → node.state = state → node.detail = detail →
            node.recovery = some summary → node.invocations = observer.invocationsForStep step →
            validateStepRecovery formats limit node = true) := by
  have hcoherent : start.definition.Coherent := by
    rw [hstart]
    exact fromAdmitted_coherent hvalid ..
  have haccepted := validate_accepted hvalid
  have hretries : ∀ id d, start.definition.steps.get? id = some d →
      ∀ policy ∈ d.recovery, policy.retries ≤ 10 := by
    subst hstart
    exact fun id d hd policy hmem => haccepted.retries_le decoded.structural hd hmem
  have hreach := ledger_reachable start seed hcoherent occurrences
  rw [← hrun] at hreach
  have hlt : run.events.length < 2 ^ 63 := by
    subst hstart
    exact hreach.length_events_lt hvalid decoded.structural
  have hle := (hreach.within (hlt.trans (by decide))).mp hwithin
  obtain ⟨hascending, hnumbers⟩ := hreach.startIds_ascending hle hlt
  subst hrun
  obtain ⟨hsettles, hknows⟩ := run_watched hcoherent hretries hascending
    (List.prefix_refl occurrences) hfence hlogs
  rw [← hobserver] at hsettles hknows
  refine ⟨hsettles, fun hfault step rt hrt hrounds hended hfirst => ?_⟩
  have hknown := hknows hfault
  obtain ⟨d, hd⟩ := hreach.nodesMatch.definition hrt
  rw [hreach.definition_eq] at hd
  have hinvocations := ledger_invocations hcoherent hd (hretries step d hd) hrt
  have hsublist : (rt.invocations.map Prod.fst).Sublist
      (startIds (ledger start seed occurrences).actions) := by
    rw [← hinvocations]
    exact startsOf_sublist step
  have hids : (rt.invocations.map (fun invocation =>
      invocation.1.transitionSequence)).Pairwise (· < ·) := by
    have hsorted := hascending.sublist (hsublist.map ActionId.number)
    rwa [List.map_map] at hsorted
  have hkeys := (hknown.evidence hrt).records hknown.filed hfirst hrounds hended hids
  refine ⟨hinvocations.symm, hkeys, hknown.filed.ascending, ?_⟩
  intro formats digest bytes capacity limit hcapacity hlimit henv hlawful
  have hstep : d.recovery.isSome = true → d.role = .step := by
    subst hstart
    obtain ⟨body, horigin⟩ := haccepted.node_origin hd
    intro hsome
    cases hfinalizer : d.role with
    | step => rfl
    | finalizer =>
      rw [horigin.recovery hfinalizer] at hsome
      cases hsome
  obtain ⟨recovery, disposition, policy, hevidence, hpolicy, hconfigured, hkind⟩ :=
    ledger_settledEvidence hcoherent hd (hretries step d hd) hstep hlawful hrt hrounds hended hkeys
      hids
  have hmade : ∀ record ∈ observer.invocationsForStep step,
      WellFormedRecord formats limit record ∧ record.diagnostics.length ≤ 2 := by
    intro record hmem
    obtain ⟨k, hrecorded⟩ := mem_invocationsForStep.mp hmem
    exact (hknown.filed.made k step record (recorded_eq_some_iff.mp hrecorded)).wellFormed henv
  have hbasic := (resolveWorkflowCapacity_ok hcapacity).2.2
  obtain ⟨summary, hsummary, -⟩ := hevidence.summary_ok
  rw [← hevidence.recovery_eq] at hsummary
  obtain ⟨⟨state, detail⟩, hstate⟩ := stepStateV1_ok hended
  refine ⟨summary, state, detail, hsummary, hstate, ?_⟩
  rintro node hrole rfl rfl hrecovery hnode
  refine validateStepRecovery_of_history hevidence ?_ (fun record hmem => (hmade record hmem).1) ?_
    (hconfigured ▸ hretries step d hd policy hpolicy) hrole hnode (hrecovery ▸ hsummary) hstate
  · intro invocation hmem
    exact Nat.ne_of_gt (hnumbers _ (hsublist.subset (List.mem_map_of_mem hmem))).1
  · refine hbasic.retained_sum_le hlimit ?_ (fun record hmem => ?_)
    · have hlength := congrArg List.length (evidence_ids rt)
      rw [← hkeys, List.length_map, List.length_map, List.length_map] at hlength
      rw [hlength]
      refine hevidence.invocations_length_le.trans ?_
      rw [hconfigured, hkind]
      subst hstart
      exact hbasic.node_invocations_le haccepted hd hpolicy
    · exact (hmade record hmem).1.retained_le (hmade record hmem).2

/-- A machine without output to retain. -/
def quietEnvironment : ObserverEnvironment where
  now := fun moment => ⟨moment % 2 ^ 64, moment, Nat.mod_lt _ (by decide)⟩
  formatUtc := fun _ => "2026-01-01T00:00:00Z"
  diagnostic := fun _ _ _ => none
  invocationIds := fun _ _ => []
  usage := fun _ _ => none
  nativeSession := fun _ _ => none
  agentSteps := fun _ => false
  recoveryAgentSteps := fun _ => false
  fenced := fun _ => false
  enqueue := fun _ => none
  transitionBudget := 32

def plainFormats : ResultFormats := ⟨fun _ => true, fun _ => some 0⟩

def recoverableStart : ExecutionStart Nat :=
  ⟨RuntimeDefinition.fromAdmitted (acceptedWorkflow recoverableDocument) .empty 1 32, none⟩

/-- The step fails twice, with a handler in between. -/
def twiceFailed : List (Occurrence Unit StepFailureCause String Nat) :=
  [.stepStarted "build" ⟨1⟩,
    .stepExecutionFailed "build" ⟨1⟩ (.execution (.command (.unsuccessfulExit (some 1)))),
    .recoveryHandlerStarted "build" 1 ⟨3⟩,
    .recoveryHandlerCompleted "build" 1 ⟨3⟩ ⟨.recheck, "again", "flaky"⟩,
    .stepStarted "build" ⟨5⟩,
    .stepExecutionFailed "build" ⟨5⟩ (.execution (.command (.unsuccessfulExit (some 1))))]

/-- The same, but the first execution fails to start. -/
def unstarted : List (Occurrence Unit StepFailureCause String Nat) :=
  [.stepStartFailed "build" ⟨1⟩ (.start .inputsUnavailable),
    .recoveryHandlerStarted "build" 1 ⟨2⟩,
    .recoveryHandlerCompleted "build" 1 ⟨2⟩ ⟨.recheck, "again", "flaky"⟩,
    .stepStarted "build" ⟨4⟩,
    .stepExecutionFailed "build" ⟨4⟩ (.execution (.command (.unsuccessfulExit (some 1))))]

/-- The step as it is published with its records. -/
def publishedStep (rt : StepRuntimeState StepFailureCause String)
    (records : List RecoveryInvocationV1) : Option WorkflowStepV1 :=
  match stepRecoverySummaryV1 rt.recovery, stepStateV1 rt.state with
  | .ok recovery, .ok (state, detail) => some {
      id := "build", role := .step, kind := "cmd", failurePolicy := .required, state := state,
      recovery := recovery, invocations := records, startedAt := none,
      durationMilliseconds := none, detail := detail, commandOutput := none }
  | _, _ => none

theorem twiceFailed_lawful : ∀ occurrence ∈ twiceFailed, occurrence.Lawful := by
  intro occurrence hmem
  simp only [twiceFailed, List.mem_cons, List.not_mem_nil, or_false] at hmem
  rcases hmem with rfl | rfl | rfl | rfl | rfl | rfl <;> trivial

theorem twiceFailed_started : NoFirstStartFails recoverableStart .empty twiceFailed "build" := by
  intro before occurrence hbefore rt _
  have hmem : occurrence ∈ twiceFailed :=
    hbefore.subset (List.mem_append_right _ (List.mem_singleton_self _))
  simp only [twiceFailed, List.mem_cons, List.not_mem_nil, or_false] at hmem
  rcases hmem with rfl | rfl | rfl | rfl | rfl | rfl <;> rfl

theorem quietEnvironment_wellFormed : quietEnvironment.WellFormed plainFormats 4096 :=
  ⟨fun _ => rfl, fun _ _ _ h => (nomatch h), fun _ _ _ _ h => (nomatch h)⟩

theorem recoverable_capacity : ∃ capacity,
    resolveWorkflowCapacity (acceptedWorkflow recoverableDocument) retriedDigest 4096 =
        .ok capacity ∧ 4096 ≤ capacity.requirements.maximumRetainedBytesPerInvocation := by
  have hfacts : ((resolveWorkflowCapacity (acceptedWorkflow recoverableDocument) retriedDigest
      4096).toOption.any (fun capacity =>
        decide (4096 ≤ capacity.requirements.maximumRetainedBytesPerInvocation))) = true := by
    decide +kernel
  cases hcapacity : resolveWorkflowCapacity (acceptedWorkflow recoverableDocument) retriedDigest
      4096 with
  | error =>
    rw [hcapacity] at hfacts
    cases hfacts
  | ok capacity =>
    rw [hcapacity] at hfacts
    exact ⟨capacity, rfl, of_decide_eq_true hfacts⟩

/-- The evidence of a run that meets the condition. -/
theorem twiceFailed_evidence :
    ∃ rt, (ledger recoverableStart .empty twiceFailed).state.steps.get? "build" =
        some rt ∧ rt.rounds ≠ [] ∧ rt.state.isTerminal = true ∧
      ((observeAll quietEnvironment (observedRun recoverableStart .empty
        twiceFailed).2).invocationsForStep "build").map RecoveryInvocationV1.key = rt.evidence ∧
      ∃ summary, stepRecoverySummaryV1 rt.recovery = .ok (some summary) := by
  have hfacts : ((ledger recoverableStart .empty twiceFailed).state.steps.get?
      "build").any (fun rt => !rt.rounds.isEmpty && rt.state.isTerminal) = true := by
    decide +kernel
  obtain ⟨rt, hrt, hfacts⟩ := (Option.any_eq_true _ _).mp hfacts
  simp only [Bool.and_eq_true, Bool.not_eq_true', List.isEmpty_eq_false_iff] at hfacts
  obtain ⟨capacity, hcapacity, hlimit⟩ := recoverable_capacity
  obtain ⟨-, hevidence⟩ := invocation_evidence_complete
    (show validate recoverableDecoded.document = .ok
      (acceptedWorkflow recoverableDocument) from rfl)
    .empty 1 32 none .empty twiceFailed (show recoverableStart = _ from rfl)
    rfl (by decide +kernel) quietEnvironment (fun _ => rfl) (fun _ _ _ h => (nomatch h)) rfl
  obtain ⟨-, hkeys, -, haccepted⟩ := hevidence (by decide +kernel) "build" rt hrt hfacts.1 hfacts.2
    twiceFailed_started
  obtain ⟨summary, state, detail, hsummary, -⟩ := haccepted plainFormats _ _ capacity 4096 hcapacity
    hlimit quietEnvironment_wellFormed twiceFailed_lawful
  exact ⟨rt, hrt, hfacts.1, hfacts.2, hkeys, summary, hsummary⟩

/-- The first execution fails to start: its record is missing, and the check of the result
refuses the step. -/
theorem unstarted_evidence_missing :
    (observeAll quietEnvironment (observedRun recoverableStart .empty
        unstarted).2).fault = none ∧
    ∃ rt node, (ledger recoverableStart .empty unstarted).state.steps.get? "build" =
        some rt ∧ rt.rounds ≠ [] ∧ rt.state.isTerminal = true ∧
      (startsOf "build" (ledger recoverableStart .empty unstarted).actions).map
        (fun invocation => invocation.1.transitionSequence) = [1, 2, 4] ∧
      ((observeAll quietEnvironment (observedRun recoverableStart .empty
        unstarted).2).invocationsForStep "build").map RecoveryInvocationV1.invocationId = [2, 4] ∧
      publishedStep rt ((observeAll quietEnvironment (observedRun recoverableStart
        .empty unstarted).2).invocationsForStep "build") = some node ∧
      validateStepRecovery plainFormats 4096 node = false := by
  have hfacts : ((ledger recoverableStart .empty unstarted).state.steps.get?
      "build").any (fun rt => !rt.rounds.isEmpty && rt.state.isTerminal &&
        (publishedStep rt ((observeAll quietEnvironment (observedRun recoverableStart
          .empty unstarted).2).invocationsForStep "build")).any (fun node =>
            !validateStepRecovery plainFormats 4096 node)) = true := by decide +kernel
  obtain ⟨rt, hrt, hfacts⟩ := (Option.any_eq_true _ _).mp hfacts
  simp only [Bool.and_eq_true, Bool.not_eq_true', List.isEmpty_eq_false_iff] at hfacts
  obtain ⟨node, hnode, hrefused⟩ := (Option.any_eq_true _ _).mp hfacts.2
  refine ⟨by decide +kernel, rt, node, hrt, hfacts.1.1, hfacts.1.2, by decide +kernel,
    by decide +kernel, hnode, ?_⟩
  simpa using hrefused

end ScherzoCloud.Runner
