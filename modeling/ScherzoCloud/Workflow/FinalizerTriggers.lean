import ScherzoCloud.Workflow.AdvisoryIsolation
import ScherzoCloud.Workflow.PhaseSeparation

/-!
# Finalizers and the triggers of their producers

A finalizer that its trigger selects is never lost because a finalizer that it reads from was
not meant to run.  Validation lets a finalizer read only from finalizers that every trigger of
its own selects as well.  The reducer blocks a finalizer only for outputs that it reads.
-/

namespace ScherzoCloud.Workflow

open Collections

variable {O C V D : Type} {s t : RuntimeState C V D} {definition : RuntimeDefinition} {id : String}
  {d : RuntimeStep} {rt rt' : StepRuntimeState C V} {state : StepState V} {m : Emission O C V D}
  {o : Option (Occurrence O C V D)} {seed : ExecutionSeed V}

/-- How the trigger of the finalization has disposed of a finalizer. -/
structure Disposed (s : RuntimeState C V D) (d : RuntimeStep) (state : StepState V) : Prop where
  notRun : state.kind = .notRun →
    ∃ finalization, s.finalization = some finalization ∧ finalization.trigger ∉ d.when
  blocked : ∀ detail, state = .blocked detail →
    (∃ finalization, s.finalization = some finalization ∧ finalization.trigger ∈ d.when) ∧
    ∀ p ∈ detail.prerequisites, p ∈ d.evidencePrerequisites ∧ p.kind ≠ .control

theorem Disposed.of_other (hnotRun : state.kind ≠ .notRun) (hblocked : state.kind ≠ .blocked) :
    Disposed s d state where
  notRun h := absurd h hnotRun
  blocked _ h := absurd (congrArg StepState.kind h) hblocked

/-- The trigger of a finalization stays. -/
theorem Disposed.kept (h : Disposed s d state) (hkept : ∀ finalization,
    s.finalization = some finalization → ∃ later, t.finalization = some later ∧
      later.trigger = finalization.trigger) : Disposed t d state where
  notRun hstate := by
    obtain ⟨finalization, hsome, hwhen⟩ := h.notRun hstate
    obtain ⟨later, hlater, htrigger⟩ := hkept finalization hsome
    exact ⟨later, hlater, htrigger ▸ hwhen⟩
  blocked detail hstate := by
    obtain ⟨⟨finalization, hsome, hwhen⟩, hread⟩ := h.blocked detail hstate
    obtain ⟨later, hlater, htrigger⟩ := hkept finalization hsome
    exact ⟨⟨later, hlater, htrigger ▸ hwhen⟩, hread⟩

variable [ConditionOutput V]

section Steps

variable (hinv : PhaseInvariant s) (hcoherent : s.definition.Coherent)
  (hfacts : NodeFacts definition d) (hd : s.definition.steps.get? id = some d)
  (hrole : d.role = .finalizer)
include hinv hcoherent hfacts hd hrole

/-- A finalizer is blocked only by outputs that it reads. -/
theorem IssueMove.disposed {issue : PrimaryIssue} (h : IssueMove s id d rt rt' issue) :
    Disposed s d rt'.state where
  notRun hstate := by cases h <;> cases hstate
  blocked detail hstate := by
    have hpending : rt.state = .pending := by cases h <;> first | assumption | cases hstate
    refine ⟨h.selected hinv hcoherent hd hrole hpending, fun p hp => ?_⟩
    cases h.blocks hstate hfacts hcoherent hd hp with
    | value hmem hkind => exact ⟨hmem, hkind⟩
    | control hstep => cases hrole.symm.trans hstep

theorem NodeChange.disposed (h : NodeChange o s m id d rt rt') (hrt : Disposed s d rt.state) :
    Disposed s d rt'.state := by
  cases h with
  | same | passed => exact hrt
  | move h =>
    cases h with
    | failureStop _ hid =>
      rw [hcoherent.role_eq .step hid hd] at hrole
      cases hrole
    | notSelected finalization _ _ hfinalization hwhen =>
      exact ⟨fun _ => ⟨finalization, hfinalization, hwhen⟩, nofun⟩
    | _ => exact .of_other nofun nofun
  | complete => exact .of_other nofun nofun
  | issue h => exact h.disposed hinv hcoherent hfacts hd hrole
  | note h => exact h.1.state ▸ hrt
  | contained h =>
    cases h with
    | drop | contain => exact .of_other nofun nofun
    | escalate | pass => exact hrt

end Steps

/-- In every run the trigger has disposed of the finalizers that are blocked or not run. -/
theorem Reachable.disposed (h : Reachable definition seed m s) (hcoherent : definition.Coherent)
    (hfacts : ∀ id d, definition.steps.get? id = some d → NodeFacts definition d)
    (hd : definition.steps.get? id = some d) (hrole : d.role = .finalizer)
    (hrt : s.steps.get? id = some rt) : Disposed s d rt.state := by
  refine h.invariant (I := fun s => ∀ id d rt, definition.steps.get? id = some d →
    d.role = .finalizer → s.steps.get? id = some rt → Disposed s d rt.state) ?_ ?_ id d rt hd hrole
    hrt
  · intro id d rt hd _ hrt
    cases (get?_initialState hd seed).symm.trans hrt
    unfold initialStep
    split <;> exact .of_other (by rintro ⟨⟩) (by rintro ⟨⟩)
  · rintro o s n t ⟨m, hreach⟩ hs hstep id d rt' hd hrole hrt'
    have hinv := hreach.phase hcoherent
    have hd' : s.definition.steps.get? id = some d := by rwa [hreach.definition_eq]
    obtain ⟨rt, hrt, hchange⟩ := hstep.nodeBefore hreach.nodesMatch hd' hrt'
    have hnode := hchange.disposed hinv (hreach.coherent hcoherent) (hfacts id d hd) hd' hrole
      (hs id d rt hd hrole hrt)
    refine hnode.kept (fun finalization hsome => ?_)
    obtain ⟨later, hlater, htrigger, -⟩ := hstep.finalization_kept hinv hsome
    exact ⟨later, hlater, htrigger⟩

variable [ProvisionalStepResources O] [NodeFailureSource C]

/-- In an accepted workflow every finalizer whose output a finalizer reads, in its body or in
its condition, is selected by every trigger that selects the reader.  In every run, no producer
that the evidence of a blocked finalizer names is a finalizer that was not run. -/
theorem finalizer_triggers_compatible {decoded : DecodedDocument} {workflow : ValidatedWorkflow}
    (hvalid : validate decoded.document = .ok workflow)
    (inputs : BTreeMap String ResolvedInput)
    (parallel transitions : Nat)
    (initial : Option (InitialCancellation D))
    (seed : ExecutionSeed V)
    (occurrences : List (Occurrence O C V D))
    {definition : RuntimeDefinition}
    (hdefinition : definition = .fromAdmitted workflow inputs parallel transitions)
    {run : Reduction O C V D}
    (hrun : run = ledger ⟨definition, initial⟩ seed occurrences)
    (id : String)
    (d : RuntimeStep)
    (hd : definition.steps.get? id = some d)
    (hrole : d.role = .finalizer) :
    (∀ source : ResolvedOutputSource, source.node.role = .finalizer →
      (∃ name, d.inputs.get? name = some (.output source) ∨
        d.conditionValues.get? name = some (.output source)) →
      ∃ q, definition.steps.get? source.node.id = some q ∧ d.when ⊆ q.when) ∧
    ∀ rt detail, run.state.steps.get? id = some rt → rt.state = .blocked detail →
      ∀ p ∈ detail.prerequisites, ∃ producer q rtq, p.producer = some producer ∧
        definition.steps.get? producer = some q ∧ run.state.steps.get? producer = some rtq ∧
        (q.role = .finalizer → rtq.state.kind ≠ .notRun) := by
  have hcoherent : definition.Coherent := hdefinition ▸ fromAdmitted_coherent hvalid ..
  have hnodes : ∀ id d, definition.steps.get? id = some d → NodeFacts definition d :=
    hdefinition ▸ validate_nodeFacts hvalid inputs parallel transitions
  have hfacts := hnodes id d hd
  have hreach := ledger_reachable ⟨definition, initial⟩ seed hcoherent occurrences
  rw [← hrun] at hreach
  constructor
  · rintro source hsource ⟨name, hinput | hinput⟩
    · obtain ⟨q, hread, hq, -⟩ := (hfacts.inputs name _ hinput).producer
      exact ⟨q, hread.node, hread.triggers hrole (hq.trans hsource)⟩
    · obtain ⟨q, hread, hq, -⟩ := (hfacts.conditionValues name _ hinput).producer
      exact ⟨q, hread.node, hread.triggers hrole (hq.trans hsource)⟩
  · intro rt detail hrt hblocked p hp
    obtain ⟨⟨finalization, hsome, hselected⟩, hevidence⟩ :=
      (hreach.disposed hcoherent hnodes hd hrole hrt).blocked detail hblocked
    obtain ⟨hmem, hkind⟩ := hevidence p hp
    obtain ⟨producer, q, hproducer, hread⟩ := hfacts.value_producer hmem hkind
    obtain ⟨rtq, hrtq⟩ := hreach.nodesMatch.runtime (by
      rw [hreach.definition_eq]
      exact hread.node)
    refine ⟨producer, q, rtq, hproducer, hread.node, hrtq, fun hq hnotRun => ?_⟩
    obtain ⟨finalization', hsome', hwhen⟩ :=
      (hreach.disposed hcoherent hnodes hread.node hq hrtq).notRun hnotRun
    cases hsome.symm.trans hsome'
    exact hwhen (hread.triggers hrole hq hselected)

/-- After the build a log is collected and reported; only a failure is announced. -/
def collectedDecoded : DecodedDocument where
  document := commandDocument [] [("build", ⟨textCommand .required none [] [], [], none⟩)]
    [("announce", ⟨textCommand .required none [] [], [], {.failed}⟩),
      ("collect", ⟨textCommand .required none [] ["log"], [], {.succeeded, .failed}⟩),
      ("report", ⟨textCommand .required none [("log", .output ⟨"collect", "log"⟩)] [], [],
        {.succeeded}⟩)] []
  structural := by decide

/-- The log cannot be collected. -/
def uncollected : Reduction Unit FailureDetail String Nat :=
  ledger ⟨.fromAdmitted (acceptedWorkflow collectedDecoded.document) .empty 1 16, none⟩
    .empty [.stepStarted "build" ⟨1⟩, .stepExecutionCompleted "build" ⟨1⟩ (),
      .stepStartFailed "collect" ⟨7⟩ (.ofCode .start .stepUnavailable)]

theorem uncollected_selected :
    ∃ rt, uncollected.state.steps.get? "report" = some rt ∧
      rt.state = .blocked ⟨.prerequisitesUnsatisfied, [.body "outputs.collect.log"]⟩ ∧
      ∃ rtq, uncollected.state.steps.get? "collect" = some rtq ∧ rtq.state.kind ≠ .notRun := by
  have hblocked : (uncollected.state.steps.get? "report").map StepRuntimeState.state =
      some (.blocked ⟨.prerequisitesUnsatisfied, [.body "outputs.collect.log"]⟩) := by
    decide +kernel
  obtain ⟨rt, hrt, hstate⟩ := Option.map_eq_some_iff.mp hblocked
  obtain ⟨-, hproducers⟩ := finalizer_triggers_compatible
    (show validate collectedDecoded.document = .ok (acceptedWorkflow collectedDecoded.document)
      from rfl) .empty 1 16 none .empty _ rfl
    (show uncollected = _ from rfl) "report" _ rfl rfl
  obtain ⟨producer, q, rtq, hproducer, hq, hrtq, hrun⟩ :=
    hproducers rt _ hrt hstate _ (List.mem_singleton_self _)
  obtain rfl : producer = "collect" := Option.some.inj (hproducer.symm.trans (by decide))
  cases hq
  exact ⟨rt, hrt, hstate, rtq, hrtq, hrun rfl⟩

end ScherzoCloud.Workflow
