import ScherzoCloud.Workflow.CancellationContainment
import ScherzoCloud.Workflow.CommittedOutputs
import ScherzoCloud.Workflow.NodeFacts

/-!
# What nodes are started with

Every input of a node that is started, first or again, has its value: outputs
of the run come from a producer that succeeded and are what the accepted capture
committed, and the finalization context is the one fixed when finalization was
entered.  A started node keeps its sources for as long as it can be started
again, because a settled producer keeps its outputs.
-/

namespace ScherzoCloud.Workflow

open Collections
open RuntimeDefinition (fromAdmitted)

variable {O C V D : Type} {s t : RuntimeState C V D} {source : ResolvedOutputSource}
  {rt rt' : StepRuntimeState C V} {outputs : OutputSet V} {o : Option (Occurrence O C V D)}
  {m n : Emission O C V D} {definition : RuntimeDefinition} {id : String} {d : RuntimeStep}
  {seed : ExecutionSeed V}

section Sources

/-- The value of a source is there and will not change. -/
def SourceReady (s : RuntimeState C V D) : ResolvedValueSource → Prop
  | .input _ => True
  | .finalizationContext => s.finalization.isSome = true
  | .output source => ∃ rt outputs, s.steps.get? source.node.id = some rt ∧
      rt.state = .succeeded outputs ∧ source.output ∈ outputs.keys

/-- The sources of all inputs of a node are ready. -/
def InputsReady (s : RuntimeState C V D) (d : RuntimeStep) : Prop :=
  ∀ input source, d.inputs.get? input = some source → SourceReady s source

theorem resolvedActionInput_output (hrt : s.steps.get? source.node.id = some rt)
    (hstate : rt.state = .succeeded outputs) {value : V}
    (hvalue : outputs.get? source.output = some value) :
    resolvedActionInput s (.output source) = .output value := by
  simp [resolvedActionInput, hrt, hstate, stepOutputs, hvalue]

variable [ConditionOutput V]

/-- A ready source stays ready, with the same value. -/
theorem SourceReady.step {source : ResolvedValueSource} (h : SourceReady s source)
    (hstep : ReducerStep o s m t) (hinv : PhaseInvariant s) (hnodes : NodesMatch s) :
    SourceReady t source ∧ resolvedActionInput t source = resolvedActionInput s source := by
  cases source with
  | input => exact ⟨trivial, rfl⟩
  | finalizationContext =>
    obtain ⟨finalization, hfinalization⟩ := Option.isSome_iff_exists.mp h
    obtain ⟨finalization', hfinalization', -, hcontext, -⟩ :=
      hstep.finalization_kept hinv hfinalization
    refine ⟨?_, ?_⟩
    · simp [SourceReady, hfinalization']
    · simp [resolvedActionInput, hfinalization, hfinalization', hcontext]
  | output =>
    obtain ⟨rt, outputs, hrt, hstate, hmem⟩ := h
    obtain ⟨value, hvalue⟩ := BTreeMap.mem_keys_iff.mp hmem
    obtain ⟨d, hd⟩ := hnodes.definition hrt
    obtain ⟨rt', hrt', hchange⟩ := hstep.nodeChange hd hrt
    obtain rfl := hchange.settled_fixed (by rw [hstate]; rfl)
    rw [resolvedActionInput_output hrt hstate hvalue, resolvedActionInput_output hrt' hstate hvalue]
    exact ⟨⟨_, outputs, hrt', hstate, hmem⟩, rfl⟩

theorem InputsReady.step (h : InputsReady s d) (hstep : ReducerStep o s m t)
    (hinv : PhaseInvariant s) (hnodes : NodesMatch s) :
    InputsReady t d ∧ resolvedActionInputs t d = resolvedActionInputs s d := by
  have hsources := fun input source hsource =>
    (h input source hsource).step hstep hinv hnodes
  exact ⟨fun input source hsource => (hsources input source hsource).1,
    BTreeMap.mapWithKey_congr (fun input source hsource => (hsources input source hsource).2)⟩

/-- A producer with readable outputs has the output that is read. -/
theorem SourceReady.of_available (hreach : Reachable definition .empty m s)
    {q : RuntimeStep} (hq : definition.steps.get? source.node.id = some q)
    (hdeclared : source.output ∈ q.declaredOutputs)
    (havailable : stepIs s source.node.id stepDataAvailable = true) :
    SourceReady s (.output source) := by
  obtain ⟨rt, hrt, hdata⟩ := (Option.any_eq_true ..).mp havailable
  obtain ⟨outputs, hstate⟩ := (hreach.dataAvailable_iff hrt).mp hdata
  refine ⟨rt, outputs, hrt, hstate, ?_⟩
  rw [hreach.succeeded_outputs hq hrt hstate]
  exact hdeclared

/-- A node is ready only when the sources of its inputs are. -/
theorem nodeReady_sources (hreach : Reachable definition .empty m s)
    (hfacts : NodeFacts definition d) (hready : nodeReady s d.role id d = true) :
    InputsReady s d := by
  intro input source hsource
  have hfact := hfacts.inputs input source hsource
  cases source with
  | input => trivial
  | finalizationContext =>
    have hrole : d.role = .finalizer := hfact
    rw [hrole] at hready
    obtain ⟨finalization, hfinalization, -⟩ :=
      finalizerReady_iff.mp (Bool.and_eq_true_iff.mp hready).1
    simp [SourceReady, hfinalization]
  | output source =>
    obtain ⟨q, hread, hrole, hdeclared⟩ := hfact.producer
    refine .of_available hreach hread.node hdeclared ?_
    cases hd : d.role with
    | step =>
      -- A step waits for its producers.
      rw [hd] at hready
      obtain ⟨p, hp, hproducer, hdata⟩ :=
        hfact.waits (hrole.symm.trans ((hread.phase hd).trans hd.symm))
      have hsatisfied := List.all_eq_true.mp (Bool.and_eq_true_iff.mp hready).2 p hp
      unfold ordinaryPrerequisiteSatisfied at hsatisfied
      rw [hproducer] at hsatisfied
      split at hsatisfied
      · cases hsatisfied
      · rename_i rt hrt
        simp only [hdata, Bool.not_true, Bool.false_or, Bool.and_eq_true] at hsatisfied
        exact (Option.any_eq_true ..).mpr ⟨rt, hrt, hsatisfied.1.2⟩
    | finalizer =>
      -- A finalizer is started only when no body reference is unavailable.
      rw [hd] at hready
      have hnone := List.isEmpty_iff.mp (Bool.and_eq_true_iff.mp hready).2
      by_contra hmissing
      have hmem : source.reference ∈ unavailableReferences s d :=
        List.mem_filterMap.mpr ⟨_, hfact.evidence, by simp [hfact.names, hmissing]⟩
      rw [hnone] at hmem
      cases hmem

end Sources

section Log

variable [ConditionOutput V]

/-- The node runs its target or recovers it, so that the target may be requested again. -/
def StepRuntimeState.Executing (rt : StepRuntimeState C V) : Prop :=
  rt.RunsTarget ∨ ∃ round activity, rt.state = .recovering round activity

/-- A node begins to execute only when it is ready. -/
theorem NodeChange.executing (h : NodeChange o s m id d rt rt') (hexecuting : rt'.Executing) :
    rt.Executing ∨ nodeReady s d.role id d = true := by
  have hidle : ∀ {state : StepState V}, rt'.state = state → state.isTerminal = true → False := by
    rintro state rfl hterminal
    rcases hexecuting with (h | h | h) | ⟨round, activity, h⟩ <;> rw [h] at hterminal <;>
      cases hterminal
  cases h with
  | same | passed => exact Or.inl hexecuting
  | move h =>
    cases h with
    | start _ _ _ hready => exact Or.inr hready
    | retry _ _ htarget | recover _ _ htarget => exact Or.inl (Or.inl htarget)
    | recheck _ round _ _ hstate | handlerRunning round hstate =>
      exact Or.inl (Or.inr ⟨round, _, hstate⟩)
    | run hstate => exact Or.inl (Or.inl (Or.inl hstate))
    | capture _ hstate => exact Or.inl (Or.inl (Or.inr (Or.inl hstate)))
    | succeed | skip | failureStop | notSelected | forcedCancel | quiesce =>
      exact (hidle rfl rfl).elim
  | complete => exact (hidle rfl rfl).elim
  | issue h => cases h <;> exact (hidle rfl rfl).elim
  | note h =>
    unfold StepRuntimeState.Executing StepRuntimeState.RunsTarget at hexecuting ⊢
    rw [h.1.state] at hexecuting
    exact Or.inl hexecuting
  | contained h =>
    cases h with
    | drop => exact (hidle rfl rfl).elim
    | contain =>
      rcases hexecuting with (h | h | h) | ⟨round, activity, h⟩ <;> cases h
    | escalate | pass => exact Or.inl hexecuting

/-- The sources of executing nodes are ready, and every requested target got their values. -/
structure InputLog (definition : RuntimeDefinition) (actions : List (RequestedAction O C V D))
    (s : RuntimeState C V D) : Prop where
  executing : ∀ id d rt, definition.steps.get? id = some d → s.steps.get? id = some rt →
    rt.Executing → InputsReady s d
  started : ∀ a ∈ actions, ∀ id n values, a.action = .startStep id n values →
    ∃ d, definition.steps.get? id = some d ∧ InputsReady s d ∧ values = resolvedActionInputs s d

theorem NodeMove.startStep {a : RequestedAction O C V D} {n : Nat}
    {values : BTreeMap String (ActionInput V)} (h : NodeMove o s id d rt rt' [a])
    (haction : a.action = .startStep id n values) :
    values = resolvedActionInputs s d ∧ (nodeReady s d.role id d = true ∨ rt.Executing) := by
  cases h with
  | start _ _ _ hready =>
    cases haction
    exact ⟨rfl, Or.inl hready⟩
  | retry _ _ htarget =>
    cases haction
    exact ⟨rfl, Or.inr (Or.inl htarget)⟩
  | recheck _ round _ _ hstate =>
    cases haction
    exact ⟨rfl, Or.inr (Or.inr ⟨round, _, hstate⟩)⟩
  | capture | recover => cases haction

variable (hcoherent : definition.Coherent)
  (hfacts : ∀ id d, definition.steps.get? id = some d → NodeFacts definition d)
include hcoherent hfacts

theorem InputLog.step (h : InputLog definition m.actions s)
    (hreach : Reachable definition .empty m s) (hstep : ReducerStep o s n t) :
    InputLog definition (m * n).actions t := by
  have hinv := hreach.phase hcoherent
  have hnodes := hreach.nodesMatch
  constructor
  · intro id d rt' hd hrt' hexecuting
    have hd' : s.definition.steps.get? id = some d := by rwa [hreach.definition_eq]
    obtain ⟨rt, hrt, hchange⟩ := hstep.nodeBefore hnodes hd' hrt'
    have hready : InputsReady s d := by
      rcases hchange.executing hexecuting with hbefore | hready
      · exact h.executing id d rt hd hrt hbefore
      · exact nodeReady_sources hreach (hfacts id d hd) hready
    exact (hready.step hstep hinv hnodes).1
  · intro a ha id k values haction
    have hbefore : ∃ d, definition.steps.get? id = some d ∧ InputsReady s d ∧
        values = resolvedActionInputs s d := by
      rcases List.mem_append.mp ha with ha | ha
      · exact h.started a ha id k values haction
      · have hwork : workTarget a = some id := by simp [workTarget, haction]
        obtain ⟨d, rt, rt', hd, hrt, -, -, hmove⟩ := hstep.work ha hwork
        obtain ⟨hvalues, hready⟩ := hmove.startStep haction
        rw [hreach.definition_eq] at hd
        refine ⟨d, hd, ?_, hvalues⟩
        rcases hready with hready | hexecuting
        · exact nodeReady_sources hreach (hfacts id d hd) hready
        · exact h.executing id d rt hd hrt hexecuting
    obtain ⟨d, hd, hready, hvalues⟩ := hbefore
    obtain ⟨hready', hsame⟩ := hready.step hstep hinv hnodes
    exact ⟨d, hd, hready', hvalues.trans hsame.symm⟩

theorem Reachable.inputLog (h : Reachable definition .empty m s) :
    InputLog definition m.actions s := by
  refine h.induction (I := fun m s => InputLog definition m.actions s) ⟨?_, by simp⟩
    (fun o m s n t hreach hs hstep => hs.step hcoherent hfacts hreach hstep)
  intro id d rt hd hrt hexecuting
  cases (get?_initialState hd .empty).symm.trans hrt
  rcases hexecuting with (h | h | h) | ⟨round, activity, h⟩ <;> cases h

end Log

variable [ConditionOutput V]

/-- Once finalization is entered, what was recorded of the ordinary phase stays. -/
theorem Reachable.finalization_kept (h : Reachable definition seed m s)
    (hcoherent : definition.Coherent) (hrun : Run s n t) {finalization : FinalizationRuntime D}
    (hfinalization : s.finalization = some finalization) :
    ∃ later, t.finalization = some later ∧ later.trigger = finalization.trigger ∧
      later.context = finalization.context ∧
      later.ordinaryOutcome = finalization.ordinaryOutcome := by
  refine h.continued (I := fun _ t => ∃ later, t.finalization = some later ∧
    later.trigger = finalization.trigger ∧ later.context = finalization.context ∧
    later.ordinaryOutcome = finalization.ordinaryOutcome) hrun
    ⟨finalization, hfinalization, rfl, rfl, rfl⟩ ?_
  rintro o m s n t hreach ⟨later, hlater, htrigger, hcontext, houtcome⟩ hstep
  obtain ⟨later', hlater', htrigger', hcontext', houtcome'⟩ :=
    hstep.finalization_kept (hreach.phase hcoherent) hlater
  exact ⟨later', hlater', htrigger'.trans htrigger, hcontext'.trans hcontext,
    houtcome'.trans houtcome⟩

variable [ProvisionalStepResources O] [NodeFailureSource C]

/-- Every requested target has a value for each of its inputs: an output is the one that the
accepted capture of its producer committed, and the context is that of the finalization entry. -/
theorem data_flow {decoded : DecodedDocument} {workflow : ValidatedWorkflow}
    (hvalid : validate decoded.document = .ok workflow)
    (inputs : BTreeMap String ResolvedInput)
    (parallel transitions : Nat)
    (initial : Option (InitialCancellation D))
    (occurrences : List (Occurrence O C V D))
    {run : Reduction O C V D}
    (hrun : run = admittedRun workflow inputs parallel transitions initial occurrences)
    {action : ActionId}
    {step : String}
    {execution : TargetExecutionNumber}
    {values : BTreeMap String (ActionInput V)}
    (hstarted : ⟨action, .startStep step execution values⟩ ∈ run.actions) :
    ∃ d, (fromAdmitted workflow inputs parallel transitions).steps.get? step =
        some d ∧ values.keys = d.inputs.keys ∧
      (∀ input source, d.inputs.get? input = some (.output source) →
        ∃ rt outputs value, run.state.steps.get? source.node.id = some rt ∧
          rt.state = .succeeded outputs ∧ outputs.get? source.output = some value ∧
          values.get? input = some (.output value) ∧
          ∀ committed, OutputsCommitted
            ⟨fromAdmitted workflow inputs parallel transitions, initial⟩
            .empty occurrences source.node.id committed ↔ committed = outputs) ∧
      (∀ input, d.inputs.get? input = some .finalizationContext →
        ∃ finalization, run.state.finalization = some finalization ∧
          values.get? input = some (.finalizationContext finalization.context) ∧
          ∀ past future, occurrences = past ++ future → ∀ earlier,
            (admittedRun workflow inputs parallel transitions initial past).state.finalization =
              some earlier → earlier.context = finalization.context) ∧
      ∀ input, values.get? input ≠ some .unavailable := by
  have hcoherent := fromAdmitted_coherent hvalid inputs parallel transitions
  have hreach := admittedRun_reachable initial hcoherent occurrences
  rw [← hrun] at hreach
  have hfacts := validate_nodeFacts hvalid inputs parallel transitions
  obtain ⟨d, hd, hready, rfl⟩ := (hreach.inputLog hcoherent hfacts).started _ hstarted step
    execution values rfl
  refine ⟨d, hd, BTreeMap.keys_mapWithKey _ _, ?_, ?_, ?_⟩
  · intro input source hsource
    obtain ⟨rt, outputs, hrt, hstate, hmem⟩ := hready input _ hsource
    obtain ⟨value, hvalue⟩ := BTreeMap.mem_keys_iff.mp hmem
    obtain ⟨q, hread, -, hdeclared⟩ := ((hfacts step d hd).inputs input _ hsource).producer
    refine ⟨rt, outputs, value, hrt, hstate, hvalue, ?_, ?_⟩
    · rw [resolvedActionInputs, BTreeMap.get?_mapWithKey, hsource, Option.map_some,
        resolvedActionInput_output hrt hstate hvalue]
    · rw [hrun] at hrt
      exact outputsCommitted_iff hcoherent hread.node (List.ne_nil_of_mem hdeclared) hrt hstate
  · intro input hsource
    obtain ⟨finalization, hfinalization⟩ := Option.isSome_iff_exists.mp (hready input _ hsource)
    refine ⟨finalization, hfinalization, ?_, ?_⟩
    · simp [resolvedActionInputs, hsource, resolvedActionInput, hfinalization]
    · rintro past future rfl earlier hearlier
      obtain ⟨n, hcontinue, -⟩ := admittedRun_append initial hcoherent past future
      obtain ⟨later, hlater, -, hcontext, -⟩ := (admittedRun_reachable initial hcoherent
        past).finalization_kept hcoherent hcontinue hearlier
      rw [hrun, hlater] at hfinalization
      cases hfinalization
      exact hcontext.symm
  · intro input hunavailable
    rw [resolvedActionInputs, BTreeMap.get?_mapWithKey] at hunavailable
    obtain ⟨source, hsource, hvalue⟩ := Option.map_eq_some_iff.mp hunavailable
    have hsourceReady := hready input source hsource
    cases source with
    | input => cases hvalue
    | finalizationContext =>
      obtain ⟨finalization, hfinalization⟩ := Option.isSome_iff_exists.mp hsourceReady
      simp [resolvedActionInput, hfinalization] at hvalue
    | output =>
      obtain ⟨rt, outputs, hrt, hstate, hmem⟩ := hsourceReady
      obtain ⟨value, hget⟩ := BTreeMap.mem_keys_iff.mp hmem
      rw [resolvedActionInput_output hrt hstate hget] at hvalue
      cases hvalue

/-- A step that reads the output of another one. -/
def reportDecoded : DecodedDocument where
  document := commandDocument []
    [("build", ⟨textCommand .required none [] ["log"], [], none⟩),
      ("report", ⟨textCommand .required none [("log", .output ⟨"build", "log"⟩)] [], [], none⟩)]
    [] []
  structural := by decide

/-- The log is captured, and the report is started with it. -/
def startedReport : Reduction Unit FailureDetail String Nat :=
  admittedRun (acceptedWorkflow reportDecoded.document) .empty 1 16 none
    [.stepStarted "build" ⟨1⟩, .stepExecutionCompleted "build" ⟨1⟩ (),
      .outputsCaptured "build" ⟨3⟩ (.ofList [("log", "done")])]

theorem startedReport_inputs :
    ⟨⟨5⟩, .startStep "report" 1 (BTreeMap.ofList [("log", .output "done")])⟩ ∈
        startedReport.actions ∧
      ∃ d, (fromAdmitted (acceptedWorkflow reportDecoded.document)
          BTreeMap.empty 1 16).steps.get? "report" = some d ∧
        ∀ input source, d.inputs.get? input = some (.output source) → ∃ rt outputs value,
          startedReport.state.steps.get? source.node.id = some rt ∧
          rt.state = .succeeded outputs ∧ outputs.get? source.output = some value := by
  have hstarted : ⟨⟨5⟩, .startStep "report" 1 (.ofList [("log", .output "done")])⟩ ∈
      startedReport.actions := by decide
  obtain ⟨d, hd, -, houtputs, -⟩ := data_flow
    (show validate reportDecoded.document = .ok (acceptedWorkflow reportDecoded.document) from rfl)
    .empty 1 16 none _ (show startedReport = _ from rfl) hstarted
  refine ⟨hstarted, d, hd, fun input source hsource => ?_⟩
  obtain ⟨rt, outputs, value, hrt, hstate, hvalue, -⟩ := houtputs input source hsource
  exact ⟨rt, outputs, value, hrt, hstate, hvalue⟩

end ScherzoCloud.Workflow
