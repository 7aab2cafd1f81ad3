import ScherzoCloud.Workflow.DataFlow
import ScherzoCloud.Workflow.Outcome

/-!
# What a successful run exports

The exports are derived when the run is finished, from nodes that have settled
and keep their states.  While nothing stands against success no node is
cancelled or stopped, and only finalizers that do not run after a success are
left out; an exported node is required and runs after a success.
-/

namespace ScherzoCloud.Workflow

open Collections
open RuntimeDefinition (fromAdmitted fromWorkflow)

variable {O C V D : Type} {s t : RuntimeState C V D} {m n : Emission O C V D} {output id : String}
  {exports : ExportSet V} {o : Option (Occurrence O C V D)} {a : RequestedAction O C V D}
  {outcome : RunOutcome} {definition : RuntimeDefinition} {d : RuntimeStep}
  {rt : StepRuntimeState C V}

section Finished

theorem isTerminal_of_exportValue {state : StepState V}
    (h : (exportValue output state).isSome = true) : state.isTerminal = true := by
  cases state <;> first | rfl | cases h

theorem deriveExports_eq_some_iff : deriveExports s = some exports ↔
      (∀ name source, s.definition.exports.get? name = some source →
        (deriveExport s source).isSome = true) ∧
      exports = s.definition.exports.filterMap (fun _ source => deriveExport s source) := by
  unfold deriveExports
  rw [Option.ite_none_right_eq_some, List.all_eq_true, Option.some.injEq, eq_comm (b := exports)]
  refine and_congr_left fun _ => ?_
  constructor
  · intro h name source hsource
    exact h source (BTreeMap.mem_values_iff.mpr ⟨name, hsource⟩)
  · intro h source hmem
    obtain ⟨name, hsource⟩ := BTreeMap.mem_values_iff.mp hmem
    exact h name source hsource

variable [ConditionOutput V]

section

variable (hstep : ReducerStep o s m t)
include hstep

/-- What was derived from settled nodes stays. -/
theorem ReducerStep.deriveExport (hnodes : NodesMatch s)
    {source : RuntimeExport} (h : (deriveExport s source).isSome = true) :
    Workflow.deriveExport t source = Workflow.deriveExport s source := by
  unfold Workflow.deriveExport at h ⊢
  cases hrt : s.steps.get? source.step with
  | none => rw [hrt] at h; cases h
  | some =>
    rw [hrt, Option.bind_some] at h
    obtain ⟨d, hd⟩ := hnodes.definition hrt
    obtain ⟨rt', hrt', hchange⟩ := hstep.nodeChange hd hrt
    rw [hrt', Option.bind_some, Option.bind_some,
      hchange.settled_fixed (isTerminal_of_exportValue h)]

theorem ReducerStep.deriveExports (hnodes : NodesMatch s)
    {exports : ExportSet V} (h : deriveExports s = some exports) :
    Workflow.deriveExports t = some exports := by
  obtain ⟨hsome, rfl⟩ := deriveExports_eq_some_iff.mp h
  refine deriveExports_eq_some_iff.mpr ⟨?_, ?_⟩
  · intro name source hsource
    rw [hstep.definition] at hsource
    have hbefore := hsome name source hsource
    rwa [hstep.deriveExport hnodes hbefore]
  · rw [hstep.definition]
    exact BTreeMap.filterMap_congr fun name source hsource =>
      (hstep.deriveExport hnodes (hsome name source hsource)).symm

/-- A finished run stays finished. -/
theorem ReducerStep.terminal_fixed
    (h : s.workflow.isTerminal = true) : t.workflow = s.workflow := by
  cases hstep with
  | primaryIssue _ _ _ htarget =>
    obtain ⟨-, ⟨-, hworkflow, -⟩ | ⟨-, hworkflow, -⟩⟩ := issueTarget_spec htarget <;>
      rw [hworkflow] at h <;> cases h
  | cancelOrdinary hphase | cancelFinalization hphase | forceOrdinary hphase
  | forceFinalization hphase =>
    rw [hphase] at h
    cases h
  | enter _ houtcome =>
    obtain ⟨gate, hworkflow⟩ := ordinaryOutcome_executing houtcome
    rw [hworkflow] at h
    cases h
  | finish hready =>
    cases hready with
    | ordinary _ houtcome =>
      obtain ⟨gate, hworkflow⟩ := ordinaryOutcome_executing houtcome
      rw [hworkflow] at h
      cases h
    | finalization hphase =>
      obtain ⟨trigger, gate, issue, hworkflow⟩ := hphase
      rw [hworkflow] at h
      cases h
  | _ => simp

/-- Only the last step of a run requests its end. -/
theorem ReducerStep.finishes (ha : a ∈ m.actions)
    (haction : a.action = .finishRun outcome exports) :
    ∃ ordinary : OrdinaryOutcome, outcome = ordinary.runOutcome ∧
      t.workflow = ordinary.workflowState ∧ Workflow.deriveExports s = some exports := by
  cases hstep with
  | node _ _ hmove =>
    have hwork := (hmove.eq_singleton ha).2
    rw [workTarget, haction] at hwork
    cases hwork
  | complete | issue | primaryIssue | note | passed | operation | enter => cases ha
  | release =>
    rw [List.mem_singleton.mp ha] at haction
    cases haction
  | @cancelOrdinary _ reason deadline _ _ _ _ _ hcancel
  | @cancelFinalization _ _ reason deadline _ _ _ _ hcancel | forceOrdinary _ _ hcancel
  | forceFinalization _ _ hcancel =>
    obtain ⟨number, id', active, rfl | rfl⟩ := hcancel.mem_actions ha <;> cases haction
  | finish _ hexports =>
    rw [List.mem_singleton.mp ha] at haction
    cases haction
    exact ⟨_, rfl, rfl, hexports⟩

end

variable {seed : ExecutionSeed V}

/-- The end of a run was requested with the exports of its final state. -/
theorem Reachable.finished (h : Reachable definition seed m s) (ha : a ∈ m.actions)
    (haction : a.action = .finishRun outcome exports) :
    deriveExports s = some exports ∧ s.workflow.isTerminal = true ∧
      (outcome = .succeeded → s.workflow = .succeeded) := by
  refine h.induction (I := fun m s => ∀ a ∈ m.actions, ∀ outcome exports,
    a.action = .finishRun outcome exports → Workflow.deriveExports s = some exports ∧
      s.workflow.isTerminal = true ∧ (outcome = .succeeded → s.workflow = .succeeded))
    (by simp) ?_ a ha outcome exports haction
  intro o m s n t hreach hs hstep a ha outcome exports haction
  rcases List.mem_append.mp ha with ha | ha
  · obtain ⟨hexports, hterminal, hsucceeded⟩ := hs a ha outcome exports haction
    rw [hstep.terminal_fixed hterminal]
    exact ⟨hstep.deriveExports hreach.nodesMatch hexports, hterminal, hsucceeded⟩
  · obtain ⟨ordinary, rfl, hworkflow, hexports⟩ := hstep.finishes ha haction
    refine ⟨hstep.deriveExports hreach.nodesMatch hexports, ?_, ?_⟩
    · rw [hworkflow]
      cases ordinary <;> rfl
    · intro hsucceeded
      rw [hworkflow]
      cases ordinary <;> first | rfl | cases hsucceeded

end Finished

section Clean

variable {rt' : StepRuntimeState C V}

/-- What a node can be while nothing stands against success. -/
def cleanState (d : RuntimeStep) : StepState V → Prop
  | .cancelling _ | .cancelled _ => False
  | .notRun _ => d.role = .finalizer ∧ .succeeded ∉ d.when
  | _ => True

/-- A clean state in which finalization was entered and a node still waits runs the finalizers
of a success. -/
theorem PhaseInvariant.clean_trigger (hinv : PhaseInvariant s) (hclean : isClean s.workflow = true)
    (hd : s.definition.steps.get? id = some d) (hrt : s.steps.get? id = some rt)
    (hpending : rt.state = .pending) {finalization : FinalizationRuntime D}
    (hfinalization : s.finalization = some finalization) : finalization.trigger = .succeeded := by
  cases hworkflow : s.workflow with
  | executing gate =>
    rw [hinv.executing gate hworkflow] at hfinalization
    cases hfinalization
  | finalizing trigger gate issue =>
    obtain ⟨finalization', hsome, htrigger, -⟩ := hinv.finalizing trigger gate issue hworkflow
    cases hfinalization.symm.trans hsome
    rw [hworkflow] at hclean
    cases trigger with
    | succeeded => exact htrigger
    | failed | cancelled => cases hclean
  | succeeded =>
    have hallows := hinv.nodes id d rt hd hrt
    rw [hworkflow, hpending] at hallows
    cases hrole : d.role <;> rw [hrole] at hallows <;> cases hallows
  | failed | cancelled => rw [hworkflow] at hclean; cases hclean

variable [ConditionOutput V]

/-- What stands against success once does so for the rest of the run. -/
theorem ReducerStep.clean_before (hstep : ReducerStep o s m t) (hinv : PhaseInvariant s)
    (h : isClean t.workflow = true) : isClean s.workflow = true := by
  cases hstep with
  | primaryIssue _ _ _ htarget =>
    obtain ⟨-, ⟨-, -, rfl⟩ | ⟨-, -, rfl⟩⟩ := issueTarget_spec htarget <;> cases h
  | cancelOrdinary _ _ hcancel =>
    rw [hcancel.frame.1.trans (RuntimeState.tick_workflow _)] at h
    cases h
  | @forceOrdinary gate _ _ _ _ _ _ hcancel =>
    rw [hcancel.frame.1.trans (RuntimeState.tick_workflow _)] at h
    cases gate <;> cases h
  | @cancelFinalization trigger _ _ _ _ _ _ _ hcancel =>
    rw [hcancel.frame.1.trans (RuntimeState.tick_workflow _)] at h
    cases trigger <;> cases h
  | @forceFinalization trigger gate _ _ _ _ _ _ _ hcancel =>
    rw [hcancel.frame.1.trans (RuntimeState.tick_workflow _)] at h
    cases trigger <;> cases gate <;> cases h
  | @enter outcome _ houtcome =>
    cases outcome with
    | succeeded => exact ordinaryOutcome_clean houtcome
    | failed | cancelled => cases h
  | @finish outcome _ _ hready =>
    cases outcome with
    | succeeded => exact (hready.phase hinv).1 rfl
    | failed | cancelled => cases h
  | _ => simpa using h

/-- Without an acceptance a clean state stays clean. -/
theorem NodeChange.cleanState (h : NodeChange o s m id d rt rt') (hinv : PhaseInvariant s)
    (hcoherent : s.definition.Coherent) (hd : s.definition.steps.get? id = some d)
    (hold : s.steps.get? id = some rt) (hclean : isClean s.workflow = true)
    (hquiet : ∀ e ∈ m.events, isAcceptance e = false)
    (hrt : cleanState d rt.state) : Workflow.cleanState d rt'.state := by
  cases h with
  | same => exact hrt
  | move h =>
    cases h with
    | failureStop _ _ hstopped =>
      obtain ⟨issue, hworkflow⟩ := failureStopped_iff.mp hstopped
      rw [hworkflow] at hclean
      cases hclean
    | notSelected _ hpending hid hfinalization hwhen =>
      have hrole := hcoherent.role_eq .finalizer hid hd
      rw [hinv.clean_trigger hclean hd hold hpending hfinalization] at hwhen
      exact ⟨hrole, hwhen⟩
    | forcedCancel _ _ hphase hforced =>
      obtain ⟨trigger, gate, issue, hworkflow⟩ := hphase
      obtain ⟨evidence, hevidence, -⟩ := (Option.any_eq_true ..).mp hforced
      have hclosed := (hinv.forced (by rw [hevidence]; rfl)).2.1
      rw [phaseGateOpen, hworkflow] at hclosed
      rw [hworkflow] at hclean
      cases gate with
      | «open» => cases hclosed
      | cancelling => cases trigger <;> cases hclean
    | quiesce _ _ _ hstate =>
      rw [hstate] at hrt
      exact hrt.elim
    | _ => trivial
  | complete => trivial
  | issue h => cases h <;> trivial
  | note h => rwa [h.1.state]
  | passed => exact hrt
  | contained h haccepted =>
    obtain ⟨e, he, haccepts⟩ := haccepted
    rw [hquiet e he] at haccepts
    cases haccepts

/-- How nodes settle in a run against whose success nothing stands. -/
theorem Reachable.cleanNodes (h : Reachable definition .empty m s)
    (hcoherent : definition.Coherent) (hclean : isClean s.workflow = true)
    (hd : definition.steps.get? id = some d) (hrt : s.steps.get? id = some rt) :
    cleanState d rt.state := by
  refine h.induction (I := fun _ s => isClean s.workflow = true → ∀ id d rt,
    definition.steps.get? id = some d → s.steps.get? id = some rt → cleanState d rt.state)
    ?_ ?_ hclean id d rt hd hrt
  · intro _ id d rt hd hrt
    cases (get?_initialState hd .empty).symm.trans hrt
    trivial
  · intro o m s n t hreach hs hstep hclean id d rt' hd hrt'
    have hinv := hreach.phase hcoherent
    have hnext : Reachable definition .empty (m * n) t := hreach.tail ⟨o, hstep⟩
    have hbefore := hstep.clean_before hinv hclean
    have hquiet : ∀ e ∈ n.events, isAcceptance e = false := fun e he =>
      ((hnext.issueLog hcoherent).clean hclean e (List.mem_append_right _ he)).2
    have hd' : s.definition.steps.get? id = some d := by rwa [hreach.definition_eq]
    obtain ⟨rt, hrt, hchange⟩ := hstep.nodeBefore hreach.nodesMatch hd' hrt'
    exact hchange.cleanState hinv (hreach.coherent hcoherent) hd' hrt hbefore hquiet
      (hs hbefore id d rt hd hrt)

end Clean

variable {document : WorkflowDocument} {workflow : ValidatedWorkflow}
  {inputs : BTreeMap String ResolvedInput} {parallel transitions : Nat}

/-- An exported output is declared by a required node that runs after a success. -/
theorem Accepted.export_source (h : Accepted document workflow) {name : String}
    {source : ResolvedOutputSource} (hsource : workflow.exports.get? name = some source) :
    ∃ q, (fromAdmitted workflow inputs parallel transitions).steps.get?
        source.node.id = some q ∧ source.output ∈ q.declaredOutputs ∧
      q.failurePolicy = .required ∧ (q.role = .finalizer → .succeeded ∈ q.when) := by
  rcases h.exports name with ⟨-, hnone⟩ | ⟨reference, source', -, hresolve, hsource'⟩
  · rw [hsource] at hnone
    cases hnone
  cases hsource.symm.trans hsource'
  unfold resolveExport at hresolve
  split at hresolve
  · cases hresolve
  rename_i role body hbody
  split at hresolve
  · cases hresolve
  rename_i output houtput
  split_ifs at hresolve with hadvisory htrigger
  · cases hresolve
  · cases hresolve
  cases hresolve
  obtain ⟨q, hq, hrole, horigin⟩ := h.node_exists hbody
  refine ⟨q, hq, ?_, ?_, ?_⟩
  · rw [horigin.declaredOutputs]
    exact BTreeMap.mem_keys_iff.mpr ⟨output, houtput⟩
  · rw [horigin.failurePolicy]
    cases hpolicy : (commonNode body).failurePolicy with
    | required => rfl
    | advisory => exact absurd hpolicy hadvisory
  · intro hfinalizer
    rw [(horigin.when hfinalizer).1]
    by_contra hwhen
    exact htrigger ⟨hrole.symm.trans hfinalizer, hwhen⟩

variable [ConditionOutput V]

section

variable (h : Reachable definition .empty m s) (hcoherent : definition.Coherent)
  (hsucceeded : s.workflow = .succeeded) (hd : definition.steps.get? id = some d)
include h hcoherent hsucceeded hd

/-- In a run that succeeded a required node that runs after a success succeeded or was skipped. -/
theorem Reachable.succeeded_or_skipped (hrt : s.steps.get? id = some rt)
    (hterminal : rt.state.isTerminal = true) (hrequired : d.failurePolicy = .required)
    (hwhen : d.role = .finalizer → .succeeded ∈ d.when) :
    (∃ outputs, rt.state = .succeeded outputs) ∨ ∃ detail, rt.state = .skipped detail := by
  have hclean : isClean s.workflow = true := by rw [hsucceeded]; rfl
  have hnode := h.cleanNodes hcoherent hclean hd hrt
  obtain ⟨hfailed, hblocked⟩ := (h.issueLog hcoherent).noRequiredIssue hclean id d rt
    (by rw [h.definition_eq]; exact hd) hrt hrequired
  have hinherited := h.not_inherited hrt
  cases hstate : rt.state with
  | succeeded outputs => exact Or.inl ⟨outputs, rfl⟩
  | skipped detail => exact Or.inr ⟨detail, rfl⟩
  | failed => rw [hstate] at hfailed; exact absurd rfl hfailed
  | blocked => rw [hstate] at hblocked; exact absurd rfl hblocked
  | inherited => rw [hstate] at hinherited; exact absurd rfl hinherited
  | notRun =>
    rw [hstate] at hnode
    exact absurd (hwhen hnode.1) hnode.2
  | cancelled =>
    rw [hstate] at hnode
    exact hnode.elim
  | pending | starting | running | capturingOutputs | recovering | cancelling =>
    rw [hstate] at hterminal
    cases hterminal

theorem Reachable.export_derived (hrequired : d.failurePolicy = .required)
    (hwhen : d.role = .finalizer → .succeeded ∈ d.when)
    (hsome : (deriveExport s ⟨id, output⟩).isSome = true) :
    (∃ rt outputs value, s.steps.get? id = some rt ∧ rt.state = .succeeded outputs ∧
      outputs.get? output = some value ∧ deriveExport s ⟨id, output⟩ = some (.available value)) ∨
    ∃ rt detail, s.steps.get? id = some rt ∧ rt.state = .skipped detail ∧
      deriveExport s ⟨id, output⟩ = some (.unavailable .skipped) := by
  obtain ⟨rt, hrt⟩ := h.nodesMatch.runtime (by rw [h.definition_eq]; exact hd)
  have hvalue : deriveExport s ⟨id, output⟩ = exportValue output rt.state := by
    simp [deriveExport, hrt]
  rw [hvalue] at hsome
  rcases h.succeeded_or_skipped hcoherent hsucceeded hd hrt (isTerminal_of_exportValue hsome)
    hrequired hwhen with ⟨outputs, hstate⟩ | ⟨detail, hstate⟩
  · rw [hstate] at hsome hvalue
    obtain ⟨value, hget⟩ : ∃ value, outputs.get? output = some value := by
      simpa [exportValue, Option.isSome_iff_exists] using hsome
    exact Or.inl ⟨rt, outputs, value, hrt, hstate, hget, by simp [hvalue, exportValue, hget]⟩
  · rw [hstate] at hvalue
    exact Or.inr ⟨rt, detail, hrt, hstate, hvalue⟩

end

variable [ProvisionalStepResources O] [NodeFailureSource C]

/-- The exports of a run that succeeded: every declared export is there, with the value that its
source committed, or as skipped together with its source. -/
theorem succeeded_exports (hvalid : validate document = .ok workflow)
    (inputs : BTreeMap String ResolvedInput)
    (parallel transitions : Nat)
    (initial : Option (InitialCancellation D))
    (occurrences : List (Occurrence O C V D))
    {run : Reduction O C V D}
    (hrun : run = admittedRun workflow inputs parallel transitions initial occurrences)
    {action : ActionId}
    {exports : ExportSet V}
    (hfinished : ⟨action, .finishRun .succeeded exports⟩ ∈ run.actions) :
    (∀ name source, workflow.exports.get? name = some source →
      (∃ rt outputs value, run.state.steps.get? source.node.id = some rt ∧
        rt.state = .succeeded outputs ∧ outputs.get? source.output = some value ∧
        exports.get? name = some (.available value) ∧
        ∀ committed, OutputsCommitted
          ⟨fromAdmitted workflow inputs parallel transitions, initial⟩
          .empty occurrences source.node.id committed ↔ committed = outputs) ∨
      ∃ rt detail, run.state.steps.get? source.node.id = some rt ∧
        rt.state = .skipped detail ∧ exports.get? name = some (.unavailable .skipped)) ∧
    ∀ name reason, exports.get? name = some (.unavailable reason) → reason = .skipped := by
  have hcoherent := fromAdmitted_coherent hvalid inputs parallel transitions
  have hreach := admittedRun_reachable initial hcoherent occurrences
  rw [← hrun] at hreach
  obtain ⟨hderived, -, hsucceeded⟩ := hreach.finished hfinished rfl
  obtain ⟨hsome, rfl⟩ := deriveExports_eq_some_iff.mp hderived
  have hget : ∀ name, (fromAdmitted workflow inputs parallel
      transitions).exports.get? name = (workflow.exports.get? name).map
        (fun source => ⟨source.node.id, source.output⟩) := by
    intro name
    simp [fromAdmitted, fromWorkflow]
  have hexport : ∀ name, (run.state.definition.exports.filterMap fun _ source =>
      deriveExport run.state source).get? name = (workflow.exports.get? name).bind
        (fun source => deriveExport run.state ⟨source.node.id, source.output⟩) := by
    intro name
    rw [BTreeMap.get?_filterMap, hreach.definition_eq, hget]
    cases workflow.exports.get? name <;> rfl
  have hderive : ∀ name source, workflow.exports.get? name = some source →
      (deriveExport run.state ⟨source.node.id, source.output⟩).isSome = true := by
    intro name source hsource
    refine hsome name _ ?_
    rw [hreach.definition_eq, hget, hsource, Option.map_some]
  constructor
  · intro name source hsource
    obtain ⟨q, hq, hdeclared, hrequired, hwhen⟩ := (validate_accepted hvalid).export_source hsource
    rw [hexport, hsource, Option.bind_some]
    rcases hreach.export_derived hcoherent (hsucceeded rfl) hq hrequired hwhen
      (hderive name source hsource) with ⟨rt, outputs, value, hrt, hstate, hvalue, havailable⟩ |
        hskipped
    · refine Or.inl ⟨rt, outputs, value, hrt, hstate, hvalue, havailable, ?_⟩
      rw [hrun] at hrt
      exact outputsCommitted_iff hcoherent hq (List.ne_nil_of_mem hdeclared) hrt hstate
    · exact Or.inr hskipped
  · intro name reason hreason
    rw [hexport] at hreason
    obtain ⟨source, hsource, hreason⟩ := Option.bind_eq_some_iff.mp hreason
    obtain ⟨q, hq, -, hrequired, hwhen⟩ := (validate_accepted hvalid).export_source hsource
    rcases hreach.export_derived hcoherent (hsucceeded rfl) hq hrequired hwhen
      (hderive name source hsource) with ⟨rt, outputs, value, -, -, -, havailable⟩ |
        ⟨rt, detail, -, -, hskipped⟩
    · cases hreason.symm.trans havailable
    · cases hreason.symm.trans hskipped
      rfl

/-- A step whose only output is exported. -/
def exportDocument : WorkflowDocument :=
  commandDocument [] [("build", ⟨textCommand .required none [] ["log"], [], none⟩)] []
    [("log", ⟨"build", "log"⟩)]

/-- The log is captured and the run succeeds. -/
def exportedLog : Reduction Unit FailureDetail String Nat :=
  admittedRun (acceptedWorkflow exportDocument) .empty 1 16 none
    [.stepStarted "build" ⟨1⟩, .stepExecutionCompleted "build" ⟨1⟩ (),
      .outputsCaptured "build" ⟨3⟩ (.ofList [("log", "done")])]

theorem exportedLog_exports :
    ⟨⟨5⟩, .finishRun .succeeded (BTreeMap.ofList [("log", .available "done")])⟩ ∈
        exportedLog.actions ∧
      ∀ name reason, (BTreeMap.ofList [("log", ExportValue.available "done")]).get? name =
        some (.unavailable reason) → reason = .skipped := by
  have hfinished : ⟨⟨5⟩, .finishRun .succeeded (.ofList [("log", .available "done")])⟩ ∈
      exportedLog.actions := by decide
  exact ⟨hfinished, (succeeded_exports
    (show validate exportDocument = .ok (acceptedWorkflow exportDocument) from rfl)
    .empty 1 16 none _ (show exportedLog = _ from rfl) hfinished).2⟩

end ScherzoCloud.Workflow
