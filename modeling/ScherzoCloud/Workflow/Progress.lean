import ScherzoCloud.Workflow.LoopTermination
import ScherzoCloud.Workflow.PhaseSeparation

/-!
# Progress of a run

A run waits for reports about its active nodes.  When no node is active and the
run has not finished, only a cancellation or an abort can end it.  A state at
rest is of that kind when a node is stranded.  Such a node is pending, its
condition was never evaluated, nothing blocks the condition, and the body lacks
an input.  While the condition is open the reducer looks only at what blocks the
condition, so the node is neither started nor settled.  No node is stranded when
the condition of every node covers its body.
-/

namespace ScherzoCloud.Workflow

open StepState (isPending isTerminal)
open Collections
open RuntimeDefinition (fromAdmitted fromWorkflow)

variable {O C V D : Type} {r : Reduction O C V D} {id : String} {d : RuntimeStep}
  {rt rt' : StepRuntimeState C V} {definition : RuntimeDefinition} {role : WorkflowNodeRole}
  {o : Option (Occurrence O C V D)} {s : RuntimeState C V D} {seed : ExecutionSeed V}
  {p : ResolvedDirectPrerequisite} {m : Emission O C V D}

section Silence

variable {r' : Reduction O C V D}

theorem authorizeTarget_events_le (r : Reduction O C V D) (id : String)
    (n : TargetExecutionNumber) (inputs : BTreeMap String (ActionInput V)) :
    r.events.length ≤ (authorizeTarget r id n inputs).events.length := by
  unfold authorizeTarget
  simp only [Reduction.mapState, Reduction.pushAction, transitionStep]
  split <;> simp

theorem foldl_authorizeTarget_events_le (nodes : List (String × BTreeMap String (ActionInput V)))
    (r : Reduction O C V D) : r.events.length ≤
      (nodes.foldl (fun r node => authorizeTarget r node.1 1 node.2) r).events.length := by
  induction nodes generalizing r with
  | nil => exact Nat.le_refl _
  | cons node nodes ih => exact (authorizeTarget_events_le r _ _ _).trans (ih _)

/-- Selection without an event selected nothing. -/
theorem selectReadyNodes_silent (hnodes : NodesMatch r.state)
    (hcoherent : r.state.definition.Coherent) (h : (selectReadyNodes r role).events = r.events) :
    selectReadyNodes r role = r ∧
      (phaseGateOpen r.state role = true → selectedNodes r.state role = []) := by
  unfold selectReadyNodes at h ⊢
  cases hgate : phaseGateOpen r.state role with
  | false => simp
  | true =>
    simp only [hgate, Bool.not_true, Bool.false_eq_true, if_false, true_implies] at h ⊢
    cases hselected : selectedNodes r.state role with
    | nil => exact ⟨rfl, rfl⟩
    | cons node nodes =>
      exfalso
      obtain ⟨d, hd, -⟩ := selectedNodes_spec hcoherent
        (by rw [hselected]; exact List.mem_cons_self)
      obtain ⟨rt, hrt⟩ := hnodes.runtime hd
      have hle := foldl_authorizeTarget_events_le nodes (authorizeTarget r node.1 1 node.2)
      rw [hselected, List.foldl_cons] at h
      rw [h, authorizeTarget_eq hd hrt] at hle
      simp [startResult, Reduction.emit] at hle

theorem finishRun_silent {outcome : OrdinaryOutcome} {summary : Option (FinalizationSummary D)}
    (h : (finishRun r outcome summary).events = r.events) :
    finishRun r outcome summary = r ∧ deriveExports r.state = none := by
  unfold finishRun at h ⊢
  cases hexports : deriveExports r.state with
  | none => exact ⟨rfl, rfl⟩
  | some =>
    rw [hexports] at h
    simp [transitionWorkflow_eq, Reduction.mapState, Reduction.pushAction, Reduction.emit] at h

/-- Without an event the ordinary phase goes on, or an export cannot be derived. -/
theorem enterFinalizationOrFinish_silent (hphase : ∃ gate, r.state.workflow = .executing gate)
    (h : (enterFinalizationOrFinish r).events = r.events) :
    enterFinalizationOrFinish r = r ∧ (allSettled r.state .step = true →
      r.state.definition.finalizerIds = [] ∧ deriveExports r.state = none) := by
  unfold enterFinalizationOrFinish at h ⊢
  cases hsettled : allSettled r.state .step with
  | false => simp
  | true =>
    simp only [hsettled, Bool.not_true, Bool.false_eq_true, if_false, true_implies] at h ⊢
    obtain ⟨outcome, houtcome⟩ : ∃ outcome, ordinaryOutcome r.state = some outcome := by
      obtain ⟨gate, hworkflow⟩ := hphase
      unfold ordinaryOutcome
      rw [hworkflow]
      cases gate with
      | «open» | failureStopped => exact ⟨_, rfl⟩
      | cancelling _ issue => cases issue <;> exact ⟨_, rfl⟩
    rw [houtcome] at h ⊢
    dsimp only at h ⊢
    split_ifs at h ⊢ with hempty
    · obtain ⟨heq, hexports⟩ := finishRun_silent h
      exact ⟨heq, List.isEmpty_iff.mp hempty, hexports⟩
    · simp [enterFinalization, transitionWorkflow_eq, Reduction.mapState, Reduction.emit] at h

theorem finishFinalizationIfTerminal_silent (hphase : r.state.Finalizing)
    (hfinalization : r.state.finalization.isSome = true)
    (h : (finishFinalizationIfTerminal r).events = r.events) : finishFinalizationIfTerminal r = r ∧
      (allSettled r.state .finalizer = true → deriveExports r.state = none) := by
  obtain ⟨trigger, gate, issue, hworkflow⟩ := hphase
  obtain ⟨finalization, hfinalization⟩ := Option.isSome_iff_exists.mp hfinalization
  unfold finishFinalizationIfTerminal at h ⊢
  rw [hworkflow, hfinalization] at h ⊢
  dsimp only at h ⊢
  cases hsettled : allSettled r.state .finalizer with
  | false => simp
  | true =>
    simp only [hsettled, Bool.not_true, Bool.false_eq_true, if_false, true_implies] at h ⊢
    exact finishRun_silent h

variable [ConditionOutput V]

/-- A loop whose rounds all settle a node did nothing if it is silent. -/
theorem iterate_silent {next : Reduction O C V D → Option (Reduction O C V D)}
    (hnext : ∀ r r', NodesMatch r.state → next r = some r' → Stabilizes o r r')
    (hround : ∀ r', next r = some r' → waiting true r'.state ⊂ waiting true r.state)
    (hnodes : NodesMatch r.state) {n : Nat}
    (hsilent : (iterate next (n + 1) r).events = r.events) : iterate next (n + 1) r = r := by
  rw [iterate] at hsilent ⊢
  cases hfirst : next r with
  | none => rfl
  | some r' =>
    rw [hfirst] at hsilent
    have hstep := hnext r r' hnodes hfirst
    have hrest := iterate_stabilizes hnext n (hstep.nodesMatch hnodes)
    have hquiet := hstep.quiet (hstep.events_left hrest hsilent).1
    refine absurd (fun id hid => ?_) (hround r' hfirst).2
    obtain ⟨rt, hrt, hpending, -⟩ := mem_waiting.mp hid
    have hstates := hquiet.states id
    rw [hrt, Option.map_some, Option.map_eq_some_iff] at hstates
    obtain ⟨rt', hrt', hstate⟩ := hstates
    exact mem_waiting.mpr ⟨rt', hrt', hstate.trans hpending, Or.inl rfl⟩

end Silence

section Rest

/-- What is left of the ordinary phase when nothing can be committed. -/
structure OrdinaryRest (s : RuntimeState C V D) : Prop where
  disposition : nextOrdinaryPendingDisposition s = none
  selection : phaseGateOpen s .step = true → selectedNodes s .step = []
  completion : allSettled s .step = true → s.definition.finalizerIds = [] ∧ deriveExports s = none

/-- What is left of finalization when nothing can be committed. -/
structure FinalizerRest (s : RuntimeState C V D) : Prop where
  forced : forceAbortedOrdinary s = true → ∀ id d rt, s.definition.steps.get? id = some d →
    d.role = .finalizer → s.steps.get? id = some rt → rt.state ≠ .pending
  conditionBlock : forceAbortedOrdinary s = false → nextFinalizerConditionBlock s = none
  inputUnavailable : forceAbortedOrdinary s = false → nextInputUnavailable s = none
  selection : phaseGateOpen s .finalizer = true → selectedNodes s .finalizer = []
  completion : allSettled s .finalizer = true → deriveExports s = none

/-- Cancelling the pending nodes of a role leaves none of them. -/
theorem cancelPendingNodes_none_pending {reason : CancellationReason}
    (hd : r.state.definition.steps.get? id = some d) (hrole : d.role = role)
    (hrt : (cancelPendingNodes r role reason).state.steps.get? id = some rt) :
    rt.state ≠ .pending := by
  have hfold : cancelPendingNodes r role reason =
      (((nodesOfRole r.state role).filter (fun node => node.2 = .pending)).map Prod.fst).foldl
        (fun r id => (transitionStep r id (.cancelled ⟨reason⟩) none).2) r := by
    rw [List.foldl_map]
    rfl
  rw [hfold] at hrt
  obtain ⟨-, hothers, hsettled⟩ := foldl_transitionStep_spec
    (((nodesOfRole r.state role).filter (fun node => node.2 = .pending)).map Prod.fst)
    (.cancelled ⟨reason⟩) r
  intro hpending
  by_cases hmem : id ∈
      ((nodesOfRole r.state role).filter (fun node => node.2 = .pending)).map Prod.fst
  · rw [hsettled id hmem rt hrt] at hpending
    cases hpending
  · rw [hothers id hmem] at hrt
    refine hmem (List.mem_map.mpr ⟨(id, rt.state.kind), List.mem_filter.mpr ⟨?_, ?_⟩, rfl⟩)
    · exact nodesOfRole_spec.mpr ⟨d, rt, hd, hrole, hrt, rfl⟩
    · simp [hpending, StepState.kind]

variable [ConditionOutput V]

/-- The ordinary phase leaves no disposition to commit. -/
theorem settleOrdinaryPhase_settled (hnodes : NodesMatch r.state) :
    nextOrdinaryPendingDisposition (settleOrdinaryPhase r).state = none := by
  have hfirst := propagateOrdinaryPendingDispositions_stabilizes (o := none) hnodes
  have hevaluated := hfirst.trans
    (evaluateReadyConditions_stabilizes (hfirst.nodesMatch hnodes) .step)
  have hends : propagateOrdinaryStep (settleOrdinaryPhase r) = none :=
    loop_ends (fun _ _ => propagateOrdinaryStep_stabilizes)
      (fun _ _ _ => propagateOrdinaryStep_settles) (hevaluated.nodesMatch hnodes)
  unfold propagateOrdinaryStep at hends
  split at hends <;> simp_all

/-- Silent dispositions of finalizers leave none to commit. -/
theorem propagateFinalizerDispositions_silent (hnodes : NodesMatch r.state)
    (hcoherent : r.state.definition.Coherent)
    (hfacts : ∀ id d, r.state.definition.steps.get? id = some d → NodeFacts definition d)
    (h : (propagateFinalizerDispositions r).events = r.events) :
    nextFinalizerConditionBlock (propagateFinalizerDispositions r).state = none ∧
      nextInputUnavailable (propagateFinalizerDispositions r).state = none := by
  have hblocked := propagateFinalizerConditions_stabilizes (o := none) hnodes hcoherent
  have hnodes' := hblocked.nodesMatch hnodes
  have hinput := iterate_stabilizes (o := none) (fun _ _ _ h => inputUnavailableStep_stabilizes h)
    (loopBound (propagateFinalizerConditions r)) hnodes'
  -- the second loop did nothing, so what the first one has left is still so
  have heq : propagateFinalizerDispositions r = propagateFinalizerConditions r := by
    refine iterate_silent (fun _ _ _ h => inputUnavailableStep_stabilizes (o := none) h)
      (fun _ => inputUnavailableStep_settles (fun id d hd => hfacts id d ?_)) hnodes'
      (hblocked.events_left hinput h).2
    rwa [hblocked.definition] at hd
  constructor
  · have hends := propagateFinalizerConditions_ends hnodes hcoherent
    rw [heq]
    unfold finalizerConditionBlockStep at hends
    split at hends <;> simp_all
  · have hends := propagateFinalizerDispositions_ends hnodes hcoherent hfacts
    unfold inputUnavailableStep at hends
    split at hends
    · assumption
    · split at hends <;> cases hends

section

variable (hnodes : NodesMatch r.state) (hcoherent : r.state.definition.Coherent)
  (hphase : r.state.Finalizing)
include hnodes hcoherent hphase

/-- Silent finalization after a force abort in the ordinary phase leaves no pending finalizer. -/
theorem settleFinalizationPhase_forced (hforced : forceAbortedOrdinary r.state = true)
    (h : (settleFinalizationPhase r).events = r.events)
    (hd : r.state.definition.steps.get? id = some d) (hrole : d.role = .finalizer)
    (hrt : (settleFinalizationPhase r).state.steps.get? id = some rt) : rt.state ≠ .pending := by
  have htrigger := propagateFinalizerTriggerDispositions_stabilizes (o := none) hcoherent
  have hcancelled := htrigger.trans
    (propagateFinalizationPhase_rest (o := none) hnodes hcoherent hphase)
  have hevaluated := evaluateReadyConditions_stabilizes (o := none)
    (hcancelled.nodesMatch hnodes) .finalizer
  have hsettled : settleFinalizationPhase r =
      evaluateReadyConditions (propagateFinalizationPhase r) .finalizer := by
    simp only [settleFinalizationPhase, hforced, if_true]
  rw [hsettled] at h hrt
  obtain ⟨rt₀, hrt₀, hstate⟩ :=
    (hevaluated.quiet (hcancelled.events_left hevaluated h).2).node hrt
  rw [← hstate]
  simp only [propagateFinalizationPhase, hforced, if_true] at hrt₀
  exact cancelPendingNodes_none_pending (by rw [htrigger.definition]; exact hd) hrole hrt₀

/-- Silent finalization leaves no disposition to commit. -/
theorem settleFinalizationPhase_silent
    (hfacts : ∀ id d, r.state.definition.steps.get? id = some d → NodeFacts definition d)
    (hforced : forceAbortedOrdinary r.state = false)
    (h : (settleFinalizationPhase r).events = r.events) :
    nextFinalizerConditionBlock (settleFinalizationPhase r).state = none ∧
      nextInputUnavailable (settleFinalizationPhase r).state = none := by
  have hfirst := (propagateFinalizerTriggerDispositions_stabilizes (o := none) hcoherent).trans
    (propagateFinalizationPhase_rest hnodes hcoherent hphase)
  have hevaluated := hfirst.trans
    (evaluateReadyConditions_stabilizes (hfirst.nodesMatch hnodes) .finalizer)
  have hcoherent' : (evaluateReadyConditions (propagateFinalizationPhase r)
      .finalizer).state.definition.Coherent := by
    rw [hevaluated.definition]
    exact hcoherent
  have hnodes' := hevaluated.nodesMatch hnodes
  have hrest := propagateFinalizerDispositions_stabilizes (o := none) hnodes' hcoherent'
  have hsettled : settleFinalizationPhase r = propagateFinalizerDispositions
      (evaluateReadyConditions (propagateFinalizationPhase r) .finalizer) := by
    simp only [settleFinalizationPhase, hforced, Bool.false_eq_true, if_false]
  rw [hsettled] at h ⊢
  exact propagateFinalizerDispositions_silent hnodes' hcoherent'
    (by rw [hevaluated.definition]; exact hfacts) (hevaluated.events_left hrest h).2

end

/-- A silent pass did nothing in any of its stages. -/
theorem pass_silent {settled : Reduction O C V D} {finish : Reduction O C V D → Reduction O C V D}
    (hnodes : NodesMatch r.state) (hcoherent : r.state.definition.Coherent)
    (hsettled : Stabilizes none r settled) (hfinish : ∀ r, Stabilizes none r (finish r))
    (h : (finish (selectReadyNodes settled role)).events = r.events) :
    settled.events = r.events ∧ selectReadyNodes settled role = settled ∧
      (phaseGateOpen settled.state role = true → selectedNodes settled.state role = []) ∧
      (finish settled).events = settled.events := by
  have hcoherent' : settled.state.definition.Coherent := by
    rw [hsettled.definition]
    exact hcoherent
  have hselected := selectReadyNodes_stabilizes hcoherent' role
  obtain ⟨hsilent₁, hsilent₃⟩ := (hsettled.trans hselected).events_left (hfinish _) h
  obtain ⟨hsilent₀, hsilent₂⟩ := hsettled.events_left hselected hsilent₁
  obtain ⟨heq, hselection⟩ := selectReadyNodes_silent (hsettled.nodesMatch hnodes) hcoherent'
    hsilent₂
  rw [heq] at hsilent₃
  exact ⟨hsilent₀, heq, hselection, hsilent₃⟩

/-- The last pass of the ordinary phase. -/
theorem LastPass.ordinaryRest (h : LastPass definition seed r s) (hcoherent : definition.Coherent)
    (hphase : ∃ gate, s.workflow = .executing gate) : OrdinaryRest s := by
  obtain ⟨m, hreach⟩ := h.reachable
  have hcoherent' := hreach.coherent hcoherent
  have hquiet := (stabilizePass_stabilizes hreach.nodesMatch hcoherent').quiet h.silent
  have hphase' : ∃ gate, r.state.workflow = .executing gate := by
    rwa [h.result, hquiet.workflow] at hphase
  have hsettled := settleOrdinaryPhase_stabilizes (o := none) hreach.nodesMatch
  have hpass : stabilizePass r =
      enterFinalizationOrFinish (selectReadyNodes (settleOrdinaryPhase r) .step) := by
    obtain ⟨gate, hworkflow⟩ := hphase'
    simp only [stabilizePass, hworkflow]
  obtain ⟨hsilent, heq, hselection, hlast⟩ := pass_silent hreach.nodesMatch hcoherent' hsettled
    (fun _ => enterFinalizationOrFinish_stabilizes) (hpass ▸ h.silent)
  obtain ⟨heq', hcompletion⟩ := enterFinalizationOrFinish_silent
    (by rw [(hsettled.quiet hsilent).workflow]; exact hphase') hlast
  have hresult : s = (settleOrdinaryPhase r).state := by
    rw [h.result, hpass, heq, heq']
  rw [hresult]
  exact ⟨settleOrdinaryPhase_settled hreach.nodesMatch, hselection, hcompletion⟩

/-- The last pass of finalization. -/
theorem LastPass.finalizerRest (h : LastPass definition seed r s) (hcoherent : definition.Coherent)
    (hfacts : ∀ id d, definition.steps.get? id = some d → NodeFacts definition d)
    (hphase : s.Finalizing) : FinalizerRest s := by
  obtain ⟨m, hreach⟩ := h.reachable
  have hcoherent' := hreach.coherent hcoherent
  have hquiet := (stabilizePass_stabilizes hreach.nodesMatch hcoherent').quiet h.silent
  have hphase' : r.state.Finalizing := by
    rwa [RuntimeState.Finalizing, h.result, hquiet.workflow] at hphase
  have hfinalization : r.state.finalization.isSome = true := by
    obtain ⟨trigger, gate, issue, hworkflow⟩ := hphase'
    obtain ⟨finalization, hsome, -⟩ := (hreach.phase hcoherent).finalizing _ _ _ hworkflow
    rw [hsome]
    rfl
  have hsettled := settleFinalizationPhase_stabilizes (o := none) hreach.nodesMatch hcoherent'
    hphase'
  have hpass : stabilizePass r =
      finishFinalizationIfTerminal (selectReadyNodes (settleFinalizationPhase r) .finalizer) := by
    obtain ⟨trigger, gate, issue, hworkflow⟩ := hphase'
    simp only [stabilizePass, hworkflow]
  obtain ⟨hsilent₀, heq, hselection, hlast⟩ := pass_silent hreach.nodesMatch hcoherent' hsettled
    (fun _ => finishFinalizationIfTerminal_stabilizes) (hpass ▸ h.silent)
  have hquiet' := hsettled.quiet hsilent₀
  obtain ⟨heq', hcompletion⟩ := finishFinalizationIfTerminal_silent
    (by rwa [RuntimeState.Finalizing, hquiet'.workflow])
    (by rw [hquiet'.finalization]; exact hfinalization) hlast
  have hresult : s = (settleFinalizationPhase r).state := by
    rw [h.result, hpass, heq, heq']
  have hforce : forceAbortedOrdinary (settleFinalizationPhase r).state =
      forceAbortedOrdinary r.state := by
    rw [forceAbortedOrdinary, hquiet'.forceAbort, forceAbortedOrdinary]
  have hfacts' : ∀ id d, r.state.definition.steps.get? id = some d → NodeFacts definition d := by
    rw [hreach.definition_eq]
    exact hfacts
  rw [hresult]
  refine ⟨fun hforced => ?_, fun hforced => ?_, fun hforced => ?_, hselection, hcompletion⟩
  · intro id d rt hd hrole hrt
    rw [hsettled.definition] at hd
    exact settleFinalizationPhase_forced hreach.nodesMatch hcoherent' hphase' (hforce ▸ hforced)
      hsilent₀ hd hrole hrt
  · exact (settleFinalizationPhase_silent hreach.nodesMatch hcoherent' hphase' hfacts'
      (hforce ▸ hforced) hsilent₀).1
  · exact (settleFinalizationPhase_silent hreach.nodesMatch hcoherent' hphase' hfacts'
      (hforce ▸ hforced) hsilent₀).2

end Rest

/-- Whether everything is there that the body of a node waits for. -/
def bodyReady (s : RuntimeState C V D) (d : RuntimeStep) : Bool :=
  match d.role with
  | .step => d.prerequisites.all (ordinaryPrerequisiteSatisfied s)
  | .finalizer => (unavailableReferences s d).isEmpty

/-- A pending node of the current phase that waits for nothing and is neither started nor
settled: its condition was not evaluated, nothing blocks the condition, and the body lacks an
input. -/
def Stranded (s : RuntimeState C V D) (id : String) : Prop :=
  ∃ d rt, s.definition.steps.get? id = some d ∧ s.steps.get? id = some rt ∧
    inPhaseOf d.role s.workflow = true ∧ rt.state = .pending ∧ d.condition.isSome = true ∧
    rt.conditionPassed = false ∧ conditionBlockers s d = [] ∧
    (∀ p ∈ d.prerequisites, stepIs s p.producer isTerminal = true) ∧
    bodyReady s d = false

theorem pending_of_idle {state : StepState V} (hactive : state.isActive = false)
    (hterminal : state.isTerminal = false) : state = .pending := by
  cases state <;> simp_all [StepState.isActive, isTerminal]

/-- What progress relies on in a definition. -/
structure RuntimeDefinition.Sound (definition : RuntimeDefinition) : Prop where
  coherent : definition.Coherent
  facts : ∀ id d, definition.steps.get? id = some d → NodeFacts definition d
  ranked : ∀ role, ∃ rank : String → Nat, ∀ id d, definition.steps.get? id = some d →
    d.role = role → ∀ p ∈ d.prerequisites, rank p.producer < rank id
  condition : ∀ id d, definition.steps.get? id = some d → ∀ p ∈ d.prerequisites,
    p.conditionData = true → d.condition.isSome = true
  exports : ∀ name source, definition.exports.get? name = some source →
    ∃ q, definition.steps.get? source.step = some q ∧ source.output ∈ q.declaredOutputs
  slots : 0 < definition.maximumParallelSteps

/-- No node is active. -/
def RuntimeState.Idle (s : RuntimeState C V D) : Prop :=
  ∀ id rt, s.steps.get? id = some rt → rt.state.isActive = false

/-- Among pending nodes of a role one waits for settled nodes only. -/
theorem exists_first_pending (hnodes : NodesMatch s) (hsound : s.definition.Sound)
    (hidle : s.Idle) (hunsettled : allSettled s role = false) :
    ∃ id d rt, s.definition.steps.get? id = some d ∧ d.role = role ∧
      s.steps.get? id = some rt ∧ rt.state = .pending ∧
      ∀ p ∈ d.prerequisites, stepIs s p.producer isTerminal = true := by
  obtain ⟨rank, hrank⟩ := hsound.ranked role
  have hexists : ∃ id ∈ idsOf s.definition role, stepIs s id isTerminal = false := by
    simpa [allSettled] using hunsettled
  obtain ⟨id, hid, hterminal⟩ := hexists
  obtain ⟨d, hd, hrole⟩ := (hsound.coherent.mem_idsOf role id).mp hid
  obtain ⟨rt, hrt⟩ := hnodes.runtime hd
  rw [stepIs, hrt, Option.any_some] at hterminal
  have hpending := pending_of_idle (hidle _ _ hrt) hterminal
  clear hid hterminal
  -- the rank of a pending node bounds the search
  induction hn : rank id using Nat.strong_induction_on generalizing id d rt with
  | _ n ih =>
    by_cases hall : ∀ p ∈ d.prerequisites, stepIs s p.producer isTerminal = true
    · exact ⟨id, d, rt, hd, hrole, hrt, hpending, hall⟩
    · simp only [not_forall, Bool.not_eq_true] at hall
      obtain ⟨p, hp, hunsettled⟩ := hall
      obtain ⟨-, q, hq, hqrole⟩ := (hsound.facts id d hd).producer p hp
      obtain ⟨rtq, hrtq⟩ := hnodes.runtime hq
      rw [stepIs, hrtq, Option.any_some] at hunsettled
      exact ih (rank p.producer) (hn ▸ hrank id d hd hrole p hp) p.producer q hq
        (hqrole.trans hrole) rtq hrtq (pending_of_idle (hidle _ _ hrtq) hunsettled) rfl

/-- With a free slot, a phase that selects nothing has no ready node. -/
theorem not_ready_of_selectedNodes (hslots : 0 < availableSlots s)
    (hselected : selectedNodes s role = []) (hid : id ∈ idsOf s.definition role)
    (hd : s.definition.steps.get? id = some d) : nodeReady s role id d = false := by
  cases hready : nodeReady s role id d with
  | false => rfl
  | true =>
    unfold selectedNodes at hselected
    rcases List.take_eq_nil_iff.mp hselected with hzero | hnil
    · omega
    · rw [List.filterMap_eq_nil_iff] at hnil
      have hnone := hnil id hid
      simp [hd, hready] at hnone

theorem availableSlots_pos (hparallel : 0 < s.definition.maximumParallelSteps) (hidle : s.Idle) :
    0 < availableSlots s := by
  have hnone : activeCount s = 0 := by
    unfold activeCount
    rw [List.length_eq_zero_iff, List.filter_eq_nil_iff]
    intro rt hrt
    obtain ⟨id, hid⟩ := BTreeMap.mem_values_iff.mp hrt
    simp [hidle id rt hid]
  unfold availableSlots
  omega

theorem satisfied_of_settled (hrt : s.steps.get? p.producer = some rt)
    (hsettled : rt.state.isTerminal = true)
    (hcontrol : p.control = true → ordinaryControlSatisfied s p = true)
    (hdata : p.data = true → stepDataAvailable rt.state = true) :
    ordinaryPrerequisiteSatisfied s p = true := by
  unfold ordinaryPrerequisiteSatisfied
  rw [hrt]
  simp only [hsettled, Bool.or_true, Bool.and_true, Bool.and_eq_true, Bool.or_eq_true,
    Bool.not_eq_true']
  refine ⟨?_, ?_⟩
  · cases hc : p.control with
    | false => exact Or.inl rfl
    | true => exact Or.inr (hcontrol hc)
  · cases hc : p.data with
    | false => exact Or.inl rfl
    | true => exact Or.inr (hdata hc)

/-- A settled producer that blocks nothing of the body satisfies the node. -/
theorem satisfied_of_no_blockers (hfacts : NodeFacts definition d) (hp : p ∈ d.prerequisites)
    (hterminal : stepIs s p.producer isTerminal = true)
    (hnone : bodyPrerequisiteBlockers s d p = []) (hdata : p.data = true → p.conditionData = true →
      stepIs s p.producer stepDataAvailable = true) : ordinaryPrerequisiteSatisfied s p = true := by
  obtain ⟨rt, hrt, hsettled⟩ := (Option.any_eq_true ..).mp hterminal
  have hnone' : ∀ q, q ∉ bodyPrerequisiteBlockers s d p := by
    rw [hnone]
    exact fun q => List.not_mem_nil
  simp only [mem_bodyPrerequisiteBlockers, hrt, Option.some.injEq, exists_eq_left', hsettled,
    true_and, not_or] at hnone'
  have hcontrol : p.control = true → ordinaryControlSatisfied s p = true := by
    intro hcontrol
    by_contra hunmet
    exact (hnone' (.control p.producer)).1
      ⟨hcontrol, by simpa using hunmet, (hfacts.producer p hp).1, rfl⟩
  have hdata' : p.data = true → stepDataAvailable rt.state = true := by
    intro hd
    cases hcondition : p.conditionData with
    | true => simpa [stepIs, hrt] using hdata hd hcondition
    | false =>
      obtain ⟨reference, hevidence, hproducer⟩ := hfacts.body_evidence p hp hd hcondition
      by_contra hunavailable
      exact (hnone' (.body reference)).2 ⟨hd, by simpa using hunavailable,
        mem_producerDescriptors.mpr ⟨hevidence, rfl, hproducer⟩⟩
  exact satisfied_of_settled hrt hsettled hcontrol hdata'

theorem dataAvailable_of_conditionPrerequisiteReady (h : conditionPrerequisiteReady s d p = true)
    (hdata : p.conditionData = true) : stepIs s p.producer stepDataAvailable = true := by
  unfold conditionPrerequisiteReady at h
  split at h
  · cases h
  · rename_i rt hrt
    rw [stepIs, hrt, Option.any_some]
    split at h
    all_goals
      simp only [hdata, Bool.not_true, Bool.false_or, Bool.and_eq_true] at h
      exact h.2

section Passed

variable [ConditionOutput V] {t : RuntimeState C V D}

/-- A node stays pending only as it is, or with a condition that passed. -/
theorem NodeChange.pending (h : NodeChange o s m id d rt rt') (hpending : rt'.state = .pending) :
    rt' = rt ∨ rt'.conditionPassed = true ∧ conditionGateReady s id = true := by
  cases h with
  | same => exact Or.inl rfl
  | move h | issue h => exact absurd hpending h.leaves_pending
  | complete => cases hpending
  | note h hstate =>
    obtain ⟨round, activity, hstate⟩ := hstate
    rw [h.1.state, hstate] at hpending
    cases hpending
  | passed _ hgate => exact Or.inr ⟨rfl, hgate⟩
  | contained h =>
    cases h with
    | drop | contain => cases hpending
    | escalate _ _ hstate =>
      rw [hstate] at hpending
      cases hpending
    | pass => exact Or.inl rfl

theorem ReducerStep.dataAvailable (hstep : ReducerStep o s m t) (hnodes : NodesMatch s)
    (h : stepIs s id stepDataAvailable = true) : stepIs t id stepDataAvailable = true := by
  obtain ⟨rt, hrt, hdata⟩ := (Option.any_eq_true ..).mp h
  obtain ⟨d, hd⟩ := hnodes.definition hrt
  obtain ⟨rt', hrt', hchange⟩ := hstep.nodeChange hd hrt
  have hterminal : rt.state.isTerminal = true := by
    by_contra hunsettled
    rw [stepDataAvailable_of_unsettled (by simpa using hunsettled)] at hdata
    cases hdata
  rw [stepIs, hrt', hchange.settled_fixed hterminal, Option.any_some]
  exact hdata

/-- What a condition that passed has read is there. -/
theorem Reachable.passed_dataAvailable (h : Reachable definition seed m s)
    (hd : definition.steps.get? id = some d) (hrt : s.steps.get? id = some rt)
    (hpending : rt.state = .pending) (hpassed : rt.conditionPassed = true)
    (hp : p ∈ d.prerequisites) (hdata : p.conditionData = true) :
    stepIs s p.producer stepDataAvailable = true := by
  refine h.invariant (I := fun s => ∀ id d rt, definition.steps.get? id = some d →
    s.steps.get? id = some rt → rt.state = .pending → rt.conditionPassed = true →
    ∀ p ∈ d.prerequisites, p.conditionData = true → stepIs s p.producer stepDataAvailable = true)
    ?_ ?_ id d rt hd hrt hpending hpassed p hp hdata
  · intro id d rt hd hrt _ hpassed
    cases (get?_initialState hd seed).symm.trans hrt
    cases hpassed
  · rintro o s n t ⟨m, hreach⟩ hs hstep id d rt' hd hrt' hpending hpassed p hp hdata
    refine hstep.dataAvailable hreach.nodesMatch ?_
    have hd' : s.definition.steps.get? id = some d := by rwa [hreach.definition_eq]
    obtain ⟨rt, hrt, hchange⟩ := hstep.nodeBefore hreach.nodesMatch hd' hrt'
    rcases hchange.pending hpending with heq | ⟨-, hgate⟩
    · rw [heq] at hpending hpassed
      exact hs id d rt hd hrt hpending hpassed p hp hdata
    · obtain ⟨d', -, hd'', -, -, -, -, -, -, hready, -⟩ := conditionGateReady_iff.mp hgate
      cases hd'.symm.trans hd''
      exact dataAvailable_of_conditionPrerequisiteReady (hready p hp) hdata

end Passed

section Deadlock

variable [ConditionOutput V]

/-- The ordinary phase rests with all steps settled or with a stranded step. -/
theorem OrdinaryRest.stranded (hrest : OrdinaryRest s) (h : Reachable definition seed m s)
    (hsound : definition.Sound) (hphase : ∃ gate, s.workflow = .executing gate) (hidle : s.Idle)
    (hunsettled : allSettled s .step = false) : ∃ id, Stranded s id := by
  have hdefinition := h.definition_eq
  rw [← hdefinition] at hsound
  obtain ⟨id, d, rt, hd, hrole, hrt, hpending, hproducers⟩ :=
    exists_first_pending h.nodesMatch hsound hidle hunsettled
  have hid : id ∈ s.definition.ordinaryIds := (hsound.coherent.mem_idsOf .step id).mpr
    ⟨d, hd, hrole⟩
  have hfacts := hsound.facts id d hd
  have hnone : ordinaryPendingDisposition s id = none :=
    List.findSome?_eq_none_iff.mp hrest.disposition id hid
  have hblockers : ordinaryUnsatisfiedPrerequisites s id d = [] := by
    by_contra hne
    obtain ⟨detail, hdetail⟩ := BlockedDetail.new_ok_of_blocks hfacts hne
      (fun p hp => ordinaryUnsatisfied_blocks hfacts hrole hp)
    simp [ordinaryPendingDisposition, hd, hrt, hpending, isPending, hne, hdetail,
      Except.toOption] at hnone
  have hunready : bodyReady s d = false := by
    have hallow := (h.phase (hdefinition ▸ hsound.coherent)).nodes id d rt hd hrt
    rw [hrole, hpending] at hallow
    simp only [bodyReady, hrole]
    rcases pending_step hallow with hworkflow | hworkflow
    · have hgate := phaseGateOpen_step.mpr hworkflow
      have hready := not_ready_of_selectedNodes (availableSlots_pos hsound.slots hidle)
        (hrest.selection hgate) hid hd
      simpa [nodeReady, ordinaryReady, stepIs_isPending.mpr ⟨rt, hrt, hpending⟩] using hready
    · simpa [ordinaryPendingDisposition, hd, hrt, hpending, isPending, hblockers,
        failureStopped_iff.mpr hworkflow] using hnone
  obtain ⟨gate, hworkflow⟩ := hphase
  unfold ordinaryUnsatisfiedPrerequisites at hblockers
  rw [hrt, Option.any_some] at hblockers
  dsimp only at hblockers
  split_ifs at hblockers with hopen
  · rw [Bool.and_eq_true, Bool.not_eq_true'] at hopen
    exact ⟨id, d, rt, hd, hrt, by rw [hrole, hworkflow]; rfl, hpending, hopen.1, hopen.2, hblockers,
      hproducers, hunready⟩
  · -- the condition has passed or there is none: the body is not blocked, so it is ready
    rw [List.flatMap_eq_nil_iff] at hblockers
    have hsatisfied : ∀ p ∈ d.prerequisites, ordinaryPrerequisiteSatisfied s p = true := by
      intro p hp
      refine satisfied_of_no_blockers hfacts hp (hproducers p hp) (hblockers p hp) ?_
      intro _ hdata
      have hpassed : rt.conditionPassed = true := by
        simpa [hsound.condition id d hd p hp hdata] using hopen
      exact h.passed_dataAvailable (hdefinition ▸ hd) hrt hpending hpassed hp hdata
    rw [bodyReady, hrole] at hunready
    simp only [List.all_eq_false] at hunready
    obtain ⟨p, hp, hunmet⟩ := hunready
    exact absurd (hsatisfied p hp) hunmet

/-- Finalization rests with all finalizers settled or with a stranded finalizer. -/
theorem FinalizerRest.stranded (hrest : FinalizerRest s) (h : Reachable definition seed m s)
    (hsound : definition.Sound) (hphase : s.Finalizing)
    (hselected : ∀ finalization, s.finalization = some finalization → ∀ id d rt,
      definition.steps.get? id = some d → d.role = .finalizer → s.steps.get? id = some rt →
      rt.state = .pending → finalization.trigger ∈ d.when) (hidle : s.Idle)
    (hunsettled : allSettled s .finalizer = false) : ∃ id, Stranded s id := by
  have hdefinition := h.definition_eq
  have hinv := h.phase hsound.coherent
  rw [← hdefinition] at hsound
  obtain ⟨id, d, rt, hd, hrole, hrt, hpending, hproducers⟩ :=
    exists_first_pending h.nodesMatch hsound hidle hunsettled
  have hid : id ∈ s.definition.finalizerIds :=
    (hsound.coherent.mem_idsOf .finalizer id).mpr ⟨d, hd, hrole⟩
  have hfacts := hsound.facts id d hd
  obtain ⟨trigger, gate, issue, hworkflow⟩ := hphase
  obtain ⟨finalization, hfinalization, htrigger, -⟩ := hinv.finalizing _ _ _ hworkflow
  have hwhen := hselected finalization hfinalization id d rt (hdefinition ▸ hd) hrole hrt hpending
  have hunforced : forceAbortedOrdinary s = false := by
    by_contra hforced
    exact hrest.forced (by simpa using hforced) id d rt hd hrole hrt hpending
  have hgate : phaseGateOpen s .finalizer = true := by
    have hallow := hinv.nodes id d rt hd hrt
    rw [hrole, hpending] at hallow
    rcases pending_finalizer hallow with ⟨gate', hexecuting⟩ | hopen | ⟨hforced, -⟩
    · rw [hexecuting] at hworkflow
      cases hworkflow
    · exact phaseGateOpen_finalizer.mpr hopen
    · rw [hunforced] at hforced
      cases hforced
  have hready : finalizerReady s id d = true :=
    finalizerReady_iff.mpr ⟨finalization, hfinalization, ⟨rt, hrt, hpending⟩, hwhen, hproducers⟩
  have hmissing : unavailableReferences s d ≠ [] := by
    have hunready := not_ready_of_selectedNodes (availableSlots_pos hsound.slots hidle)
      (hrest.selection hgate) hid hd
    simpa [nodeReady, hready] using hunready
  have hopen : d.condition.isSome = true ∧ rt.conditionPassed = false := by
    have hnone := List.findSome?_eq_none_iff.mp (hrest.inputUnavailable hunforced) id hid
    simpa [finalizerInputUnavailable, hd, hrt, hready, hmissing] using hnone
  have hblockers : conditionBlockers s d = [] := by
    by_contra hne
    obtain ⟨detail, hdetail⟩ := BlockedDetail.new_ok_of_blocks hfacts hne
      (fun p hp => conditionBlockers_blocks hfacts hp)
    have hnone := List.findSome?_eq_none_iff.mp (hrest.conditionBlock hunforced) id hid
    obtain ⟨trigger', issue', hopened⟩ := phaseGateOpen_finalizer.mp hgate
    have htrigger' : trigger' ∈ d.when := by
      rw [hworkflow] at hopened
      cases hopened
      exact htrigger ▸ hwhen
    have hphaseGate : conditionPhaseGateOpen s d = true := by
      simp [conditionPhaseGateOpen, hopened, hrole, htrigger']
    have hsome : d.condition ≠ none := Option.isSome_iff_ne_none.mp hopen.1
    simp [finalizerConditionBlock, hd, hrt, hsome, hopen.2, hpending, isPending,
      hphaseGate, hdetail, Except.toOption] at hnone
  exact ⟨id, d, rt, hd, hrt, by rw [hrole, hworkflow]; rfl, hpending, hopen.1, hopen.2, hblockers,
    hproducers, by simp [bodyReady, hrole, hmissing]⟩

/-- When all nodes have settled, every export is available or has a reason not to be. -/
theorem Reachable.exports_derivable (h : Reachable definition .empty m s)
    (hsound : definition.Sound)
    (hsettled : ∀ id d rt, definition.steps.get? id = some d → s.steps.get? id = some rt →
      rt.state.isTerminal = true) : deriveExports s ≠ none := by
  have hdefinition := h.definition_eq
  have hall : s.definition.exports.values.all (fun source => (deriveExport s source).isSome) =
      true := by
    rw [hdefinition, List.all_eq_true]
    intro source hmem
    obtain ⟨name, hsource⟩ := BTreeMap.mem_values_iff.mp hmem
    obtain ⟨q, hq, houtput⟩ := hsound.exports name source hsource
    obtain ⟨rt, hrt⟩ := h.nodesMatch.runtime (hdefinition.symm ▸ hq)
    have hterminal := hsettled _ q rt hq hrt
    rw [deriveExport, hrt, Option.bind_some]
    cases hstate : rt.state with
    | succeeded =>
      have hkeys := h.succeeded_outputs hq hrt hstate
      rw [← hkeys] at houtput
      obtain ⟨value, hvalue⟩ := BTreeMap.mem_keys_iff.mp houtput
      simp [exportValue, hvalue]
    | inherited =>
      have hkind := h.not_inherited hrt
      rw [hstate] at hkind
      exact absurd rfl hkind
    | notRun detail =>
      obtain ⟨code⟩ := detail
      cases code <;> rfl
    | failed | blocked | skipped | cancelled => rfl
    | pending | starting | running | capturingOutputs | recovering | cancelling =>
      rw [hstate] at hterminal
      cases hterminal
  rw [deriveExports, if_pos hall]
  simp

/-- At rest a run has finished, is active or strands a node. -/
theorem LastPass.active_or_stranded (hpass : LastPass definition .empty r s)
    (h : Reachable definition .empty m s) (hsound : definition.Sound) (hidle : s.Idle)
    (hunfinished : s.workflow.isTerminal = false) : ∃ id, Stranded s id := by
  have hcoherent := h.coherent hsound.coherent
  cases hworkflow : s.workflow with
  | executing gate =>
    have hrest := hpass.ordinaryRest hsound.coherent ⟨gate, hworkflow⟩
    cases hsettled : allSettled s .step with
    | false => exact hrest.stranded h hsound ⟨gate, hworkflow⟩ hidle hsettled
    | true =>
      obtain ⟨hnone, hexports⟩ := hrest.completion hsettled
      refine absurd hexports (h.exports_derivable hsound (fun id d rt hd hrt => ?_))
      rw [← h.definition_eq] at hd
      -- without finalizers every node is an ordinary step
      have hrole : d.role = .step := by
        cases hrole : d.role with
        | step => rfl
        | finalizer =>
          have hid := (hcoherent.mem_idsOf .finalizer id).mpr ⟨d, hd, hrole⟩
          rw [idsOf, hnone] at hid
          cases hid
      obtain ⟨rt', hrt', hterminal⟩ := (allSettled_iff hcoherent).mp hsettled id d hd hrole
      cases hrt.symm.trans hrt'
      exact hterminal
  | finalizing trigger gate issue =>
    have hphase : s.Finalizing :=
      ⟨trigger, gate, issue, hworkflow⟩
    have hrest := hpass.finalizerRest hsound.coherent hsound.facts hphase
    cases hsettled : allSettled s .finalizer with
    | false =>
      exact hrest.stranded h hsound hphase
        (fun finalization hfinalization id d rt hd hrole hrt hpending =>
          hpass.selected hsound.coherent hfinalization hd hrole hrt hpending) hidle hsettled
    | true =>
      refine absurd (hrest.completion hsettled) (h.exports_derivable hsound ?_)
      intro id d rt hd hrt
      rw [← h.definition_eq] at hd
      cases hrole : d.role with
      | step => exact (h.phase hsound.coherent).step_settled hphase hd hrt hrole
      | finalizer =>
        obtain ⟨rt', hrt', hterminal⟩ :=
          (allSettled_iff hcoherent).mp hsettled id d hd hrole
        cases hrt.symm.trans hrt'
        exact hterminal
  | succeeded | failed | cancelled =>
    rw [hworkflow] at hunfinished
    cases hunfinished

end Deadlock

/-! ## Conditions that cover the body -/

/-- What the body of a conditional node waits for keeps the condition from being evaluated.  A
step covers its data by a condition that reads the same producer, or by control over a producer
that is required and always run; a finalizer covers it by a condition that reads the same
producer. -/
def bodyCovered (definition : RuntimeDefinition) (d : RuntimeStep) : Bool :=
  d.condition.isNone || match d.role with
    | .step => d.prerequisites.all (fun p => !p.data || p.conditionData || p.control &&
        (definition.steps.get? p.producer).any (fun q =>
          q.failurePolicy = .required && q.condition.isNone))
    | .finalizer => d.evidencePrerequisites.all (fun
        | .body reference => d.conditionValues.values.any (fun
          | .output source => outputReferenceProducer reference = some source.node.id
          | .input _ | .finalizationContext => false)
        | .control _ | .condition _ => true)

/-- A node is pending and its condition has not passed. -/
def conditionOpen (s : RuntimeState C V D) (id : String) : Bool :=
  (s.steps.get? id).any (fun rt => rt.state.isPending && !rt.conditionPassed)

section Unblocked

variable (hfacts : NodeFacts definition d) (hnone : conditionBlockers s d = [])
include hfacts hnone

/-- A settled producer that blocks nothing of a condition has the data that the condition reads. -/
theorem dataAvailable_of_no_blockers (hp : p ∈ d.prerequisites) (hcondition : p.conditionData = true)
    (hterminal : stepIs s p.producer isTerminal = true) :
    stepIs s p.producer stepDataAvailable = true := by
  obtain ⟨rt, hrt, hsettled⟩ := (Option.any_eq_true ..).mp hterminal
  obtain ⟨reference, hevidence, hproducer⟩ := hfacts.condition_evidence p hp hcondition
  rw [stepIs, hrt, Option.any_some]
  by_contra hunavailable
  have hmem : .condition reference ∈ conditionBlockers s d :=
    mem_conditionBlockers.mpr (Or.inl ⟨p, hp, mem_conditionPrerequisiteBlockers.mpr
      ⟨rt, hrt, hsettled, Or.inr ⟨hcondition, by simpa using hunavailable,
        mem_producerDescriptors.mpr ⟨hevidence, rfl, hproducer⟩⟩⟩⟩)
  rw [hnone] at hmem
  cases hmem

theorem controlSatisfied_of_no_blockers (hrole : d.role = .step) (hp : p ∈ d.prerequisites)
    (hcontrol : p.control = true) (hterminal : stepIs s p.producer isTerminal = true) :
    ordinaryControlSatisfied s p = true := by
  obtain ⟨rt, hrt, hsettled⟩ := (Option.any_eq_true ..).mp hterminal
  by_contra hunmet
  have hmem : .control p.producer ∈ conditionBlockers s d :=
    mem_conditionBlockers.mpr (Or.inl ⟨p, hp, mem_conditionPrerequisiteBlockers.mpr
      ⟨rt, hrt, hsettled, Or.inl ⟨hrole, hcontrol, by simpa using hunmet,
        (hfacts.producer p hp).1, rfl⟩⟩⟩)
  rw [hnone] at hmem
  cases hmem

end Unblocked

section Covered

variable [ConditionOutput V] {t : RuntimeState C V D}

/-- A condition that is open was open before. -/
theorem ReducerStep.conditionOpen (hstep : ReducerStep o s m t) (hnodes : NodesMatch s)
    (h : conditionOpen t id = true) : conditionOpen s id = true := by
  obtain ⟨rt', hrt', hopen⟩ := (Option.any_eq_true ..).mp h
  obtain ⟨d, hd⟩ := (hstep.nodesMatch hnodes).definition hrt'
  rw [hstep.definition] at hd
  obtain ⟨rt, hrt, hchange⟩ := hstep.nodeBefore hnodes hd hrt'
  simp only [Bool.and_eq_true, Bool.not_eq_true', isPending_iff] at hopen
  rcases hchange.pending hopen.1 with rfl | ⟨hpassed, -⟩
  · simp [Workflow.conditionOpen, hrt, hopen, isPending]
  · rw [hopen.2] at hpassed
    cases hpassed

theorem Run.conditionOpen (hrun : Run s m t) (hnodes : NodesMatch s)
    (h : conditionOpen t id = true) : conditionOpen s id = true := by
  refine (hrun.invariant (I := fun t => NodesMatch t ∧
    (Workflow.conditionOpen t id = true → Workflow.conditionOpen s id = true)) ?_
    ⟨hnodes, fun h => h⟩).2 h
  rintro s' n t ⟨hnodes', hopen⟩ ⟨o, hstep⟩
  exact ⟨hstep.nodesMatch hnodes', fun h => hopen (hstep.conditionOpen hnodes' h)⟩

/-- Only a condition skips a node. -/
theorem Reachable.skipped_conditional (h : Reachable definition seed m s)
    (hd : definition.steps.get? id = some d) (hrt : s.steps.get? id = some rt)
    (hskipped : rt.state.kind = .skipped) : d.condition.isSome = true := by
  refine h.nodeInvariant (P := fun _ d rt => rt.state.kind = .skipped → d.condition.isSome = true)
    ?_ ?_ hd hrt hskipped
  · intro id d _ hskipped
    unfold initialStep at hskipped
    dsimp only at hskipped
    split at hskipped <;> cases hskipped
  · intro o s n id d rt rt' _ _ hrt hchange hskipped
    cases hchange with
    | same | passed => exact hrt hskipped
    | move h =>
      cases h with
      | skip _ _ _ _ _ hcondition => simp [hcondition]
      | _ => cases hskipped
    | complete => cases hskipped
    | issue h => cases h <;> cases hskipped
    | note h => exact hrt (h.1.state ▸ hskipped)
    | contained h =>
      cases h with
      | drop | contain => cases hskipped
      | escalate | pass => exact hrt hskipped

variable (hfacts : NodeFacts definition d) (hnone : conditionBlockers s d = [])
include hfacts hnone

/-- A covered step that nothing blocks has all that its body waits for. -/
theorem bodyReady_of_covered_step (h : Reachable definition .empty m s) (hrole : d.role = .step)
    (hconditional : d.condition.isSome = true) (hcovered : bodyCovered definition d = true)
    (hterminal : ∀ p ∈ d.prerequisites, stepIs s p.producer isTerminal = true) :
    bodyReady s d = true := by
  simp only [bodyReady, hrole, List.all_eq_true]
  intro p hp
  obtain ⟨rt, hrt, hsettled⟩ := (Option.any_eq_true ..).mp (hterminal p hp)
  have hcontrol : p.control = true → ordinaryControlSatisfied s p = true := fun hcontrol =>
    controlSatisfied_of_no_blockers hfacts hnone hrole hp hcontrol (hterminal p hp)
  have hdata : p.data = true → stepDataAvailable rt.state = true := by
    intro hdata
    simp only [bodyCovered, Option.isNone_eq_false_iff.mpr hconditional, hrole, Bool.false_or,
      List.all_eq_true, Bool.or_eq_true, Bool.and_eq_true, Bool.not_eq_true'] at hcovered
    rcases hcovered p hp with (hnot | hcondition) | ⟨hp', hproducer⟩
    · rw [hdata] at hnot
      cases hnot
    · have havailable := dataAvailable_of_no_blockers hfacts hnone hp hcondition (hterminal p hp)
      simpa [stepIs, hrt] using havailable
    · obtain ⟨q, hq, hrequired⟩ := (Option.any_eq_true ..).mp hproducer
      simp only [Bool.and_eq_true, decide_eq_true_eq] at hrequired
      have hsatisfied := hcontrol hp'
      rw [ordinaryControlSatisfied, hrt, h.definition_eq, hq] at hsatisfied
      -- a required producer that always runs lets the step go on only when it succeeded
      have hinherited := h.not_inherited hrt
      have hskipped := h.skipped_conditional hq hrt
      cases hstate : rt.state <;>
        simp_all [stepDataAvailable, StepState.kind, StepState.isTerminal]
  exact satisfied_of_settled hrt hsettled hcontrol hdata

/-- An output that a condition reads in finalization is there when nothing blocks the condition. -/
theorem sourceAvailable_of_no_blockers (h : Reachable definition seed m s)
    (hcoherent : definition.Coherent) (hphase : s.Finalizing)
    (hterminal : ∀ p ∈ d.prerequisites, stepIs s p.producer isTerminal = true)
    {canonical : String} {source : ResolvedOutputSource}
    (hrole : d.role = .finalizer)
    (hsource : d.conditionValues.get? canonical = some (.output source)) :
    stepIs s source.node.id stepDataAvailable = true := by
  have hread : OutputFacts definition d .condition ResolvedDirectPrerequisite.conditionData
    source := hfacts.conditionValues canonical _ hsource
  obtain ⟨q, hq, hqrole, -⟩ := hread.producer
  have hd : s.definition.steps.get? source.node.id = some q := by rw [h.definition_eq]; exact hq.node
  obtain ⟨rt, hrt⟩ := h.nodesMatch.runtime hd
  have hsettled : rt.state.isTerminal = true := by
    cases hkind : source.node.role with
    | step => exact (h.phase hcoherent).step_settled hphase hd hrt (hqrole.trans hkind)
    | finalizer =>
      obtain ⟨p, hp, hproducer, -⟩ := hread.waits (hkind.trans hrole.symm)
      have hdone := hterminal p hp
      rwa [hproducer, stepIs, hrt, Option.any_some] at hdone
  by_contra hunavailable
  have hmem : .condition source.reference ∈ conditionBlockers s d :=
    mem_conditionBlockers.mpr (Or.inr ⟨canonical, _, hsource, mem_conditionSourceBlockers.mpr
      ⟨source, rfl, by simpa [settledWithoutData, stepIs, hrt, hsettled] using hunavailable,
        (hfacts.value_evidence _ hread.evidence (by simp [Prerequisite.kind])).1, rfl⟩⟩)
  rw [hnone] at hmem
  cases hmem

/-- A covered finalizer that nothing blocks has all that its body reads. -/
theorem bodyReady_of_covered_finalizer (h : Reachable definition .empty m s)
    (hcoherent : definition.Coherent) (hphase : s.Finalizing) (hrole : d.role = .finalizer)
    (hconditional : d.condition.isSome = true) (hcovered : bodyCovered definition d = true)
    (hterminal : ∀ p ∈ d.prerequisites, stepIs s p.producer isTerminal = true) :
    bodyReady s d = true := by
  simp only [bodyReady, hrole, List.isEmpty_iff, unavailableReferences,
    List.filterMap_eq_nil_iff]
  simp only [bodyCovered, Option.isNone_eq_false_iff.mpr hconditional, hrole, Bool.false_or,
    List.all_eq_true] at hcovered
  intro descriptor hmem
  cases descriptor with
  | control | condition => rfl
  | body reference =>
    have hread := hcovered _ hmem
    dsimp only at hread
    obtain ⟨source, hvalue, hproducer⟩ := List.any_eq_true.mp hread
    obtain ⟨canonical, hsource⟩ := BTreeMap.mem_values_iff.mp hvalue
    cases source with
    | input | finalizationContext => cases hproducer
    | output source =>
      have houtput := sourceAvailable_of_no_blockers hfacts hnone h hcoherent hphase hterminal
        hrole hsource
      simp [of_decide_eq_true hproducer, houtput]

end Covered

variable {workflow : ValidatedWorkflow}

/-- The definition of an accepted workflow is sound. -/
theorem fromAdmitted_sound {decoded : DecodedDocument}
    (hvalid : validate decoded.document = .ok workflow) (inputs : BTreeMap String ResolvedInput)
    {parallel : Nat} (hparallel : 1 ≤ parallel) (transitions : Nat) :
    (fromAdmitted workflow inputs parallel transitions).Sound where
  coherent := fromAdmitted_coherent hvalid ..
  facts := validate_nodeFacts hvalid inputs parallel transitions
  ranked := (validate_accepted hvalid).exists_rank
  condition _ _ hd _ hp hdata := (validate_accepted hvalid).condition_of_conditionData hd hp hdata
  exports name source hsource := by
    simp only [fromAdmitted, fromWorkflow,
      BTreeMap.get?_mapWithKey, Option.map_eq_some_iff] at hsource
    obtain ⟨source, hsource, rfl⟩ := hsource
    obtain ⟨q, hq, houtput, -⟩ := (validate_accepted hvalid).export_source hsource
    exact ⟨q, hq, houtput⟩
  slots := hparallel

variable [ConditionOutput V] [ProvisionalStepResources O] [NodeFailureSource C]

/-- A run has finished or has an active node, when the condition of every node that is still open
after the start covers the body. -/
theorem progress_of_covered {decoded : DecodedDocument} {counts : CapacityCounts}
    {capacity : ComputedWorkflowCapacity}
    {transitions : Nat}
    (hvalid : validate decoded.document = .ok workflow)
    (hcounts : capacityCounts workflow = .ok counts)
    (hcapacity : calculateCapacity counts = .ok capacity)
    (inputs : BTreeMap String ResolvedInput)
    (parallel : Nat)
    (hparallel : 1 ≤ parallel)
    (hmaximum : transitions < 2 ^ 64)
    (initial : Option (InitialCancellation D))
    (occurrences : List (Occurrence O C V D))
    (hceiling : capacity.generalMaximumTransitions ≤ transitions ∨
      capacity.cloudMaximumTransitions ≤ transitions ∧
        RequestsFindRoom ⟨fromAdmitted workflow inputs parallel transitions, initial⟩ .empty
          occurrences)
    (hcovered : ∀ id d, (fromAdmitted workflow inputs parallel transitions).steps.get? id =
        some d →
      conditionOpen (admittedRun workflow inputs parallel transitions initial
        ([] : List (Occurrence O C V D))).state id = true →
      bodyCovered (fromAdmitted workflow inputs parallel transitions) d = true) :
    let run := admittedRun workflow inputs parallel transitions initial occurrences
    run.state.workflow.isTerminal = true ∨
      ∃ id rt, run.state.steps.get? id = some rt ∧ rt.state.isActive = true := by
  intro run
  have hsound := fromAdmitted_sound hvalid inputs hparallel transitions
  have hreach : Reachable _ .empty run.emission run.state :=
    admittedRun_reachable initial hsound.coherent occurrences
  obtain ⟨r, hpass⟩ : AtRest O (fromAdmitted workflow inputs parallel transitions) .empty
      run.state := by
    refine ledger_atRest hsound.coherent (fun id d hd policy hmem => ?_) (fun m s h => ?_)
      occurrences (admitted_within hvalid hcounts hcapacity hmaximum hceiling)
    · exact (validate_accepted hvalid).retries_le decoded.structural hd hmem
    · exact (h.length_events_lt hvalid decoded.structural).trans (by decide)
  by_contra hstuck
  simp only [not_or, not_exists, not_and, Bool.not_eq_true] at hstuck
  obtain ⟨id, d, rt, hd, hrt, hphase, hpending, hconditional, hopen, hblockers, hterminal,
    hunready⟩ := hpass.active_or_stranded hreach hsound hstuck.2 hstuck.1
  rw [hreach.definition_eq] at hd
  have hfacts := hsound.facts id d hd
  have hcover := hcovered id d hd (by
    obtain ⟨n, hrun, -⟩ := admittedRun_append initial hsound.coherent [] occurrences
    refine Run.conditionOpen hrun
      (admittedRun_reachable initial hsound.coherent []).nodesMatch ?_
    rw [List.nil_append]
    simp [conditionOpen, show (admittedRun workflow inputs parallel transitions initial
      occurrences).state.steps.get? id = some rt from hrt, hpending, hopen, isPending])
  have hready : bodyReady run.state d = true := by
    cases hrole : d.role with
    | step =>
      exact bodyReady_of_covered_step hfacts hblockers hreach hrole hconditional hcover hterminal
    | finalizer =>
      refine bodyReady_of_covered_finalizer hfacts hblockers hreach hsound.coherent ?_ hrole
        hconditional hcover hterminal
      rw [hrole] at hphase
      cases hworkflow : run.state.workflow with
      | finalizing trigger gate issue => exact ⟨trigger, gate, issue, hworkflow⟩
      | _ =>
        rw [hworkflow] at hphase
        cases hphase
  rw [hready] at hunready
  cases hunready

/-- The build fails, and finalization begins. -/
def reviewFailed : List (Occurrence Unit FailureDetail String Nat) :=
  [.stepStarted "build" ⟨3⟩, .stepExecutionFailed "build" ⟨3⟩ (.ofCode .execution .commandExit)]

theorem reviewDefinition_covered :
    ∀ d ∈ reviewDefinition.steps.values, bodyCovered reviewDefinition d = true := by
  decide

theorem reviewDecoded_counts :
    capacityCounts (acceptedWorkflow reviewDecoded.document) = .ok ⟨4, 4, 0, 0⟩ := rfl

theorem reviewDecoded_capacity : ∃ capacity, calculateCapacity ⟨4, 4, 0, 0⟩ = .ok capacity ∧
    capacity.generalMaximumTransitions = 46 := ⟨_, rfl, rfl⟩

/-- The condition of the deployment reads the log that its body reads: the failed build blocks it,
and the finalizers run. -/
theorem reviewFailed_progress :
    let run := admittedRun (acceptedWorkflow reviewDecoded.document)
      (.ofList [("mode", .text "debug")]) 2 64 none reviewFailed
    conditionOpen (admittedRun (acceptedWorkflow reviewDecoded.document)
        (.ofList [("mode", .text "debug")]) 2 64 none
        ([] : List (Occurrence Unit FailureDetail String Nat))).state "deploy" = true ∧
      ∃ id rt, run.state.steps.get? id = some rt ∧ rt.state.isActive = true := by
  refine ⟨by decide, ?_⟩
  obtain ⟨capacity, hcapacity, hgeneral⟩ := reviewDecoded_capacity
  have hprogress := progress_of_covered reviewDecoded_accepted reviewDecoded_counts hcapacity
    (.ofList [("mode", .text "debug")]) 2 (by decide) (by decide : 64 < 2 ^ 64) none reviewFailed
    (Or.inl (by rw [hgeneral]; decide))
    (fun id d hd _ => reviewDefinition_covered d (BTreeMap.mem_values_iff.mpr ⟨id, hd⟩))
  rcases hprogress with hterminal | hactive
  · exact absurd hterminal (by decide)
  · exact hactive

/-- A deployment of a build log, to be made when the build succeeded. -/
def deployDecoded : DecodedDocument where
  document := commandDocument []
    [("build", ⟨textCommand .required none [] ["log"], [], none⟩),
      ("deploy", ⟨textCommand .required (some (.disposition "build" .succeeded))
        [("log", .output ⟨"build", "log"⟩)] [], [], none⟩)] [] []
  structural := by decide

theorem deployDecoded_accepted :
    validate deployDecoded.document = .ok (acceptedWorkflow deployDecoded.document) := rfl

/-- The build fails. -/
def strandedDeploy : Reduction Unit FailureDetail String Nat :=
  admittedRun (acceptedWorkflow deployDecoded.document) .empty 1 16 none
    [.stepStarted "build" ⟨1⟩, .stepExecutionFailed "build" ⟨1⟩ (.ofCode .execution .commandExit)]

/-- The failed build closes the gate before the condition of the deployment is evaluated, and the
missing log keeps the deployment from being settled: nothing is active, and only a cancellation or
an abort ends the run. -/
theorem strandedDeploy_deadlock :
    validate deployDecoded.document = .ok (acceptedWorkflow deployDecoded.document) ∧
      strandedDeploy.state.transitionCapacityExceeded = false ∧
      strandedDeploy.state.workflow.isTerminal = false ∧
      ∀ id rt, strandedDeploy.state.steps.get? id = some rt → rt.state.isActive = false := by
  have hidle : ∀ rt ∈ strandedDeploy.state.steps.values, rt.state.isActive = false := by decide
  have hwithin : strandedDeploy.state.transitionCapacityExceeded = false := by decide
  have hunfinished : strandedDeploy.state.workflow.isTerminal = false := by decide
  exact ⟨deployDecoded_accepted, hwithin, hunfinished,
    fun id rt hrt => hidle rt (BTreeMap.mem_values_iff.mpr ⟨id, hrt⟩)⟩

/-! ## Every run of an accepted workflow -/

/-- A run of an accepted workflow, which may inherit nodes of an earlier run. -/
structure AcceptedRun (O C V D : Type) where
  decoded : DecodedDocument
  workflow : ValidatedWorkflow
  accepted : validate decoded.document = .ok workflow
  inputs : BTreeMap String ResolvedInput
  parallel : Nat
  transitions : Nat
  initial : Option (InitialCancellation D)
  seed : ExecutionSeed V
  occurrences : List (Occurrence O C V D)

namespace AcceptedRun

variable (run : AcceptedRun O C V D)

def runtime : RuntimeDefinition :=
  fromAdmitted run.workflow run.inputs run.parallel run.transitions

def result : Reduction O C V D :=
  ledger ⟨run.runtime, run.initial⟩ run.seed run.occurrences

theorem reachable : Reachable run.runtime run.seed run.result.emission run.result.state :=
  ledger_reachable ⟨_, run.initial⟩ run.seed (fromAdmitted_coherent run.accepted ..) run.occurrences

end AcceptedRun

/-- The runs of the reviewed deployment in debug mode. -/
def reviewRun (occurrences : List (Occurrence Unit FailureDetail String Nat)) :
    AcceptedRun Unit FailureDetail String Nat where
  decoded := reviewDecoded
  workflow := acceptedWorkflow reviewDecoded.document
  accepted := reviewDecoded_accepted
  inputs := .ofList [("mode", .text "debug")]
  parallel := 2
  transitions := 64
  initial := none
  seed := .empty
  occurrences := occurrences

/-- The build and then the finalizers are cancelled, and what still runs is aborted. -/
def reviewAborted : List (Occurrence Unit FailureDetail String Nat) :=
  [.cancellationOperationRequested 1 .userRequest 0, .stepQuiesced "build" ⟨5⟩,
    .cancellationOperationRequested 2 .userRequest 0, .forceAbortRequested 3 0]

/-- Each kind of cancellation is accepted at most once. -/
theorem AcceptedRun.cancellations_accepted_once (run : AcceptedRun O C V D) :
    AcceptedOnce run.result.events run.result.state :=
  run.reachable.acceptedOnce

/-- All three kinds are accepted once; the second operation finds the finalization. -/
theorem reviewAborted_accepted_once :
    let run := (reviewRun reviewAborted).result
    AcceptedOnce run.events run.state ∧ run.events.countP isOrdinaryAcceptance = 1 ∧
      run.events.countP isFinalizationAcceptance = 1 ∧ run.events.countP isForceAcceptance = 1 :=
  ⟨(reviewRun reviewAborted).cancellations_accepted_once, by decide, by decide, by decide⟩

/-- Within the ceiling no ready node is left waiting while a slot is free. -/
theorem AcceptedRun.ready_nodes_started (run : AcceptedRun O C V D) :
    run.result.state.transitionCapacityExceeded = true ∨
    activeCount run.result.state = run.parallel ∨ ∀ role id d,
      phaseGateOpen run.result.state role = true → run.runtime.steps.get? id = some d →
      d.role = role → nodeReady run.result.state role id d = false := by
  cases hwithin : run.result.state.transitionCapacityExceeded with
  | true => exact Or.inl rfl
  | false =>
    have hcoherent : run.runtime.Coherent := fromAdmitted_coherent run.accepted ..
    obtain ⟨r, hpass⟩ : AtRest O run.runtime run.seed run.result.state :=
      ledger_atRest hcoherent (fun _ _ hd _ hmem => (validate_accepted run.accepted).retries_le
        run.decoded.structural hd hmem) (fun _ _ h =>
        (h.length_events_lt run.accepted run.decoded.structural).trans (by decide)) _ hwithin
    have hdefinition := run.reachable.definition_eq
    rcases Nat.eq_zero_or_pos (availableSlots run.result.state) with hfull | hslots
    · rw [availableSlots, hdefinition] at hfull
      exact Or.inr (Or.inl (Nat.le_antisymm run.reachable.slots (Nat.sub_eq_zero_iff_le.mp hfull)))
    · refine Or.inr (Or.inr (fun role id d hgate hd hrole => ?_))
      rw [← hdefinition] at hd
      refine not_ready_of_selectedNodes hslots ?_
        (((run.reachable.coherent hcoherent).mem_idsOf role id).mpr ⟨d, hd, hrole⟩) hd
      cases role with
      | step =>
        exact (hpass.ordinaryRest hcoherent ⟨_, phaseGateOpen_step.mp hgate⟩).selection hgate
      | finalizer =>
        obtain ⟨_, _, hopen⟩ := phaseGateOpen_finalizer.mp hgate
        exact (hpass.finalizerRest hcoherent (validate_nodeFacts run.accepted _ _ _)
          ⟨_, _, _, hopen⟩).selection hgate

/-- In both phases a slot is free, and the node that waits for another one is not ready. -/
theorem reviewRun_waiting :
    (activeCount (reviewRun []).result.state = 1 ∧ ∃ d, reviewDefinition.steps.get? "deploy" =
      some d ∧ nodeReady (reviewRun []).result.state .step "deploy" d = false) ∧
    activeCount (reviewRun reviewFailed).result.state = 1 ∧ ∃ d,
      reviewDefinition.steps.get? "archive" = some d ∧
      nodeReady (reviewRun reviewFailed).result.state .finalizer "archive" d = false := by
  refine ⟨⟨by decide, _, rfl, ?_⟩, by decide, _, rfl, ?_⟩
  · rcases (reviewRun []).ready_nodes_started with hexceeded | hfull | hwaiting
    · exact absurd hexceeded (by decide)
    · exact absurd hfull (by decide)
    · exact hwaiting .step "deploy" _ (by decide) rfl rfl
  · rcases (reviewRun reviewFailed).ready_nodes_started with hexceeded | hfull | hwaiting
    · exact absurd hexceeded (by decide)
    · exact absurd hfull (by decide)
    · exact hwaiting .finalizer "archive" _ (by decide) rfl rfl

end ScherzoCloud.Workflow
