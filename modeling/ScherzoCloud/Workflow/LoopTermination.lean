import ScherzoCloud.Workflow.Blockers
import ScherzoCloud.Workflow.Stabilization

/-!
# The loops of a stabilization

Every loop of a stabilization looks for the first node that it can deal with and
starts again.  A node that was dealt with does not come back: it is not pending
any more, or its condition has passed.  This holds because the evidence of a
node that lacks an input is never refused; if it were, the loop over missing
inputs would find the same node for ever.
-/

namespace ScherzoCloud.Workflow

open Collections
open RuntimeDefinition (fromAdmitted)

variable {O C V D : Type} {o : Option (Occurrence O C V D)} {m : Emission O C V D}
  {s t : RuntimeState C V D} {id : String} {d : RuntimeStep} {rt rt' : StepRuntimeState C V}
  {r r' : Reduction O C V D} {role : WorkflowNodeRole}

theorem issueResult_get? (hrt : r.state.steps.get? id = some rt) (issue : PrimaryIssue)
    (rt' : StepRuntimeState C V) :
    (issueResult r id d rt rt' issue).state.steps.get? id = some rt' := by
  unfold issueResult
  split
  · exact RuntimeState.get?_commit_self hrt _
  · rw [Reduction.emit_state, RuntimeState.advance_steps]
    exact RuntimeState.get?_commit_self hrt _

section Waiting

/-- The nodes that a loop has not dealt with: they are pending, and where the loop evaluates
conditions theirs has not passed. -/
def waiting (passed : Bool) (s : RuntimeState C V D) : Finset String :=
  s.steps.keys.toFinset.filter (fun id => (s.steps.get? id).any (fun rt =>
    rt.state.isPending && (passed || !rt.conditionPassed)))

theorem mem_waiting {passed : Bool} : id ∈ waiting passed s ↔
    ∃ rt, s.steps.get? id = some rt ∧ rt.state = .pending ∧
      (passed = true ∨ rt.conditionPassed = false) := by
  simp only [waiting, Finset.mem_filter, List.mem_toFinset, Option.any_eq_true, Bool.and_eq_true,
    isPending_iff, Bool.or_eq_true, Bool.not_eq_true']
  refine ⟨And.right, fun h => ⟨?_, h⟩⟩
  obtain ⟨rt, hrt, -⟩ := h
  exact BTreeMap.mem_keys_iff.mpr ⟨rt, hrt⟩

theorem card_waiting_lt (hnodes : NodesMatch r.state) (passed : Bool) :
    (waiting passed r.state).card < loopBound r := by
  have hkeys : r.state.steps.keys = r.state.definition.steps.keys := hnodes
  refine Nat.lt_succ_of_le ((Finset.card_filter_le _ _).trans ((List.toFinset_card_le _).trans ?_))
  rw [hkeys, BTreeMap.keys, List.length_map, BTreeMap.size]

variable [ConditionOutput V]

/-- A step of a stabilization makes no node wait. -/
theorem StabilizeStep.waiting_subset (h : StabilizeStep o s m t) (passed : Bool) :
    waiting passed t ⊆ waiting passed s := by
  intro j hj
  obtain ⟨rt', hrt', hpending', hpassed⟩ := mem_waiting.mp hj
  rw [mem_waiting]
  have hcommit : ∀ {id rt₁}, rt₁.state ≠ .pending → (s.commit id rt₁).steps.get? j = some rt' →
      s.steps.get? j = some rt' := by
    intro id rt₁ hleft hget
    rw [RuntimeState.commit_get?] at hget
    split_ifs at hget
    · obtain ⟨-, -, rfl⟩ := Option.map_eq_some_iff.mp hget
      exact absurd hpending' hleft
    · exact hget
  cases h with
  | node _ _ _ hmove | issue _ _ _ hmove =>
    exact ⟨rt', hcommit hmove.leaves_pending hrt', hpending', hpassed⟩
  | primaryIssue _ _ _ hmove =>
    rw [RuntimeState.advance_steps] at hrt'
    exact ⟨rt', hcommit hmove.leaves_pending hrt', hpending', hpassed⟩
  | @passed _ _ rt _ _ hrt =>
    rw [RuntimeState.setNode_get?] at hrt'
    split_ifs at hrt' with heq
    · obtain ⟨-, -, rfl⟩ := Option.map_eq_some_iff.mp hrt'
      exact ⟨rt, heq ▸ hrt, hpending', hpassed.imp_right nofun⟩
    · exact ⟨rt', hrt', hpending', hpassed⟩
  | enter | finish =>
    simp only [RuntimeState.advance_steps] at hrt'
    exact ⟨rt', hrt', hpending', hpassed⟩

/-- A round that deals with a waiting node leaves fewer of them. -/
theorem Stabilizes.waiting_ssubset {passed : Bool} (h : Stabilizes o r r')
    (hid : id ∈ waiting passed r.state) (hid' : id ∉ waiting passed r'.state) :
    waiting passed r'.state ⊂ waiting passed r.state := by
  refine (Finset.ssubset_iff_of_subset ?_).mpr ⟨id, hid, hid'⟩
  obtain ⟨m, t, hrun, rfl⟩ := h
  clear hid hid'
  induction hrun with
  | refl => exact Finset.Subset.refl _
  | tail _ hstep ih => exact (hstep.waiting_subset passed).trans ih

/-- A round that settles a pending node leaves fewer of them. -/
theorem Stabilizes.settles (h : Stabilizes o r r') (hrt : r.state.steps.get? id = some rt)
    (hpending : rt.state = .pending) (hrt' : r'.state.steps.get? id = some rt')
    (hsettled : rt'.state ≠ .pending) : waiting true r'.state ⊂ waiting true r.state := by
  refine h.waiting_ssubset (mem_waiting.mpr ⟨rt, hrt, hpending, Or.inl rfl⟩) (fun hmem => ?_)
  obtain ⟨_, hget, hpending', -⟩ := mem_waiting.mp hmem
  cases hrt'.symm.trans hget
  exact hsettled hpending'

theorem settleBlocked_settles {detail : BlockedDetail}
    (h : Stabilizes o r (settleBlocked r id detail))
    (hd : r.state.definition.steps.get? id = some d) (hrt : r.state.steps.get? id = some rt)
    (hpending : rt.state = .pending) :
    waiting true (settleBlocked r id detail).state ⊂ waiting true r.state := by
  have hblocked := issueResult_get? (d := d) hrt (.ofBlocked ⟨id, d.role⟩ detail)
    (rt.dropped (.blocked detail))
  rw [← settleBlocked_eq hd hrt] at hblocked
  exact h.settles hrt hpending hblocked nofun

end Waiting

section Rounds

variable [ConditionOutput V]

theorem propagateOrdinaryStep_settles (h : propagateOrdinaryStep r = some r') :
    waiting true r'.state ⊂ waiting true r.state := by
  have hstable := propagateOrdinaryStep_stabilizes (o := none) h
  unfold propagateOrdinaryStep at h
  split at h
  · cases h
  · rename_i hnext
    cases h
    obtain ⟨-, d, rt, hd, hrt, hpending, -⟩ :=
      ordinaryPendingDisposition_spec (nextOrdinaryPendingDisposition_spec hnext).2
    exact settleBlocked_settles hstable hd hrt hpending
  · rename_i id hnext
    cases h
    obtain ⟨-, d, rt, -, hrt, hpending, -⟩ :=
      ordinaryPendingDisposition_spec (nextOrdinaryPendingDisposition_spec hnext).2
    have hsettled := transitionStep_get? r id id (.notRun ⟨.failureStop⟩)
    rw [if_pos rfl, hrt, Option.map_some] at hsettled
    exact hstable.settles hrt hpending hsettled nofun

theorem finalizerConditionBlockStep_settles (h : finalizerConditionBlockStep r = some r') :
    waiting true r'.state ⊂ waiting true r.state := by
  have hstable := finalizerConditionBlockStep_stabilizes (o := none) h
  unfold finalizerConditionBlockStep at h
  split at h
  · cases h
  · rename_i hnext
    cases h
    obtain ⟨-, d, rt, hd, hrt, hpending, -⟩ := nextFinalizerConditionBlock_spec hnext
    exact settleBlocked_settles hstable hd hrt hpending

/-- The evidence of a missing input is accepted, so that the loop does not come back to it. -/
theorem inputUnavailableStep_settles {definition : RuntimeDefinition}
    (hfacts : ∀ id d, r.state.definition.steps.get? id = some d → NodeFacts definition d)
    (h : inputUnavailableStep r = some r') : waiting true r'.state ⊂ waiting true r.state := by
  have hstable := inputUnavailableStep_stabilizes (o := none) h
  unfold inputUnavailableStep at h
  split at h
  · cases h
  · rename_i id references hnext
    obtain ⟨-, d, rt, hd, hrt, hready, -, rfl, hne⟩ := nextInputUnavailable_spec hnext
    obtain ⟨-, -, ⟨_, hrt', hpending⟩, -⟩ := finalizerReady_iff.mp hready
    cases hrt.symm.trans hrt'
    obtain ⟨detail, hdetail⟩ := unavailableReferences_evidence (hfacts id d hd) hne
    rw [hdetail] at h
    cases h
    exact settleBlocked_settles hstable hd hrt hpending

end Rounds

section Evaluations

/-- What becomes of a node whose condition was evaluated. -/
def ConditionEvaluation.Committed (rt : StepRuntimeState C V) :
    ConditionEvaluation → Prop
  | .passed => rt.conditionPassed = true
  | .false evaluatedPredicates => rt.state = .skipped ⟨.conditionFalse, evaluatedPredicates⟩
  | .failed canonicalRef pointer => rt.state = .failed
      { FailureDetail.ofCode .condition .jsonPointerMissing with
        ref := some canonicalRef, pointer := some pointer }
  | .unavailable _ => False

theorem FailureDetail.jsonPointerMissing_eq {reference pointer : String} {detail : FailureDetail}
    (h : FailureDetail.jsonPointerMissing reference pointer = .ok detail) :
    detail = { FailureDetail.ofCode .condition .jsonPointerMissing with
      ref := some reference, pointer := some pointer } := by
  unfold FailureDetail.jsonPointerMissing at h
  dsimp only at h
  cases hvalid : ({ FailureDetail.ofCode .condition .jsonPointerMissing with
      ref := some reference, pointer := some pointer } : FailureDetail).validate with
  | error =>
    rw [hvalid] at h
    cases h
  | ok =>
    rw [hvalid] at h
    exact (Except.ok.inj h).symm

variable [ConditionOutput V]

/-- The loop that evaluates conditions commits every result that it gets past. -/
theorem evaluateConditionStep_committed (h : evaluateConditionStep r role = some r')
    (hnext : nextCondition r.state role = some id) :
    ∃ d predicate rt, r.state.definition.steps.get? id = some d ∧ d.condition = some predicate ∧
      r'.state.steps.get? id = some rt ∧ (evaluateCondition r.state d predicate).Committed rt := by
  unfold evaluateConditionStep at h
  simp only [Option.bind_eq_bind, Option.bind_eq_some_iff, hnext, Option.some.injEq,
    exists_eq_left'] at h
  obtain ⟨d, hd, predicate, hcondition, h⟩ := h
  obtain ⟨-, rt, -, hrt, -⟩ := conditionGateReady_iff.mp (List.find?_some hnext)
  refine ⟨d, predicate, ?_⟩
  cases hevaluation : evaluateCondition r.state d predicate with
  | passed =>
    simp only [hevaluation, settleCondition, Option.some.injEq, Reduction.mapState_eq,
      RuntimeState.modifyStep_eq hrt] at h
    rw [← h]
    exact ⟨_, hd, hcondition, RuntimeState.get?_setNode_self hrt _, rfl⟩
  | «false» trace =>
    simp only [hevaluation, settleCondition] at h
    split at h
    · cases h
    · rename_i detail hdetail
      simp only [Option.some.injEq, transitionStep_eq hd hrt] at h
      rw [← h]
      refine ⟨_, hd, hcondition, RuntimeState.get?_commit_self hrt _, ?_⟩
      unfold ConditionFalseDetail.new at hdetail
      split_ifs at hdetail
      cases hdetail
      rfl
  | failed canonicalRef pointer =>
    simp only [hevaluation, settleCondition] at h
    split at h
    · cases h
    · rename_i detail hdetail
      cases h
      rw [settleTargetFailure_eq hd hrt, FailureDetail.jsonPointerMissing_eq hdetail]
      exact ⟨_, hd, hcondition, issueResult_get? hrt _ _, rfl⟩
  | unavailable =>
    simp only [hevaluation, settleCondition] at h
    cases h

theorem evaluateConditionStep_settles (h : evaluateConditionStep r role = some r') :
    waiting false r'.state ⊂ waiting false r.state := by
  obtain ⟨id, hnext, -⟩ := Option.bind_eq_some_iff.mp h
  obtain ⟨-, rt, -, hrt, -, hpassed, hpending, -⟩ :=
    conditionGateReady_iff.mp (List.find?_some hnext)
  obtain ⟨d, predicate, rt', -, -, hrt', hcommitted⟩ := evaluateConditionStep_committed h hnext
  refine (evaluateConditionStep_stabilizes (o := none) h).waiting_ssubset
    (mem_waiting.mpr ⟨rt, hrt, hpending, Or.inr hpassed⟩) (fun hmem => ?_)
  obtain ⟨_, hget, hpending', hopen⟩ := mem_waiting.mp hmem
  cases hrt'.symm.trans hget
  cases hevaluation : evaluateCondition r.state d predicate with
  | passed =>
    rw [hevaluation] at hcommitted
    exact hopen.elim nofun (fun hopen => nomatch hopen.symm.trans hcommitted)
  | «false» | failed =>
    rw [hevaluation] at hcommitted
    cases hpending'.symm.trans hcommitted
  | unavailable =>
    rw [hevaluation] at hcommitted
    exact hcommitted

end Evaluations

variable [ConditionOutput V]

/-- A loop of a stabilization ends by itself when its rounds deal with waiting nodes. -/
theorem loop_ends {next : Reduction O C V D → Option (Reduction O C V D)} {passed : Bool}
    (hnext : ∀ r r', next r = some r' → Stabilizes (O := O) none r r')
    (hround : ∀ r', r'.state.definition = r.state.definition → ∀ r'', next r' = some r'' →
      waiting passed r''.state ⊂ waiting passed r'.state) (hnodes : NodesMatch r.state) :
    next (iterate next (loopBound r) r) = none := by
  refine iterate_ends (P := fun r' => r'.state.definition = r.state.definition)
    (fun r' => waiting passed r'.state) (fun r' r'' hr' heq => ?_) rfl
    (card_waiting_lt hnodes passed)
  exact ⟨(hnext r' r'' heq).definition.trans hr', hround r' hr' r'' heq⟩

/-- The dispositions of finalizers before missing inputs are looked for. -/
def propagateFinalizerConditions (r : Reduction O C V D) : Reduction O C V D :=
  let selected := propagateFinalizerTriggerDispositions r
  iterate finalizerConditionBlockStep (loopBound selected) selected

section

variable (hnodes : NodesMatch r.state) (hcoherent : r.state.definition.Coherent)
include hnodes hcoherent

theorem propagateFinalizerConditions_stabilizes :
    Stabilizes o r (propagateFinalizerConditions r) := by
  have hselected := propagateFinalizerTriggerDispositions_stabilizes (o := o) hcoherent
  exact hselected.trans (iterate_stabilizes
    (fun _ _ _ h => finalizerConditionBlockStep_stabilizes h) _ (hselected.nodesMatch hnodes))

theorem propagateFinalizerConditions_ends :
    finalizerConditionBlockStep (propagateFinalizerConditions r) = none :=
  loop_ends (fun _ _ => finalizerConditionBlockStep_stabilizes)
    (fun _ _ _ => finalizerConditionBlockStep_settles)
    ((propagateFinalizerTriggerDispositions_stabilizes (o := none) hcoherent).nodesMatch hnodes)

theorem propagateFinalizerDispositions_ends {definition : RuntimeDefinition}
    (hfacts : ∀ id d, r.state.definition.steps.get? id = some d → NodeFacts definition d) :
    inputUnavailableStep (propagateFinalizerDispositions r) = none := by
  have hblocked := propagateFinalizerConditions_stabilizes (o := none) hnodes hcoherent
  refine loop_ends (fun _ _ => inputUnavailableStep_stabilizes)
    (fun r' hr' _ => inputUnavailableStep_settles (fun id d hd => hfacts id d ?_))
    (hblocked.nodesMatch hnodes)
  have hdefinition : r'.state.definition = r.state.definition := hr'.trans hblocked.definition
  rwa [hdefinition] at hd

end

/-- In every reachable state of an accepted workflow every loop of a stabilization stops because
it has nothing left to do, also when the ceiling of transitions has been hit. -/
theorem stabilization_terminates {workflow : ValidatedWorkflow} {decoded : DecodedDocument}
    (hvalid : validate decoded.document = .ok workflow)
    (inputs : BTreeMap String ResolvedInput)
    (parallel transitions : Nat)
    (seed : ExecutionSeed V)
    (hreach : Reachable (fromAdmitted workflow inputs parallel transitions) seed m r.state) :
    propagateOrdinaryStep (propagateOrdinaryPendingDispositions r) = none ∧
    (∀ role, evaluateConditionStep (evaluateReadyConditions r role) role = none) ∧
    finalizerConditionBlockStep (propagateFinalizerConditions r) = none ∧
    inputUnavailableStep (propagateFinalizerDispositions r) = none ∧
    ∃ last, Stabilizes none r last ∧ stabilize r = stabilizePass last ∧
      (stabilizePass last).state.lastTransitionSequence = last.state.lastTransitionSequence := by
  have hnodes := hreach.nodesMatch
  have hcoherent := hreach.coherent (fromAdmitted_coherent hvalid ..)
  refine ⟨?_, fun role => ?_, propagateFinalizerConditions_ends hnodes hcoherent, ?_,
    stabilize_ends hnodes hcoherent⟩
  · exact loop_ends (fun _ _ => propagateOrdinaryStep_stabilizes)
      (fun _ _ _ => propagateOrdinaryStep_settles) hnodes
  · exact loop_ends (fun _ _ => evaluateConditionStep_stabilizes)
      (fun _ _ _ => evaluateConditionStep_settles) hnodes
  · have hfacts := validate_nodeFacts hvalid inputs parallel transitions
    rw [← hreach.definition_eq] at hfacts
    exact propagateFinalizerDispositions_ends hnodes hcoherent hfacts

/-- A reviewed deployment.  Outside release mode the code is not checked, so that the step and
the finalizers that want the findings have nothing to work on. -/
def reviewDecoded : DecodedDocument where
  document := commandDocument [("mode", .text)]
    [("build", ⟨textCommand .required none [] ["log"], [], none⟩),
      ("check", ⟨textCommand .advisory
        (some (.equals (.reference (.input "mode") none) (.literal (.string "release"))))
        [] ["findings"], [], none⟩),
      ("format", ⟨textCommand .advisory none [("findings", .output ⟨"check", "findings"⟩)] [],
        [], none⟩),
      ("deploy", ⟨textCommand .required
        (some (.equals (.reference (.output ⟨"build", "log"⟩) none) (.literal (.string "ok"))))
        [("log", .output ⟨"build", "log"⟩)] [], [], none⟩)]
    [("archive", ⟨textCommand .required none [] [], ["notify"], {.succeeded, .failed, .cancelled}⟩),
      ("collect", ⟨textCommand .advisory
        (some (.equals (.reference (.output ⟨"check", "findings"⟩) none)
          (.literal (.string "none")))) [] [], [], {.succeeded, .failed, .cancelled}⟩),
      ("notify", ⟨textCommand .required none [] [], [], {.succeeded, .failed, .cancelled}⟩),
      ("report", ⟨textCommand .advisory none [("findings", .output ⟨"check", "findings"⟩)] [],
        [], {.succeeded, .failed, .cancelled}⟩)] []
  structural := by decide

/-- Its definition in debug mode, with two slots. -/
def reviewDefinition : RuntimeDefinition :=
  fromAdmitted (acceptedWorkflow reviewDecoded.document) (.ofList [("mode", .text "debug")]) 2 64

theorem reviewDecoded_accepted :
    validate reviewDecoded.document = .ok (acceptedWorkflow reviewDecoded.document) := rfl

/-- The beginning of its run. -/
def reviewStart : Reduction Unit FailureDetail String Nat :=
  initialReduction reviewDefinition .empty

/-- The first pass of a run that is cancelled from the beginning enters finalization. -/
def reviewCancelled : Reduction Unit FailureDetail String Nat :=
  stabilizePass (applyInitialCancellation reviewStart (some (.graceful ⟨.userRequest, 0⟩ none)))

/-- Each loop has a round to make in these states, and comes to its end. -/
theorem review_terminates :
    nextCondition reviewStart.state .step = some "check" ∧
      evaluateConditionStep (evaluateReadyConditions reviewStart .step) .step = none ∧
    (nextOrdinaryPendingDisposition
        (evaluateReadyConditions reviewStart .step).state).map Prod.fst = some "format" ∧
      propagateOrdinaryStep (propagateOrdinaryPendingDispositions
        (evaluateReadyConditions reviewStart .step)) = none ∧
    (nextFinalizerConditionBlock reviewCancelled.state).map Prod.fst = some "collect" ∧
      finalizerConditionBlockStep (propagateFinalizerConditions reviewCancelled) = none ∧
    (nextInputUnavailable (propagateFinalizerConditions reviewCancelled).state).map Prod.fst =
        some "report" ∧
      inputUnavailableStep (propagateFinalizerDispositions reviewCancelled) = none ∧
    ∃ last, reviewCancelled.state.lastTransitionSequence < last.state.lastTransitionSequence ∧
      stabilize reviewCancelled = stabilizePass last ∧
      (stabilizePass last).state.lastTransitionSequence = last.state.lastTransitionSequence := by
  have hcoherent : reviewDefinition.Coherent := fromAdmitted_coherent reviewDecoded_accepted ..
  have hnodes : NodesMatch reviewStart.state := initialState_nodesMatch reviewDefinition .empty
  have hstart : reviewStart.OnRun reviewDefinition .empty := ⟨1, .refl _⟩
  have hevaluated :=
    (evaluateReadyConditions_stabilizes (o := none) hnodes .step).reaches.onRun hstart
  have happlied := applyInitialCancellation_reaches reviewStart
    (some (.graceful ⟨.userRequest, 0⟩ none)) (requested_none _)
  have hcancelled : reviewCancelled.OnRun reviewDefinition .empty :=
    (stabilizePass_stabilizes (happlied.nodesMatch hnodes)
      (happlied.definition ▸ hcoherent)).reaches.onRun (happlied.onRun hstart)
  obtain ⟨_, hreach⟩ := hevaluated
  obtain ⟨hpropagated, -⟩ := stabilization_terminates reviewDecoded_accepted _ 2 64 .empty hreach
  obtain ⟨_, hreach⟩ := hstart
  obtain ⟨-, hevaluated, -⟩ := stabilization_terminates reviewDecoded_accepted _ 2 64 .empty hreach
  obtain ⟨_, hreach⟩ := hcancelled
  obtain ⟨-, -, hblocked, hunavailable, last, -, hstable, hquiet⟩ :=
    stabilization_terminates reviewDecoded_accepted _ 2 64 .empty hreach
  refine ⟨by decide, hevaluated .step, by decide, hpropagated, by decide,
    hblocked, by decide, hunavailable, last, ?_, hstable, hquiet⟩
  rw [← hquiet, ← hstable]
  decide

end ScherzoCloud.Workflow
