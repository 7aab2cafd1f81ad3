import ScherzoCloud.Workflow.NodeChanges

/-!
# Where the outputs of a node come from

A node succeeds with outputs only through an accepted `OutputsCaptured` for it,
and keeps exactly those outputs.  A run that inherits nothing has no other node
with readable outputs.
-/

namespace ScherzoCloud.Workflow

open Collections

variable {O C V D : Type} {m : Emission O C V D} {s t : RuntimeState C V D} {id : String}
  {d : RuntimeStep} {rt rt' : StepRuntimeState C V} {o : Option (Occurrence O C V D)}
  {outputs : OutputSet V} {seed : ExecutionSeed V}

section Settled

variable [ConditionOutput V] {definition : RuntimeDefinition}

theorem NodeChange.inherited_iff (h : NodeChange o s m id d rt rt') :
    rt'.state.kind = .inherited ↔ rt.state.kind = .inherited := by
  constructor
  · intro hkind
    cases h with
    | same | passed => exact hkind
    | move h | issue h => cases h <;> cases hkind
    | complete => cases hkind
    | note h => rwa [h.1.state] at hkind
    | contained h =>
      cases h with
      | drop | contain => cases hkind
      | escalate | pass => exact hkind
  · intro hkind
    have hterminal : rt.state.isTerminal = true := by
      cases hstate : rt.state <;> rw [hstate] at hkind <;> first | rfl | cases hkind
    rw [h.settled_fixed hterminal]
    exact hkind

/-- A node succeeds when its outputs are captured, or when it has none to capture. -/
theorem NodeChange.succeeded (h : NodeChange o s m id d rt rt')
    (hstate : rt'.state = .succeeded outputs) : rt.state = .succeeded outputs ∨
      outputs.keys = d.declaredOutputs ∧ (d.declaredOutputs ≠ [] →
        ∃ action, o = some (.outputsCaptured id action outputs)) := by
  cases h with
  | same => exact Or.inl hstate
  | move h =>
    cases h with
    | succeed action _ _ _ hoccurrence hdeclared =>
      cases hstate
      exact Or.inr ⟨hdeclared, fun _ => ⟨action, hoccurrence⟩⟩
    | _ => cases hstate
  | complete _ hdeclared =>
    cases hstate
    exact Or.inr ⟨hdeclared.symm, fun hne => absurd hdeclared hne⟩
  | issue h => cases h <;> cases hstate
  | note h => exact Or.inl (h.1.state.symm.trans hstate)
  | passed => exact Or.inl hstate
  | contained h =>
    cases h with
    | drop | contain => cases hstate
    | escalate | pass => exact Or.inl hstate

/-- A node is inherited as long as it was, and no other node ever is. -/
theorem Reachable.inherited_iff (h : Reachable definition seed m s)
    (hd : definition.steps.get? id = some d) (hrt : s.steps.get? id = some rt) :
    rt.state.kind = .inherited ↔ (seed.steps.get? id).isSome = true := by
  refine h.nodeInvariant (P := fun id _ rt =>
    rt.state.kind = .inherited ↔ (seed.steps.get? id).isSome = true) ?_ ?_ hd hrt
  · intro id d _
    unfold initialStep
    cases hseed : seed.steps.get? id <;> simp [StepState.kind]
  · intro o s n id d rt rt' _ _ hrt hchange
    exact hchange.inherited_iff.trans hrt

/-- Without a seed no node is inherited. -/
theorem Reachable.not_inherited (h : Reachable definition .empty m s)
    (hrt : s.steps.get? id = some rt) : rt.state.kind ≠ .inherited := by
  obtain ⟨d, hd⟩ := h.nodesMatch.definition hrt
  rw [h.definition_eq] at hd
  rw [Ne, h.inherited_iff hd hrt]
  exact Bool.false_ne_true

/-- A node that succeeded has exactly the outputs that it declares. -/
theorem Reachable.succeeded_outputs (h : Reachable definition seed m s)
    (hd : definition.steps.get? id = some d) (hrt : s.steps.get? id = some rt)
    (hstate : rt.state = .succeeded outputs) : outputs.keys = d.declaredOutputs := by
  refine h.nodeInvariant (P := fun _ d rt => ∀ outputs, rt.state = .succeeded outputs →
    outputs.keys = d.declaredOutputs) ?_ ?_ hd hrt outputs hstate
  · intro id d _ outputs hstate
    unfold initialStep at hstate
    dsimp only at hstate
    split at hstate <;> cases hstate
  · intro o s n id d rt rt' _ _ hrt hchange outputs hstate
    rcases hchange.succeeded hstate with hbefore | ⟨hkeys, -⟩
    · exact hrt outputs hbefore
    · exact hkeys

theorem Reachable.dataAvailable_iff (h : Reachable definition .empty m s)
    (hrt : s.steps.get? id = some rt) :
    stepDataAvailable rt.state = true ↔ ∃ outputs, rt.state = .succeeded outputs := by
  have hkind := h.not_inherited hrt
  cases hstate : rt.state with
  | inherited => rw [hstate] at hkind; exact absurd rfl hkind
  | _ => simp [stepDataAvailable]

end Settled

variable {action : ActionId}

theorem applyOutputsCaptured_settles (hnodes : NodesMatch s)
    (h : (applyOutputsCaptured (⟨s, [], [], false⟩ : Reduction O C V D)
      id action outputs).1 = true) :
    ∃ rt, (applyOutputsCaptured (⟨s, [], [], false⟩ : Reduction O C V D)
        id action outputs).2.state.steps.get? id = some rt ∧ rt.state = .succeeded outputs := by
  unfold applyOutputsCaptured at h ⊢
  split_ifs at h ⊢ with haccepts
  simp only [Bool.or_eq_true, Bool.not_eq_true', not_or, Bool.not_eq_false] at haccepts
  obtain ⟨rt, hrt, -⟩ := stepAccepts_iff.mp haccepts.1
  obtain ⟨d, hd⟩ := hnodes.definition hrt
  dsimp only
  rw [succeed_eq (r := (⟨s, [], [], false⟩ : Reduction O C V D)) hd hrt outputs]
  exact ⟨_, RuntimeState.get?_commit_self hrt _, rfl⟩

variable [ConditionOutput V] [ProvisionalStepResources O] [NodeFailureSource C]

/-- An accepted occurrence of the run committed these outputs for a node. -/
def OutputsCommitted (start : ExecutionStart D) (seed : ExecutionSeed V)
    (occurrences : List (Occurrence O C V D)) (id : String) (outputs : OutputSet V) : Prop :=
  ∃ (past : List (Occurrence O C V D)) (action : ActionId)
      (future : List (Occurrence O C V D)),
    occurrences = past ++ .outputsCaptured id action outputs :: future ∧
    (reduce (ledger start seed past).state (.outputsCaptured id action outputs :
      Occurrence O C V D)).occurrenceAccepted = true

/-- An accepted capture settles its node. -/
theorem reduce_outputsCaptured_accepted (hnodes : NodesMatch s) (hcoherent : s.definition.Coherent)
    (h : (reduce s (.outputsCaptured id action outputs :
      Occurrence O C V D)).occurrenceAccepted = true) :
    ∃ rt, (reduce s (.outputsCaptured id action outputs :
        Occurrence O C V D)).state.steps.get? id = some rt ∧ rt.state = .succeeded outputs := by
  obtain ⟨happlied, hreduce⟩ := reduce_accepted hnodes h
  have happly := applyOccurrence_reaches (r := ⟨s, [], [], false⟩) hnodes
    (.outputsCaptured id action outputs : Occurrence O C V D)
  obtain ⟨rt, hrt, hstate⟩ := applyOutputsCaptured_settles hnodes happlied
  obtain ⟨d, hd⟩ := (happly.nodesMatch hnodes).definition hrt
  obtain ⟨n, hrun⟩ := (stabilize_reaches
    (r := { (applyOccurrence ⟨s, [], [], false⟩ (.outputsCaptured id action outputs :
      Occurrence O C V D)).2 with occurrenceAccepted := true })
    (happly.nodesMatch hnodes) (by rw [happly.definition]; exact hcoherent)).run
  rw [hreduce]
  exact ⟨rt, hrun.settled hd hrt (by rw [hstate]; rfl), hstate⟩

/-- A refused capture changes nothing. -/
theorem reduce_outputsCaptured_refused (hnodes : NodesMatch s) (hcoherent : s.definition.Coherent)
    (h : (reduce s (.outputsCaptured id action outputs :
      Occurrence O C V D)).occurrenceAccepted = false) :
    (reduce s (.outputsCaptured id action outputs : Occurrence O C V D)).state = s := by
  rcases reduce_refused hnodes hcoherent h with hdiscard | ⟨-, hrefused, happlied⟩
  · rw [hdiscard]
    rfl
  · rw [happlied]
    unfold applyOccurrence applyOutputsCaptured at hrefused ⊢
    dsimp only at hrefused ⊢
    split_ifs at hrefused ⊢
    rfl

omit [ProvisionalStepResources O] [NodeFailureSource C] in
/-- While one occurrence is reduced only its own outputs are committed. -/
theorem reductionSteps_succeeded {occurrence : Occurrence O C V D}
    (hrun : LabelledRun (ReductionStep occurrence) s m t) (hd : s.definition.steps.get? id = some d)
    (hnodes : NodesMatch s) (hrt' : t.steps.get? id = some rt')
    (hstate : rt'.state = .succeeded outputs) :
    (∃ rt, s.steps.get? id = some rt ∧ rt.state = .succeeded outputs) ∨
      outputs.keys = d.declaredOutputs ∧ (d.declaredOutputs ≠ [] →
        ∃ action, occurrence = .outputsCaptured id action outputs) := by
  have hall := hrun.invariant (I := fun t => t.definition = s.definition ∧ NodesMatch t ∧
    ∀ rt', t.steps.get? id = some rt' → rt'.state = .succeeded outputs →
      (∃ rt, s.steps.get? id = some rt ∧ rt.state = .succeeded outputs) ∨
        outputs.keys = d.declaredOutputs ∧ (d.declaredOutputs ≠ [] →
          ∃ action, occurrence = .outputsCaptured id action outputs))
    ?_ ⟨rfl, hnodes, fun rt hrt hstate => Or.inl ⟨rt, hrt, hstate⟩⟩
  · exact hall.2.2 rt' hrt' hstate
  rintro u n v ⟨hdefinition, hmatch, hu⟩ hstep
  obtain ⟨o, ho, hstep⟩ := hstep.applies
  refine ⟨hstep.definition.trans hdefinition, hstep.nodesMatch hmatch, ?_⟩
  intro rtv hrtv hsucceeded
  have hdu : u.definition.steps.get? id = some d := by rw [hdefinition]; exact hd
  obtain ⟨rtu, hrtu, hchange⟩ := hstep.nodeBefore hmatch hdu hrtv
  rcases hchange.succeeded hsucceeded with hbefore | ⟨hkeys, hcaptured⟩
  · exact hu rtu hrtu hbefore
  · refine Or.inr ⟨hkeys, fun hne => ?_⟩
    obtain ⟨action, heq⟩ := hcaptured hne
    exact ⟨action, (ho _ heq).symm⟩

variable {start : ExecutionStart D} {occurrences : List (Occurrence O C V D)}
  (hcoherent : start.definition.Coherent)
include hcoherent

/-- Accepted outputs are the outputs of the node from then on. -/
theorem OutputsCommitted.succeeded (h : OutputsCommitted start seed occurrences id outputs) :
    ∃ rt, (ledger start seed occurrences).state.steps.get? id = some rt ∧
      rt.state = .succeeded outputs := by
  obtain ⟨past, action, future, rfl, haccepted⟩ := h
  have hreach := ledger_reachable start seed hcoherent past
  obtain ⟨rt, hrt, hstate⟩ := reduce_outputsCaptured_accepted hreach.nodesMatch
    (hreach.coherent hcoherent) haccepted
  have hnext := ledger_reachable start seed hcoherent (past ++ [.outputsCaptured id action outputs])
  obtain ⟨n, hrun, -⟩ := ledger_append start seed hcoherent
    (past ++ [.outputsCaptured id action outputs]) future
  rw [ledger_concat] at hrun hnext
  obtain ⟨d, hd⟩ := hnext.nodesMatch.definition hrt
  have hrt' := hrun.settled hd hrt (by rw [hstate]; rfl)
  rw [List.append_assoc] at hrt'
  exact ⟨rt, hrt', hstate⟩

/-- The outputs of a succeeded node were committed by an accepted occurrence. -/
theorem ledger_outputs (hd : start.definition.steps.get? id = some d)
    (hrt : (ledger start seed occurrences).state.steps.get? id = some rt)
    (hstate : rt.state = .succeeded outputs) : outputs.keys = d.declaredOutputs ∧
      (d.declaredOutputs ≠ [] → OutputsCommitted start seed occurrences id outputs) := by
  induction occurrences using List.reverseRecOn generalizing rt with
  | nil =>
    -- No occurrence is applied while a run starts.
    have hrun : LabelledRun
        (ReductionStep (.stepQuiesced "" ⟨0⟩ : Occurrence O C V D))
        (initialState start.definition seed) _ (ledger start seed []).state :=
      (initializeSeededDefinition_steps hcoherent).mono (fun _ _ _ => Or.inl)
    rcases reductionSteps_succeeded hrun hd (initialState_nodesMatch _ _) hrt hstate with
      ⟨rt', hrt', hstate'⟩ | ⟨hkeys, hcaptured⟩
    · cases (get?_initialState hd seed).symm.trans hrt'
      rw [initialStep] at hstate'
      dsimp only at hstate'
      split at hstate' <;> cases hstate'
    · refine ⟨hkeys, fun hne => ?_⟩
      obtain ⟨action, heq⟩ := hcaptured hne
      cases heq
  | append_singleton os o ih =>
    have hreach := ledger_reachable start seed hcoherent os
    rw [ledger_concat] at hrt
    have hearlier : ∀ {outputs}, OutputsCommitted start seed os id outputs →
        OutputsCommitted start seed (os ++ [o]) id outputs := by
      rintro outputs ⟨past, action, future, rfl, haccepted⟩
      exact ⟨past, action, future ++ [o], by simp, haccepted⟩
    rcases reductionSteps_succeeded (reduce_steps hreach.nodesMatch (hreach.coherent hcoherent) o)
      (by rw [hreach.definition_eq]; exact hd) hreach.nodesMatch hrt hstate with
      ⟨rt', hrt', hstate'⟩ | ⟨hkeys, hcaptured⟩
    · obtain ⟨hkeys, hcommitted⟩ := ih hrt' hstate'
      exact ⟨hkeys, fun hne => hearlier (hcommitted hne)⟩
    · refine ⟨hkeys, fun hne => ?_⟩
      obtain ⟨action, rfl⟩ := hcaptured hne
      cases haccepted : (reduce (ledger start seed os).state (.outputsCaptured id action outputs :
          Occurrence O C V D)).occurrenceAccepted with
      | true => exact ⟨os, action, [], rfl, haccepted⟩
      | false =>
        have hsame := reduce_outputsCaptured_refused hreach.nodesMatch
          (hreach.coherent hcoherent) haccepted
        refine hearlier ((ih ?_ hstate).2 hne)
        rw [← hsame]
        exact hrt

/-- The outputs of a succeeded node are the only ones that were committed for it. -/
theorem outputsCommitted_iff (hd : start.definition.steps.get? id = some d)
    (hne : d.declaredOutputs ≠ [])
    (hrt : (ledger start seed occurrences).state.steps.get? id = some rt)
    (hstate : rt.state = .succeeded outputs) (committed : OutputSet V) :
    OutputsCommitted start seed occurrences id committed ↔ committed = outputs := by
  constructor
  · intro h
    obtain ⟨rt', hrt', hstate'⟩ := h.succeeded hcoherent
    cases hrt.symm.trans hrt'
    exact StepState.succeeded.inj (hstate'.symm.trans hstate)
  · rintro rfl
    exact (ledger_outputs hcoherent hd hrt hstate).2 hne

end ScherzoCloud.Workflow
