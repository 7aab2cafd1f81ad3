import ScherzoCloud.Workflow.StabilizeRefinement

/-!
# Runs of the reducer

A run starts with `initializeSeededDefinition` and reduces one occurrence after
another; its ledger is the state reached, with all events and actions so far.
The ledger of every run is reachable in the step system, so what every step
preserves holds of every run.
-/

namespace ScherzoCloud.Workflow

open Collections

variable {O C V D : Type} {t : RuntimeState C V D} {occurrence : Occurrence O C V D}

theorem initialState_nodesMatch (definition : RuntimeDefinition) (seed : ExecutionSeed V) :
    NodesMatch (initialState definition seed : RuntimeState C V D) := by
  simp [NodesMatch, initialState]

theorem get?_initialState {definition : RuntimeDefinition} {id : String} {d : RuntimeStep}
    (hd : definition.steps.get? id = some d) (seed : ExecutionSeed V) :
    (initialState definition seed : RuntimeState C V D).steps.get? id =
      some (initialStep seed id d) := by
  simp [initialState, BTreeMap.get?_mapWithKey, hd]

variable [ConditionOutput V]

section Ledger

/-- What a reduction committed and requested. -/
def Reduction.emission (r : Reduction O C V D) : Emission O C V D :=
  ⟨r.events, r.actions⟩

/-- Append a later reduction. -/
def Reduction.followedBy (r r' : Reduction O C V D) : Reduction O C V D :=
  ⟨r'.state, r.events ++ r'.events, r.actions ++ r'.actions, r'.occurrenceAccepted⟩

variable [ProvisionalStepResources O] [NodeFailureSource C]

/-- The run after a list of occurrences: its state, and everything it emitted. -/
def ledger (start : ExecutionStart D) (seed : ExecutionSeed V)
    (occurrences : List (Occurrence O C V D)) : Reduction O C V D :=
  occurrences.foldl (fun r occurrence => r.followedBy (reduce r.state occurrence))
    (initializeSeededDefinition start seed)

variable (start : ExecutionStart D) (seed : ExecutionSeed V)

theorem ledger_concat (os : List (Occurrence O C V D)) (o : Occurrence O C V D) :
    ledger start seed (os ++ [o]) =
      (ledger start seed os).followedBy (reduce (ledger start seed os).state o) := by
  simp [ledger]

end Ledger

section Reachability

/-- A sequence of reducer steps, with everything they emit. -/
abbrev Run : RuntimeState C V D → Emission O C V D → RuntimeState C V D → Prop :=
  LabelledRun (fun s m t => ∃ o, ReducerStep o s m t)

/-- A state of a run, with everything that was emitted on the way to it. -/
def Reachable (definition : RuntimeDefinition) (seed : ExecutionSeed V) :
    Emission O C V D → RuntimeState C V D → Prop :=
  Run (initialState definition seed)

variable {definition : RuntimeDefinition} {seed : ExecutionSeed V} {m : Emission O C V D}
  {s : RuntimeState C V D}

namespace Reachable

/-- What holds initially and is preserved by every step holds in every run. -/
theorem induction {I : Emission O C V D → RuntimeState C V D → Prop}
    (hinit : I 1 (initialState definition seed))
    (hstep : ∀ o m s n t, Reachable definition seed m s → I m s → ReducerStep o s n t → I (m * n) t)
    (h : Reachable definition seed m s) : I m s := by
  unfold Reachable at h
  induction h with
  | refl => exact hinit
  | tail hrun hlast ih =>
    obtain ⟨o, hlast⟩ := hlast
    exact hstep o _ _ _ _ hrun ih hlast

/-- The same for a property of states. -/
theorem invariant {I : RuntimeState C V D → Prop} (hinit : I (initialState definition seed))
    (hstep : ∀ (o : Option (Occurrence O C V D)) s n t,
      (∃ m : Emission O C V D, Reachable definition seed m s) → I s → ReducerStep o s n t → I t)
    (h : Reachable definition seed m s) : I s :=
  h.induction (I := fun _ s => I s) hinit (fun o m s n t hreach hs => hstep o s n t ⟨m, hreach⟩ hs)

variable (h : Reachable definition seed m s)
include h

theorem definition_eq : s.definition = definition :=
  h.invariant (I := fun s => s.definition = definition) rfl
    (fun _ _ _ _ _ hs hstep => hstep.definition.trans hs)

theorem nodesMatch : NodesMatch s :=
  h.invariant (initialState_nodesMatch definition seed)
    (fun _ _ _ _ _ hs hstep => hstep.nodesMatch hs)

theorem coherent (hcoherent : definition.Coherent) : s.definition.Coherent := by
  rw [h.definition_eq]
  exact hcoherent

/-- What every step preserves is kept by the rest of a run. -/
theorem continued {I : Emission O C V D → RuntimeState C V D → Prop} {n : Emission O C V D}
    (hrun : Run s n t) (hs : I m s) (hstep : ∀ o m s n t, Reachable definition seed m s →
      I m s → ReducerStep o s n t → I (m * n) t) : I (m * n) t := by
  refine (hrun.history (I := fun m s => Reachable definition seed m s ∧ I m s) ?_ ⟨h, hs⟩).2
  rintro m s n t ⟨hreach, hI⟩ ⟨o, hlast⟩
  exact ⟨hreach.tail ⟨o, hlast⟩, hstep o m s n t hreach hI hlast⟩

end Reachable

theorem Reaches.run {r r' : Reduction O C V D} {o : Option (Occurrence O C V D)}
    (h : Reaches o r r') : ∃ n : Emission O C V D, Run r.state n r'.state := by
  obtain ⟨n, t, hnext, rfl⟩ := h
  exact ⟨n, hnext.mono (fun _ _ _ hstep => ⟨o, hstep⟩)⟩

/-- A reduction of a run of the step system. -/
abbrev Reduction.OnRun (r : Reduction O C V D)
    (definition : RuntimeDefinition) (seed : ExecutionSeed V) : Prop :=
  ∃ m : Emission O C V D, Reachable definition seed m r.state

theorem Reaches.onRun {r r' : Reduction O C V D} {o : Option (Occurrence O C V D)}
    (h : Reaches o r r') (hrun : r.OnRun definition seed) : r'.OnRun definition seed := by
  obtain ⟨m, hreach⟩ := hrun
  obtain ⟨n, hnext⟩ := h.run
  exact ⟨m * n, hreach.trans hnext⟩

/-- What a reduction reaches continues the run that led to it. -/
theorem Reaches.continueRun {R : RuntimeState C V D → Emission O C V D → RuntimeState C V D → Prop}
    {r r' : Reduction O C V D} {o : Option (Occurrence O C V D)} (h : Reaches o r r')
    (hsteps : ∀ s m t, ReducerStep o s m t → R s m t)
    (hrun : LabelledRun R s r.emission r.state) : LabelledRun R s r'.emission r'.state := by
  obtain ⟨n, t, hnext, rfl⟩ := h
  exact hrun.trans (hnext.mono hsteps)

variable {start : ExecutionStart D}

theorem initializeSeededDefinition_steps (hcoherent : start.definition.Coherent) :
    LabelledRun (ReducerStep none) (initialState start.definition seed)
      (initializeSeededDefinition start seed : Reduction O C V D).emission
      (initializeSeededDefinition start seed : Reduction O C V D).state := by
  have hcancelled := applyInitialCancellation_reaches
    (initialReduction start.definition seed : Reduction O C V D)
    start.initialCancellation (requested_none _)
  have hstable := hcancelled.trans (stabilize_reaches
    (hcancelled.nodesMatch (initialState_nodesMatch start.definition seed))
    (by rw [hcancelled.definition]; exact hcoherent))
  exact hstable.continueRun (fun _ _ _ => id) (.refl _)

/-- A step taken while an occurrence is reduced: it applies that occurrence or none. -/
def ReductionStep (occurrence : Occurrence O C V D) (s : RuntimeState C V D) (m : Emission O C V D)
    (t : RuntimeState C V D) : Prop :=
  ReducerStep none s m t ∨ ReducerStep (some occurrence) s m t

theorem ReductionStep.applies (h : ReductionStep occurrence s m t) :
    ∃ o, (∀ applied, o = some applied → applied = occurrence) ∧ ReducerStep o s m t := by
  rcases h with h | h
  · exact ⟨none, fun applied heq => absurd heq (by simp), h⟩
  · exact ⟨some occurrence, fun applied heq => (Option.some.inj heq).symm, h⟩

variable [ProvisionalStepResources O] [NodeFailureSource C]

section

variable (hnodes : NodesMatch s)
include hnodes

/-- One reduction is a run of reducer steps that apply no other occurrence. -/
theorem reduce_steps (hcoherent : s.definition.Coherent) (occurrence : Occurrence O C V D) :
    LabelledRun (ReductionStep occurrence) s (reduce s occurrence).emission
      (reduce s occurrence).state := by
  have happly := applyOccurrence_reaches (r := ⟨s, [], [], false⟩) hnodes occurrence
  have happlied : LabelledRun (ReductionStep occurrence) s
      (applyOccurrence ⟨s, [], [], false⟩ occurrence).2.emission
      (applyOccurrence ⟨s, [], [], false⟩ occurrence).2.state :=
    happly.continueRun (fun _ _ _ => Or.inr) (.refl _)
  unfold reduce
  dsimp only
  split_ifs
  · unfold discardOccurrence
    cases hrelease : occurrenceResourceRelease occurrence with
    | none => exact .refl _
    | some action =>
      obtain ⟨id, provisional, rfl⟩ : ∃ id provisional,
          action = ⟨id, .releaseStepResources provisional⟩ := by
        cases occurrence <;> simp only [occurrenceResourceRelease, reduceCtorEq] at hrelease
        split_ifs at hrelease
        cases hrelease
        exact ⟨_, _, rfl⟩
      exact .single (Or.inl (.release id provisional))
  · have hstable : Reaches none { (applyOccurrence ⟨s, [], [], false⟩ occurrence).2 with
        occurrenceAccepted := true } _ :=
      stabilize_reaches (happly.nodesMatch hnodes) (by rw [happly.definition]; exact hcoherent)
    exact hstable.continueRun (fun _ _ _ => Or.inl) happlied
  · exact happlied

theorem reduce_run (hcoherent : s.definition.Coherent) (occurrence : Occurrence O C V D) :
    Run s (reduce s occurrence).emission (reduce s occurrence).state :=
  (reduce_steps hnodes hcoherent occurrence).mono (fun _ _ _ hstep => by
    obtain ⟨o, -, hstep⟩ := hstep.applies
    exact ⟨o, hstep⟩)

/-- An accepted occurrence was applied, and the state was stabilized after it. -/
theorem reduce_accepted (h : (reduce s occurrence).occurrenceAccepted = true) :
    (applyOccurrence ⟨s, [], [], false⟩ occurrence).1 = true ∧ reduce s occurrence = stabilize
        { (applyOccurrence ⟨s, [], [], false⟩ occurrence).2 with occurrenceAccepted := true } := by
  unfold reduce at h ⊢
  dsimp only at h ⊢
  split_ifs at h ⊢ with hterminal happlied
  · cases h
  · exact ⟨happlied, rfl⟩
  · obtain ⟨n, t, -, hemit⟩ := applyOccurrence_reaches (r := ⟨s, [], [], false⟩) hnodes occurrence
    rw [hemit] at h
    cases h

/-- A refused occurrence was discarded, or it was applied without effect. -/
theorem reduce_refused (hcoherent : s.definition.Coherent)
    (h : (reduce s occurrence).occurrenceAccepted = false) :
    reduce s occurrence = discardOccurrence s occurrence ∨
      s.workflow.isTerminal = false ∧ (applyOccurrence ⟨s, [], [], false⟩ occurrence).1 = false ∧
        reduce s occurrence = (applyOccurrence ⟨s, [], [], false⟩ occurrence).2 := by
  unfold reduce at h ⊢
  dsimp only at h ⊢
  split_ifs at h ⊢ with hterminal happlied
  · exact Or.inl rfl
  · have happly := applyOccurrence_reaches (r := ⟨s, [], [], false⟩) hnodes occurrence
    obtain ⟨n, t, -, hemit⟩ := stabilize_reaches
      (r := { (applyOccurrence ⟨s, [], [], false⟩ occurrence).2 with occurrenceAccepted := true })
      (happly.nodesMatch hnodes) (by rw [happly.definition]; exact hcoherent)
    rw [hemit] at h
    cases h
  · exact Or.inr ⟨by simpa using hterminal, by simpa using happlied, rfl⟩

end

/-- The ledger of every run is reached by reducer steps. -/
theorem ledger_reachable (start : ExecutionStart D) (seed : ExecutionSeed V)
    (hcoherent : start.definition.Coherent) (occurrences : List (Occurrence O C V D)) :
    Reachable start.definition seed (ledger start seed occurrences).emission
      (ledger start seed occurrences).state := by
  induction occurrences using List.reverseRecOn with
  | nil =>
    exact (initializeSeededDefinition_steps hcoherent).mono (fun _ _ _ hstep => ⟨none, hstep⟩)
  | append_singleton os o ih =>
    rw [ledger_concat]
    exact ih.trans (reduce_run ih.nodesMatch (ih.coherent hcoherent) o)

/-- Further occurrences continue a run. -/
theorem ledger_append (start : ExecutionStart D) (seed : ExecutionSeed V)
    (hcoherent : start.definition.Coherent) (earlier later : List (Occurrence O C V D)) :
    ∃ m, Run (ledger start seed earlier).state m (ledger start seed (earlier ++ later)).state ∧
      (ledger start seed (earlier ++ later)).emission =
        (ledger start seed earlier).emission * m := by
  induction later using List.reverseRecOn with
  | nil =>
    rw [List.append_nil]
    exact ⟨1, .refl _, (mul_one _).symm⟩
  | append_singleton os o ih =>
    obtain ⟨m, hrun, hemission⟩ := ih
    have hreach := ledger_reachable start seed hcoherent (earlier ++ os)
    rw [← List.append_assoc, ledger_concat]
    refine ⟨_, hrun.trans (reduce_run hreach.nodesMatch (hreach.coherent hcoherent) o), ?_⟩
    rw [← mul_assoc, ← hemission]
    rfl

end Reachability

variable [ProvisionalStepResources O] [NodeFailureSource C]

/-- A run of an admitted workflow that inherits nothing. -/
def admittedRun (workflow : ValidatedWorkflow) (inputs : BTreeMap String ResolvedInput)
    (maximumParallelSteps maximumTransitions : Nat)
    (initialCancellation : Option (InitialCancellation D))
    (occurrences : List (Occurrence O C V D)) : Reduction O C V D :=
  ledger ⟨RuntimeDefinition.fromAdmitted workflow inputs maximumParallelSteps maximumTransitions,
    initialCancellation⟩ .empty occurrences

variable {workflow : ValidatedWorkflow} {inputs : BTreeMap String ResolvedInput}
variable {parallel transitions : Nat} (initial : Option (InitialCancellation D))
variable (hcoherent :
  (RuntimeDefinition.fromAdmitted workflow inputs parallel transitions).Coherent)
include hcoherent

theorem admittedRun_reachable (occurrences : List (Occurrence O C V D)) :
    Reachable (RuntimeDefinition.fromAdmitted workflow inputs parallel transitions) .empty
      (admittedRun workflow inputs parallel transitions initial occurrences).emission
      (admittedRun workflow inputs parallel transitions initial occurrences).state :=
  ledger_reachable ⟨_, initial⟩ .empty hcoherent occurrences

theorem admittedRun_append (earlier later : List (Occurrence O C V D)) :
    ∃ m, Run (admittedRun workflow inputs parallel transitions initial earlier).state m
        (admittedRun workflow inputs parallel transitions initial (earlier ++ later)).state ∧
      (admittedRun workflow inputs parallel transitions initial (earlier ++ later)).emission =
        (admittedRun workflow inputs parallel transitions initial earlier).emission * m :=
  ledger_append ⟨_, initial⟩ .empty hcoherent earlier later

-- A driver with text values and nothing to release, to run the model on inputs.

instance : ConditionOutput String := ⟨some, fun _ => none⟩

instance : ProvisionalStepResources Unit := ⟨fun _ => false⟩

instance : NodeFailureSource FailureDetail :=
  ⟨fun detail phase =>
    if detail.phase = phase then detail.validate.map (fun _ => detail)
    else .error .failureDetail⟩

end ScherzoCloud.Workflow
