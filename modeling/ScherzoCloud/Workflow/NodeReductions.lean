import ScherzoCloud.Workflow.PhaseMoves

/-!
# What a reduction does to one node

Observers and the durable state of a run see whole reductions: the events and actions
of a reduction together with the state after it.  From a single node a reduction looks
simple.  The occurrence moves it once, or the cancellation that the occurrence asks for
contains it, or it was pending and the stabilization settles or starts it; nothing
else happens to it in the same reduction.
-/

namespace ScherzoCloud.Workflow

open Collections

variable {O C V D : Type} {s : RuntimeState C V D} {id : String} {d : RuntimeStep}
  {rt rt' rt'' rtj : StepRuntimeState C V} {starts starts' : List (ActionId × ActiveStepInvocation)}
  {moves moves' : List (StepStateKind × StepStateKind)} {actions : List (RequestedAction O C V D)}
  {r r' : Reduction O C V D}

section Stabilizing

variable {t : RuntimeState C V D} {j : String} {m : Emission O C V D}

theorem Begins.leaves_pending (h : Begins rt rt' starts) : rt'.state ≠ .pending := by
  cases h with
  | start => nofun
  | drop _ hterminal | fail _ hterminal =>
    rintro rfl
    cases hterminal

theorem StepRuntimeState.RunsTarget.ne_pending (h : rt.RunsTarget) : rt.state ≠ .pending := by
  rcases h with h | h | h <;> rw [h] <;> nofun

/-- What a part of a stabilization does to one node. -/
inductive NodeStabilized (rt : StepRuntimeState C V) :
    StepRuntimeState C V → List (StepStateKind × StepStateKind) →
      List (ActionId × ActiveStepInvocation) → Prop
  | still (passed : Bool) (hpassed : passed ≠ rt.conditionPassed → rt.state = .pending) :
      NodeStabilized rt { rt with conditionPassed := passed } [] []
  | begun (passed : Bool) {rt' : StepRuntimeState C V}
      {starts : List (ActionId × ActiveStepInvocation)} (hpending : rt.state = .pending)
      (h : Begins { rt with conditionPassed := passed } rt' starts) :
      NodeStabilized rt rt' [(.pending, rt'.state.kind)] starts

theorem NodeStabilized.same : NodeStabilized rt rt [] [] :=
  .still rt.conditionPassed (fun h => absurd rfl h)

/-- Two parts of a stabilization: after the first transition of a node nothing is left. -/
theorem NodeStabilized.trans (h : NodeStabilized rt rt' moves starts)
    (h' : NodeStabilized rt' rt'' moves' starts') :
    NodeStabilized rt rt'' (moves ++ moves') (starts ++ starts') := by
  cases h with
  | still passed hpassed =>
    cases h' with
    | still passed' hpassed' =>
      refine .still passed' (fun hne => ?_)
      by_cases heq : passed' = passed
      · exact hpassed (heq ▸ hne)
      · exact hpassed' heq
    | begun passed' hpending hbegins => exact .begun passed' hpending hbegins
  | begun passed hpending hbegins =>
    cases h' with
    | still passed' hpassed' =>
      obtain rfl : passed' = rt'.conditionPassed := by
        by_contra hne
        exact hbegins.leaves_pending (hpassed' hne)
      simpa using NodeStabilized.begun passed hpending hbegins
    | begun _ hpending' => exact absurd hpending' hbegins.leaves_pending

/-- A step about one node, seen from any node. -/
theorem commit_stabilized {events : List (TransitionEvent D)} (hrt : s.steps.get? id = some rt)
    (hpending : rt.state = .pending) (hrtj : s.steps.get? j = some rtj)
    (hbegins : Begins rt rt' (startsOf id actions)) (hothers : j ≠ id → startsOf j actions = [])
    (hevents : movesOf j events = if id = j then [(rt.state.kind, rt'.state.kind)] else []) :
    ∃ rtj', (s.commit id rt').steps.get? j = some rtj' ∧
      NodeStabilized rtj rtj' (movesOf j events) (startsOf j actions) := by
  refine RuntimeState.commit_view (P := fun a b => NodeStabilized a b _ _) hrt hrtj
    (fun hj => ?_) (fun hj => ?_)
  · subst hj
    rw [hevents, if_pos rfl, hpending]
    exact .begun rt.conditionPassed hpending hbegins
  · rw [hevents, if_neg (fun h => hj h.symm), hothers hj]
    exact .same

variable [ConditionOutput V]

theorem NodeMove.begins (h : NodeMove none s id d rt rt' actions) (hpending : rt.state = .pending) :
    Begins rt rt' (startsOf id actions) := by
  cases h with
  | start => simpa [startsOf, startOf] using Begins.start s.actionId
  | retry _ _ htarget | recover _ _ htarget => exact absurd hpending htarget.ne_pending
  | recheck _ _ _ _ hstate | run hstate | capture _ hstate | handlerRunning _ hstate
  | quiesce _ _ _ hstate =>
    rw [hpending] at hstate
    cases hstate
  | succeed _ _ _ _ hoccurrence => cases hoccurrence
  | skip | failureStop | notSelected | forcedCancel => exact .drop _ rfl

theorem IssueMove.begins {issue : PrimaryIssue} (h : IssueMove s id d rt rt' issue)
    (hpending : rt.state = .pending) : Begins rt rt' [] := by
  cases h with
  | fail _ _ hfinal =>
    cases hfinal with
    | target _ _ htarget => exact absurd hpending htarget.ne_pending
    | gaveUp _ _ _ _ hstate | handlerFailed _ _ _ _ _ hstate =>
      rw [hpending] at hstate
      cases hstate
  | conditionFailed => exact .fail _ rfl
  | blockOrdinary | blockCondition | blockInput => exact .drop _ rfl

theorem StabilizeStep.node_view (h : StabilizeStep none s m t) (hrtj : s.steps.get? j = some rtj) :
    ∃ rtj', t.steps.get? j = some rtj' ∧
      NodeStabilized rtj rtj' (movesOf j m.events) (startsOf j m.actions) := by
  cases h with
  | node _ hrt hpending hmove =>
    exact commit_stabilized hrt hpending hrtj (hmove.begins hpending) hmove.startsOf_of_ne
      (by rw [movesOf_nodeEvent, movesOf_nil, List.append_nil])
  | issue _ hrt hpending hmove =>
    exact commit_stabilized hrt hpending hrtj (hmove.begins hpending) (fun _ => rfl)
      (by rw [movesOf_nodeEvent, movesOf_nil, List.append_nil])
  | primaryIssue _ hrt hpending hmove =>
    rw [RuntimeState.advance_steps]
    exact commit_stabilized hrt hpending hrtj (hmove.begins hpending) (fun _ => rfl)
      (by rw [movesOf_nodeEvent, movesOf_workflow, List.append_nil])
  | @passed _ _ _ _ _ hrt hgate =>
    obtain ⟨_, rt₁, -, hrt₁, -, -, hpending, -⟩ := conditionGateReady_iff.mp hgate
    cases hrt.symm.trans hrt₁
    exact RuntimeState.setNode_view (P := fun a b => NodeStabilized a b [] []) hrt hrtj
      (fun _ => .still true (fun _ => hpending)) (fun _ => .same)
  | enter | finish => exact ⟨rtj, by simpa using hrtj, .same⟩

/-- A stabilization touches a node only while it is pending, and takes it further at most
once. -/
theorem Stabilizes.node (h : Stabilizes none r r') (hrt : r.state.steps.get? id = some rt) :
    ∃ m rt', r'.events = r.events ++ m.events ∧ r'.actions = r.actions ++ m.actions ∧
      r'.state.steps.get? id = some rt' ∧
      NodeStabilized rt rt' (movesOf id m.events) (startsOf id (m : Emission O C V D).actions) := by
  obtain ⟨m, t, hrun, rfl⟩ := h
  refine ⟨m, ?_⟩
  suffices ∃ rt', t.steps.get? id = some rt' ∧
      NodeStabilized rt rt' (movesOf id m.events) (startsOf id m.actions) by
    obtain ⟨rt', hrt', hview⟩ := this
    exact ⟨rt', rfl, rfl, hrt', hview⟩
  induction hrun with
  | refl => exact ⟨rt, hrt, .same⟩
  | tail _ hlast ih =>
    obtain ⟨rt₁, hrt₁, hview⟩ := ih
    obtain ⟨rt', hrt', hview'⟩ := hlast.node_view hrt₁
    refine ⟨rt', hrt', ?_⟩
    rw [Emission.mul_events, Emission.mul_actions, movesOf_append, startsOf_append]
    exact hview.trans hview'

end Stabilizing

variable [ConditionOutput V] [NodeFailureSource C] {o : Option (Occurrence O C V D)}

omit [ConditionOutput V] in
/-- A node that is still pending was left alone. -/
theorem NodeReduction.still_pending (h : NodeReduction o s id d rt rt' moves starts)
    (hpending : rt'.state = .pending) :
    ∃ passed, rt' = { rt with conditionPassed := passed } ∧ moves = [] ∧ starts = [] := by
  cases h with
  | still passed => exact ⟨passed, rfl, rfl, rfl⟩
  | lost hnote hstate =>
    obtain ⟨round, activity, hstate⟩ := hstate
    rw [hnote.1.state, hstate] at hpending
    cases hpending
  | begun _ _ hbegins => exact absurd hpending hbegins.leaves_pending
  | dropped | contained | completed => cases hpending
  | recontained _ _ hstate => rw [hstate] at hpending; cases hpending
  | moved _ hmove => cases hmove <;> cases hpending

omit [ConditionOutput V] in
/-- After the occurrence was applied, only a node that is still pending is touched again. -/
theorem NodeReduction.stabilized (h : NodeReduction o s id d rt rt' moves starts)
    (h' : NodeStabilized rt' rt'' moves' starts') :
    NodeReduction o s id d rt rt'' (moves ++ moves') (starts ++ starts') := by
  by_cases hpending : rt'.state = .pending
  · obtain ⟨passed, rfl, rfl, rfl⟩ := h.still_pending hpending
    cases h' with
    | still passed' => exact .still passed' (fun _ => hpending)
    | begun passed' _ hbegins => exact .begun passed' hpending hbegins
  · cases h' with
    | still passed' hpassed =>
      obtain rfl : passed' = rt'.conditionPassed := by
        by_contra hne
        exact hpending (hpassed hne)
      rwa [List.append_nil, List.append_nil]
    | begun _ hpending' => exact absurd hpending' hpending

theorem Applies.stabilized (h : Applies o r r') (accepted : Bool)
    (hnodes : NodesMatch r'.state) (hcoherent : r'.state.definition.Coherent)
    (hd : r.state.definition.steps.get? id = some d) (hrt : r.state.steps.get? id = some rt) :
    ∃ m rt', (stabilize { r' with occurrenceAccepted := accepted }).events = r.events ++ m.events ∧
      (stabilize { r' with occurrenceAccepted := accepted }).actions = r.actions ++ m.actions ∧
      (stabilize { r' with occurrenceAccepted := accepted }).state.steps.get? id = some rt' ∧
      NodeReduction o r.state id d rt rt' (movesOf id m.events)
        (startsOf id (m : Emission O C V D).actions) := by
  obtain ⟨m, t, -, rfl, hviews⟩ := h
  obtain ⟨rt₁, hrt₁, hview⟩ := hviews id d rt hd hrt
  have hstable : Stabilizes none { r.emit m t with occurrenceAccepted := accepted }
      (stabilize { r.emit m t with occurrenceAccepted := accepted }) :=
    stabilizeLoop_stabilizes _ _ hnodes hcoherent
  obtain ⟨n, rt', hevents, hactions, hrt', hview'⟩ := hstable.node hrt₁
  refine ⟨m * n, rt', ?_, ?_, hrt', ?_⟩
  · rw [Emission.mul_events, ← List.append_assoc]
    exact hevents
  · rw [Emission.mul_actions, ← List.append_assoc]
    exact hactions
  · rw [Emission.mul_events, Emission.mul_actions, movesOf_append, startsOf_append]
    exact hview.stabilized hview'

variable [ProvisionalStepResources O]

/-- What one reduction does to one node. -/
theorem reduce_node (hnodes : NodesMatch s) (hcoherent : s.definition.Coherent)
    (occurrence : Occurrence O C V D)
    (hd : s.definition.steps.get? id = some d) (hrt : s.steps.get? id = some rt) :
    ∃ rt', (reduce s occurrence).state.steps.get? id = some rt' ∧
      NodeReduction (some occurrence) s id d rt rt' (movesOf id (reduce s occurrence).events)
        (startsOf id (reduce s occurrence).actions) := by
  have happlies := applyOccurrence_applies (r := ⟨s, [], [], false⟩) hnodes occurrence
  have hreaches := happlies.reaches
  unfold reduce
  dsimp only
  split_ifs
  · refine ⟨rt, hrt, ?_⟩
    have hquiet : startsOf id (occurrenceResourceRelease occurrence).toList = [] := by
      cases occurrence <;> simp only [occurrenceResourceRelease, Option.toList_none, startsOf_nil]
      split_ifs <;> rfl
    simp only [discardOccurrence, movesOf_nil, hquiet]
    exact .same
  · obtain ⟨m, rt', hevents, hactions, hrt', hview⟩ := happlies.stabilized true
      (hreaches.nodesMatch hnodes) (by rw [hreaches.definition]; exact hcoherent) hd hrt
    rw [hevents, hactions, List.nil_append, List.nil_append]
    exact ⟨rt', hrt', hview⟩
  · obtain ⟨m, t, -, heq, hviews⟩ := happlies
    rw [heq]
    exact hviews id d rt hd hrt

omit [ProvisionalStepResources O] in
/-- What the start of a run does to one node. -/
theorem initialize_node {start : ExecutionStart D} {seed : ExecutionSeed V}
    (hcoherent : start.definition.Coherent) (hd : start.definition.steps.get? id = some d) :
    ∃ rt', (initializeSeededDefinition start seed :
        Reduction O C V D).state.steps.get? id = some rt' ∧
      NodeReduction (none : Option (Occurrence O C V D))
        (initialState start.definition seed) id d (initialStep seed id d) rt'
        (movesOf id (initializeSeededDefinition start seed : Reduction O C V D).events)
        (startsOf id (initializeSeededDefinition start seed : Reduction O C V D).actions) := by
  have happlies := (applyInitialCancellation_cancels
    (initialReduction start.definition seed : Reduction O C V D)
    start.initialCancellation (requested_none _)).applies
  have hreaches := happlies.reaches
  have hrt : (initialReduction start.definition seed : Reduction O C V D).state.steps.get? id =
      some (initialStep seed id d) := get?_initialState hd seed
  obtain ⟨m, rt', hevents, hactions, hrt', hview⟩ := happlies.stabilized
    (applyInitialCancellation (initialReduction start.definition seed :
      Reduction O C V D) start.initialCancellation).occurrenceAccepted
    (hreaches.nodesMatch (initialState_nodesMatch start.definition seed))
    (by rw [hreaches.definition]; exact hcoherent) hd hrt
  refine ⟨rt', hrt', ?_⟩
  unfold initializeSeededDefinition
  rw [hevents, hactions]
  exact hview

end ScherzoCloud.Workflow
