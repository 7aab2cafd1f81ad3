import ScherzoCloud.Workflow.CancellationContainment
import ScherzoCloud.Workflow.TransitionCeiling

/-!
# The identities of requested actions

An action is identified by the transition that requested it, or, when it forces
a node to stop, by the operation and an index above all transitions.  A node
remembers the identity of the last action requested for it, and a report is
accepted only under that identity.
-/

namespace ScherzoCloud.Workflow

open Collections
open RuntimeDefinition (fromAdmitted)
open RuntimeState (commit_forceAbort commit_view get?_commit_self get?_commit_of_ne setNode_view
  tick_steps)

variable {O C V D : Type} {deadline : D} {a : RequestedAction O C V D} {id : String}
  {action : ActionId} {index : Nat} {s t u : RuntimeState C V D} {m : Emission O C V D}
  {reason : CancellationReason} {ids : List String} {operation : CancellationOperationId}
  {o : Option (Occurrence O C V D)} {d : RuntimeStep} {rt rt' rtj : StepRuntimeState C V}
  {actions : List (RequestedAction O C V D)} {definition : RuntimeDefinition}
  {seed : ExecutionSeed V}

/-- The driver answers an action, unless it only releases resources. -/
def isAnswered (a : RequestedAction O C V D) : Bool :=
  match a.action with
  | .releaseStepResources _ => false
  | _ => true

/-- The number that identifies an action. -/
def ActionId.number (i : ActionId) : Nat := i.transitionSequence

/-- The identities under which answers are expected. -/
def identities (actions : List (RequestedAction O C V D)) : List ActionId :=
  (actions.filter isAnswered).map RequestedAction.id

/-- The node that an action is for. -/
def actionTarget (a : RequestedAction O C V D) : Option String :=
  match a.action with
  | .startStep id _ _ | .startRecoveryHandler id _ _ _ | .captureOutputs id _
  | .cancelStep id _ _ _ | .forceAbortStep id _ _ _ => some id
  | .releaseStepResources _ | .finishRun _ _ => none

/-- The identity of the last action that was requested for a node. -/
def latestAction (id : String) (actions : List (RequestedAction O C V D)) : Option ActionId :=
  (actions.filter (fun a => actionTarget a = some id)).getLast?.map RequestedAction.id

/-- The node and the action that a report is about. -/
def reportedInvocation : Occurrence O C V D → Option (String × ActionId)
  | .stepStarted step action | .stepStartFailed step action _
  | .stepExecutionCompleted step action _ | .stepExecutionFailed step action _
  | .outputsCaptured step action _ | .outputCaptureFailed step action _
  | .recoveryHandlerStarted step _ action | .recoveryHandlerStartFailed step _ action _
  | .recoveryHandlerCompleted step _ action _ | .recoveryHandlerExecutionFailed step _ action _
  | .stepQuiesced step action => some (step, action)
  | .cancellationOperationRequested _ _ _ | .ordinaryCancellationOperationRequested _ _ _
  | .forceAbortRequested _ _ => none

variable (as bs : List (RequestedAction O C V D))

@[simp] theorem identities_nil : identities ([] : List (RequestedAction O C V D)) = [] := rfl

@[simp] theorem identities_append : identities (as ++ bs) = identities as ++ identities bs := by
  simp [identities]

@[simp] theorem latestAction_nil (id : String) :
    latestAction id ([] : List (RequestedAction O C V D)) = none := rfl

theorem latestAction_append (id : String) :
    latestAction id (as ++ bs) = (latestAction id bs).or (latestAction id as) := by
  simp [latestAction, List.getLast?_append, Option.map_or]

theorem latestAction_singleton (id : String) :
    latestAction id [a] = if actionTarget a = some id then some a.id else none := by
  unfold latestAction
  split_ifs with h <;> simp [h]

theorem isAnswered_of_target (h : actionTarget a = some id) : isAnswered a = true := by
  obtain ⟨i, action⟩ := a
  cases action with
  | releaseStepResources => cases h
  | _ => rfl

theorem identities_cons (h : isAnswered a = true) :
    identities (a :: as) = a.id :: identities as := by
  simp [identities, h]

variable {as bs}

/-- When a node was asked for something later, the later part has its last identity. -/
theorem mem_identities_of_latest (hlater : ∃ later ∈ bs, actionTarget later = some id)
    (h : latestAction id (as ++ a :: bs) = some action) : action ∈ identities bs := by
  rw [List.append_cons, latestAction_append] at h
  cases hlatest : latestAction id bs with
  | none =>
    obtain ⟨later, hmem, htarget⟩ := hlater
    simp only [latestAction, Option.map_eq_none_iff, List.getLast?_eq_none_iff,
      List.filter_eq_nil_iff, decide_eq_true_eq] at hlatest
    exact absurd htarget (hlatest later hmem)
  | some =>
    rw [hlatest, Option.some_or] at h
    cases h
    obtain ⟨last, hlast, rfl⟩ := Option.map_eq_some_iff.mp hlatest
    obtain ⟨hmem, htarget⟩ := List.mem_filter.mp (List.mem_of_getLast? hlast)
    exact List.mem_map.mpr ⟨last, List.mem_filter.mpr
      ⟨hmem, isAnswered_of_target (of_decide_eq_true htarget)⟩, rfl⟩

theorem forForceAbort_mod (operation : CancellationOperationId) (h : index < 2 ^ 32) :
    (ActionId.forForceAbort operation index).number % 2 ^ 32 = index := by
  have hoperation : ((operation &&& 0x7fffffff) <<< 32) % 2 ^ 32 = 0 := by
    rw [Nat.shiftLeft_eq, Nat.mul_mod_left]
  have hindex : index &&& 0xffffffff = index := by
    rw [show (0xffffffff : Nat) = 2 ^ 32 - 1 from rfl, Nat.and_two_pow_sub_one_eq_mod,
      Nat.mod_eq_of_lt h]
  simp only [ActionId.number, ActionId.forForceAbort, Nat.or_mod_two_pow, hoperation, hindex,
    Nat.mod_eq_of_lt h]
  exact Nat.zero_or index

section Allocation

/-- Identities that a part of a run with `k` transitions allocates after `n` transitions. -/
structure Allocated (n k : Nat) (s t : RuntimeState C V D) (ids : List ActionId) : Prop where
  nodup : ids.Nodup
  range : ∀ i ∈ ids, n < i.number ∧ i.number ≤ n + k ∨
    2 ^ 63 ≤ i.number ∧ s.forceAbort = none ∧ t.forceAbort.isSome = true
  kept : s.forceAbort.isSome = true → t.forceAbort.isSome = true

variable {n : Nat}

theorem Allocated.none (hkept : t.forceAbort = s.forceAbort) {k : Nat} : Allocated n k s t [] :=
  ⟨List.nodup_nil, fun i hi => absurd hi List.not_mem_nil, fun h => by rwa [hkept]⟩

theorem Allocated.single (h : SequenceExact n s) (hle : n < s.definition.maximumTransitions)
    (hlt : n + 1 < 2 ^ 64) (hkept : t.forceAbort = s.forceAbort) :
    Allocated n 1 s t [s.actionId] := by
  refine ⟨List.nodup_singleton _, ?_, fun h => by rwa [hkept]⟩
  intro i hi
  rw [List.mem_singleton.mp hi]
  have hseq : s.actionId.number = n + 1 := h.nextSeq hle hlt
  exact Or.inl ⟨by omega, by omega⟩

/-- No identity has been allocated twice, as long as the ceiling was not exceeded. -/
structure IdentityLog (m : Emission O C V D) (s : RuntimeState C V D) : Prop where
  nodup : (identities m.actions).Nodup
  bounded : ∀ i ∈ identities m.actions, i.number ≤ m.events.length ∨
    2 ^ 63 ≤ i.number ∧ s.forceAbort.isSome = true

variable {k : Emission O C V D}

theorem IdentityLog.step (h : IdentityLog k s)
    (hstep : Allocated k.events.length m.events.length s t (identities m.actions))
    (hlt : k.events.length + m.events.length < 2 ^ 63) : IdentityLog (k * m) t := by
  refine ⟨?_, ?_⟩
  · rw [Emission.mul_actions, identities_append]
    refine List.nodup_append.mpr ⟨h.nodup, hstep.nodup, ?_⟩
    rintro i hi j hj rfl
    rcases h.bounded i hi with hold | ⟨hold, hforced⟩ <;>
      rcases hstep.range i hj with ⟨hnew, hnew'⟩ | ⟨hnew, hfirst, -⟩
    · omega
    · omega
    · omega
    · rw [hfirst] at hforced
      cases hforced
  · intro i hi
    rw [Emission.mul_actions, identities_append] at hi
    rw [Emission.mul_events, List.length_append]
    rcases List.mem_append.mp hi with hi | hi
    · rcases h.bounded i hi with hold | ⟨hold, hforced⟩
      · exact Or.inl (by omega)
      · exact Or.inr ⟨hold, hstep.kept hforced⟩
    · rcases hstep.range i hi with ⟨-, hnew⟩ | ⟨hnew, -, hforced⟩
      · exact Or.inl hnew
      · exact Or.inr ⟨hnew, hforced⟩

/-- A graceful cancellation identifies each containment by its transition. -/
theorem CancelRun.graceful_identities
    (h : CancelRun reason deadline none index ids s m t) (hs : SequenceExact n s)
    (hle : n + m.events.length ≤ s.definition.maximumTransitions)
    (hlt : n + m.events.length < 2 ^ 64) :
    (identities m.actions).Nodup ∧ ∀ i ∈ identities m.actions,
      n < i.number ∧ i.number ≤ n + m.events.length := by
  induction h generalizing n with
  | nil => exact ⟨List.nodup_nil, fun _ hi => nomatch hi⟩
  | @cons index next id ids s t u m k hmove hrest ih =>
    rw [Emission.mul_events, List.length_append] at hle hlt ⊢
    rw [Emission.mul_actions, identities_append]
    have hcons : ∀ {n' : Nat}, SequenceExact n' t → n ≤ n' → n' ≤ n + m.events.length →
        (∀ i ∈ identities m.actions, n < i.number ∧ i.number ≤ n') →
        (identities m.actions).Nodup →
        (identities m.actions ++ identities k.actions).Nodup ∧
          ∀ i ∈ identities m.actions ++ identities k.actions, n < i.number ∧
            i.number ≤ n + (m.events.length + k.events.length) := by
      intro n' ht hn hn' hrange hnodup
      obtain ⟨hnodup', hrange'⟩ := ih ht (by rw [hmove.definition]; omega) (by omega)
      refine ⟨List.nodup_append.mpr ⟨hnodup, hnodup', ?_⟩, ?_⟩
      · rintro i hi j hj rfl
        have hbefore := (hrange i hi).2
        have hafter := (hrange' i hj).1
        omega
      · intro i hi
        rcases List.mem_append.mp hi with hi | hi
        · have hbounds := hrange i hi
          omega
        · have hbounds := hrange' i hi
          omega
    cases hmove with
    | drop =>
      exact hcons (hs.commit _ _) (Nat.le_succ n) (Nat.le_refl _) (fun _ hi => nomatch hi)
        List.nodup_nil
    | contain =>
      simp only [List.length_singleton] at hle hlt
      have hseq : s.actionId.number = n + 1 :=
        hs.nextSeq (by omega) (by omega)
      refine hcons (hs.commit _ _) (Nat.le_succ n) (Nat.le_refl _) ?_ (List.nodup_singleton _)
      intro i hi
      obtain rfl : i = s.actionId := List.mem_singleton.mp hi
      omega
    | escalate _ _ hforce => cases hforce
    | pass =>
      exact hcons hs (Nat.le_refl n) (Nat.le_refl _) (fun _ hi => nomatch hi) List.nodup_nil

/-- A force abort numbers its containments. -/
theorem CancelRun.forced_identities (h : CancelRun reason deadline (some operation) index ids s m t)
    : ∃ indices : List Nat, identities m.actions = indices.map (ActionId.forForceAbort operation) ∧
      indices.Pairwise (· < ·) ∧ ∀ i ∈ indices, index ≤ i ∧ i < index + ids.length := by
  generalize hforce : some operation = force at h
  induction h with
  | nil => exact ⟨[], rfl, List.Pairwise.nil, fun _ hi => nomatch hi⟩
  | @cons index next id ids s t u m k hmove hrest ih =>
    obtain ⟨indices, hindices, hsorted, hrange⟩ := ih
    subst hforce
    -- a move that requests nothing, or one that takes the next index
    have hsame : identities m.actions = [] → index ≤ next ∧ next ≤ index + 1 →
        ∃ indices : List Nat,
          identities (m * k).actions = indices.map (ActionId.forForceAbort operation) ∧
          indices.Pairwise (· < ·) ∧ ∀ i ∈ indices, index ≤ i ∧ i < index + (id :: ids).length := by
      intro hnone hnext
      refine ⟨indices, by simp [hnone, hindices], hsorted, fun i hi => ?_⟩
      have hbounds := hrange i hi
      rw [List.length_cons]
      omega
    have htaken : identities m.actions = [ActionId.forForceAbort operation index] →
        next = index + 1 → ∃ indices : List Nat,
          identities (m * k).actions = indices.map (ActionId.forForceAbort operation) ∧
          indices.Pairwise (· < ·) ∧ ∀ i ∈ indices, index ≤ i ∧ i < index + (id :: ids).length := by
      rintro hone rfl
      refine ⟨index :: indices, by simp [hone, hindices], ?_, fun i hi => ?_⟩
      · exact List.pairwise_cons.mpr ⟨fun i hi => (hrange i hi).1, hsorted⟩
      · rw [List.length_cons]
        rcases List.mem_cons.mp hi with rfl | hi
        · omega
        · have hbounds := hrange i hi
          omega
    cases hmove with
    | drop | pass => exact hsame rfl ⟨Nat.le_refl _, Nat.le_succ _⟩
    | contain => exact htaken rfl rfl
    | @escalate rt =>
      rcases Option.eq_none_or_eq_some rt.activeInvocation with hactive | ⟨active, hactive⟩
      · exact hsame (by simp [hactive]) ⟨Nat.le_succ _, Nat.le_refl _⟩
      · exact htaken (by simp [hactive]; rfl) rfl

theorem CancelRun.graceful_allocated (h : CancelRun reason deadline none index ids u m t)
    (hu : SequenceExact (n + 1) u)
    (hle : n + (1 + m.events.length) ≤ u.definition.maximumTransitions)
    (hlt : n + (1 + m.events.length) < 2 ^ 64) (hkept : u.forceAbort = s.forceAbort) :
    Allocated n (1 + m.events.length) s t (identities m.actions) := by
  obtain ⟨hnodup, hrange⟩ := h.graceful_identities hu (by omega) (by omega)
  refine ⟨hnodup, fun i hi => Or.inl ?_, fun hforced => ?_⟩
  · have hbounds := hrange i hi
    omega
  · rwa [h.frame.2.2, hkept]

/-- The identities of a force abort are distinct and above those of all transitions. -/
theorem CancelRun.forced_allocated {k : Nat}
    (h : CancelRun reason deadline (some operation) 1 ids u m t) (hsize : ids.length < 2 ^ 32 - 1)
    (hfirst : s.forceAbort = none) (hforced : u.forceAbort.isSome = true) :
    Allocated n k s t (identities m.actions) := by
  obtain ⟨indices, hindices, hsorted, hrange⟩ := h.forced_identities
  have hkept : t.forceAbort.isSome = true := by rwa [h.frame.2.2]
  refine ⟨?_, ?_, fun _ => hkept⟩
  · rw [hindices, List.Nodup, List.pairwise_map]
    refine hsorted.imp_of_mem ?_
    intro i j hi hj hlt heq
    have hi' := forForceAbort_mod operation (show i < 2 ^ 32 by have := hrange i hi; omega)
    have hj' := forForceAbort_mod operation (show j < 2 ^ 32 by have := hrange j hj; omega)
    rw [heq, hj'] at hi'
    omega
  · intro i hi
    rw [hindices] at hi
    obtain ⟨index, -, rfl⟩ := List.mem_map.mp hi
    exact Or.inr ⟨le_trans Nat.left_le_or Nat.left_le_or, hfirst, hkept⟩

variable [ConditionOutput V]

/-- A move that requests an action identifies it by its transition. -/
theorem NodeMove.identities (h : NodeMove o s id d rt rt' actions) :
    identities actions = [] ∨ identities actions = [s.actionId] := by
  cases h with
  | start | retry | recheck | capture | recover => exact Or.inr rfl
  | run | succeed | handlerRunning | skip | failureStop | notSelected | forcedCancel | quiesce =>
    exact Or.inl rfl

/-- The identities that one step allocates. -/
theorem ReducerStep.allocated (hstep : ReducerStep o s m t) (hs : SequenceExact n s)
    (hle : n + m.events.length ≤ s.definition.maximumTransitions)
    (hlt : n + m.events.length < 2 ^ 63) (hsize : s.definition.steps.size < 2 ^ 32 - 1) :
    Allocated n m.events.length s t (identities m.actions) := by
  have hnodes : ∀ role, ((nodesOfRole s role).map Prod.fst).length < 2 ^ 32 - 1 := fun role => by
    rw [List.length_map]
    exact (List.length_filterMap_le _ _).trans_lt hsize
  cases hstep with
  | node _ _ hmove =>
    simp only [List.length_singleton] at hle hlt
    rcases hmove.identities with hnone | hone
    · rw [hnone]
      exact .none (commit_forceAbort ..)
    · rw [hone]
      exact .single hs (by omega) (by omega) (commit_forceAbort ..)
  | complete | issue | primaryIssue | note | passed | operation | enter =>
    exact .none (by simp)
  | release => exact .none rfl
  | finish =>
    simp only [List.length_singleton] at hle hlt
    exact .single hs (by omega) (by omega) (by simp)
  | cancelOrdinary _ _ hcancel | cancelFinalization _ hcancel =>
    rw [Emission.mul_events, List.length_append, List.length_singleton] at hle hlt ⊢
    exact hcancel.graceful_allocated (SequenceExact.tick (hs.congr rfl rfl rfl))
      (by simpa using hle) (by omega) (RuntimeState.tick_forceAbort _)
  | forceOrdinary _ hfirst hcancel =>
    exact hcancel.forced_allocated (hnodes .step) hfirst (by simp [RuntimeState.forceOrdinary])
  | forceFinalization _ hfirst hcancel =>
    exact hcancel.forced_allocated (hnodes .finalizer) hfirst
      (by simp [RuntimeState.forceFinalization])

/-- Before the ceiling is exceeded, no identity is allocated twice. -/
theorem Reachable.identities_nodup (h : Reachable definition seed m s)
    (hle : m.events.length ≤ definition.maximumTransitions) (hlt : m.events.length < 2 ^ 63)
    (hsize : definition.steps.size < 2 ^ 32 - 1) : (identities m.actions).Nodup := by
  have hlog : m.events.length ≤ definition.maximumTransitions → m.events.length < 2 ^ 63 →
      IdentityLog m s := by
    refine h.induction (I := fun m s => m.events.length ≤ definition.maximumTransitions →
      m.events.length < 2 ^ 63 → IdentityLog m s) ?_ ?_
    · exact fun _ _ => ⟨List.nodup_nil, fun i hi => absurd hi List.not_mem_nil⟩
    · intro o m s n t hreach hs hstep hle hlt
      rw [Emission.mul_events, List.length_append] at hle hlt
      refine (hs (by omega) (by omega)).step (hstep.allocated hreach.sequence ?_ hlt ?_) hlt
      · rwa [hreach.definition_eq]
      · rwa [hreach.definition_eq]
  exact (hlog hle hlt).nodup

end Allocation

section Latest

variable {j : String} {rt'' : StepRuntimeState C V} {as bs : List (RequestedAction O C V D)}

/-- The current action of a node is the last one requested for it, or else the one it had. -/
def Follows (actions : List (RequestedAction O C V D)) (id : String)
    (rt rt' : StepRuntimeState C V) : Prop :=
  ∀ a, rt'.currentAction = some a → (latestAction id actions).or rt.currentAction = some a

theorem Follows.trans (h : Follows as id rt rt') (h' : Follows bs id rt' rt'') :
    Follows (as ++ bs) id rt rt'' := by
  intro a ha
  have hlater := h' a ha
  rw [latestAction_append]
  cases hlatest : latestAction id bs with
  | some =>
    rw [hlatest] at hlater
    exact hlater
  | none =>
    rw [hlatest, Option.none_or] at hlater
    exact h a hlater

theorem Follows.of_none (hnone : latestAction id as = none)
    (hcurrent : rt'.currentAction = rt.currentAction ∨ rt'.currentAction = none) :
    Follows as id rt rt' := by
  intro a ha
  rw [hnone, Option.none_or]
  rcases hcurrent with hsame | hcleared
  · rwa [← hsame]
  · rw [hcleared] at ha
    cases ha

theorem Follows.of_latest (h : latestAction id as = rt'.currentAction) : Follows as id rt rt' := by
  intro a ha
  rw [h, ha]
  rfl

/-- A node that keeps its runtime state follows actions for others. -/
theorem commit_follows (hrt : s.steps.get? id = some rt) (hrtj : s.steps.get? j = some rtj)
    (hself : Follows as id rt rt') (hother : j ≠ id → latestAction j as = none) :
    ∃ rtj', (s.commit id rt').steps.get? j = some rtj' ∧ Follows as j rtj rtj' :=
  commit_view hrt hrtj (fun hj => hj ▸ hself) (fun hj => .of_none (hother hj) (Or.inl rfl))

variable {force : Option CancellationOperationId} {next : Nat}

theorem latestAction_containment (active : ActiveStepInvocation) :
    latestAction j [(containment reason deadline force s index id active :
      RequestedAction O C V D)] =
      if id = j then some (containmentId force s index) else none := by
  rw [latestAction_singleton]
  cases force <;> simp [containment, actionTarget]

theorem CancelMove.follows (h : CancelMove reason deadline force index s id next m t)
    (hrt : s.steps.get? j = some rt) (hactive : ActiveIdentified rt) :
    ∃ rt', t.steps.get? j = some rt' ∧ Follows m.actions j rt rt' := by
  by_cases hj : j = id
  · subst hj
    cases h with
    | drop _ hrt' =>
      cases hrt.symm.trans hrt'
      exact ⟨_, get?_commit_self hrt _, .of_none rfl (Or.inr rfl)⟩
    | contain _ hrt' =>
      cases hrt.symm.trans hrt'
      exact ⟨_, get?_commit_self hrt _, .of_latest (by rw [latestAction_containment, if_pos rfl])⟩
    | @escalate _ _ hrt' hstate =>
      cases hrt.symm.trans hrt'
      obtain ⟨active, hinvocation⟩ :=
        Option.isSome_iff_exists.mp (hactive (by rw [hstate]; rfl)).1
      refine ⟨_, RuntimeState.get?_setNode_self hrt _, .of_latest ?_⟩
      simp only [hinvocation, Option.toList_some, List.map_cons, List.map_nil,
        latestAction_containment, if_true]
    | pass => exact ⟨rt, hrt, .of_none rfl (Or.inl rfl)⟩
  · refine ⟨rt, by rw [h.get?_of_ne hj, hrt], .of_none ?_ (Or.inl rfl)⟩
    have hother : ∀ active, latestAction j [(containment reason deadline force s index id active :
        RequestedAction O C V D)] = none := by
      intro active
      rw [latestAction_containment, if_neg (Ne.symm hj)]
    cases h with
    | drop | pass => rfl
    | contain => exact hother _
    | @escalate rt₀ =>
      rcases Option.eq_none_or_eq_some rt₀.activeInvocation with hnone | ⟨active, hsome⟩
      · simp [hnone]
      · simpa [hsome] using hother active

theorem CancelRun.follows (h : CancelRun reason deadline force index ids s m t)
    (hrt : s.steps.get? j = some rt) (hactive : ActiveIdentified rt) :
    ∃ rt', t.steps.get? j = some rt' ∧ Follows m.actions j rt rt' := by
  induction h generalizing rt with
  | nil => exact ⟨rt, hrt, .of_none rfl (Or.inl rfl)⟩
  | @cons index next id _ s t u m n hmove _ ih =>
    obtain ⟨rt₁, hrt₁, hfirst⟩ := hmove.follows hrt hactive
    have hactive₁ : ActiveIdentified rt₁ := by
      by_cases hj : j = id
      · subst hj
        obtain ⟨rt₂, hrt₂, hcontained⟩ := hmove.node hrt
        cases hrt₁.symm.trans hrt₂
        exact hcontained.activeIdentified hactive
      · rw [hmove.get?_of_ne hj, hrt] at hrt₁
        cases hrt₁
        exact hactive
    obtain ⟨rt₂, hrt₂, hrest⟩ := ih hrt₁ hactive₁
    exact ⟨rt₂, hrt₂, hfirst.trans hrest⟩

variable [ConditionOutput V]

theorem NodeMove.follows (h : NodeMove o s id d rt rt' actions) : Follows actions id rt rt' := by
  cases h with
  | start | retry | recheck | capture | recover =>
    exact .of_latest (by rw [latestAction_singleton]; exact if_pos rfl)
  | run | handlerRunning => exact .of_none rfl (Or.inl rfl)
  | succeed | skip | failureStop | notSelected | forcedCancel | quiesce =>
    exact .of_none rfl (Or.inr rfl)

theorem NodeMove.latestAction_of_ne (h : NodeMove o s id d rt rt' actions) (hj : j ≠ id) :
    latestAction j actions = none := by
  cases h with
  | start | retry | recheck | capture | recover =>
    rw [latestAction_singleton]
    exact if_neg (fun heq => hj (Option.some.inj heq).symm)
  | run | succeed | handlerRunning | skip | failureStop | notSelected | forcedCancel | quiesce =>
    rfl

theorem IssueMove.currentAction {issue : PrimaryIssue} (h : IssueMove s id d rt rt' issue) :
    rt'.currentAction = none := by
  cases h <;> rfl

/-- A step from the point of view of one node's current action. -/
theorem ReducerStep.follows (hstep : ReducerStep o s m t) (hrt : s.steps.get? j = some rt)
    (hactive : ActiveIdentified rt) :
    ∃ rt', t.steps.get? j = some rt' ∧ Follows m.actions j rt rt' := by
  cases hstep with
  | node _ hrt' hmove =>
    exact commit_follows hrt' hrt hmove.follows (fun hj => hmove.latestAction_of_ne hj)
  | @complete id _ _ _ hrt' =>
    by_cases hj : j = id
    · subst hj
      exact ⟨_, get?_commit_self (get?_commit_self hrt' _) _, .of_none rfl (Or.inr rfl)⟩
    · refine ⟨rt, ?_, .of_none rfl (Or.inl rfl)⟩
      rw [get?_commit_of_ne hj, get?_commit_of_ne hj, hrt]
  | issue _ hrt' hmove =>
    exact commit_follows hrt' hrt (.of_none rfl (Or.inr hmove.currentAction)) (fun _ => rfl)
  | primaryIssue _ hrt' hmove =>
    rw [RuntimeState.advance_steps]
    exact commit_follows hrt' hrt (.of_none rfl (Or.inr hmove.currentAction)) (fun _ => rfl)
  | note hrt' hnote =>
    exact setNode_view hrt' hrt
      (fun _ => .of_none rfl (Or.inl hnote.1.currentAction)) (fun _ => .of_none rfl (Or.inl rfl))
  | passed _ hrt' =>
    exact setNode_view hrt' hrt (fun _ => .of_none rfl (Or.inl rfl))
      (fun _ => .of_none rfl (Or.inl rfl))
  | release | operation => exact ⟨rt, hrt, .of_none rfl (Or.inl rfl)⟩
  | cancelOrdinary _ _ hcancel | cancelFinalization _ hcancel | forceOrdinary _ _ hcancel
  | forceFinalization _ _ hcancel =>
    exact hcancel.follows ((congrArg (BTreeMap.get? · j) (tick_steps _)).trans hrt) hactive
  | enter | finish => exact ⟨rt, by simpa using hrt, .of_none rfl (Or.inl rfl)⟩

/-- The current action of a node is the last one that was requested for it. -/
theorem Reachable.current_latest (h : Reachable definition seed m s) {a : ActionId}
    (hrt : s.steps.get? id = some rt) (ha : rt.currentAction = some a) :
    latestAction id m.actions = some a := by
  have hall : ∀ rt, s.steps.get? id = some rt → ∀ a, rt.currentAction = some a →
      latestAction id m.actions = some a := by
    refine h.induction (I := fun m s => ∀ rt, s.steps.get? id = some rt → ∀ a,
      rt.currentAction = some a → latestAction id m.actions = some a) ?_ ?_
    · intro rt hrt a ha
      obtain ⟨d, -, rfl⟩ : ∃ d, definition.steps.get? id = some d ∧ initialStep seed id d = rt := by
        simpa [initialState, Option.map_eq_some_iff] using hrt
      unfold initialStep at ha
      split at ha <;> cases ha
    · intro o m s n t hreach hs hstep rt' hrt' a ha
      have hnext : Reachable definition seed (m * n) t := hreach.tail ⟨o, hstep⟩
      obtain ⟨d, hd⟩ := hnext.nodesMatch.definition hrt'
      rw [hstep.definition] at hd
      obtain ⟨rt, hrt⟩ := hreach.nodesMatch.runtime hd
      have hactive := hreach.active_identified (hreach.definition_eq ▸ hd) hrt
      obtain ⟨rt₁, hrt₁, hfollows⟩ := hstep.follows hrt hactive
      cases hrt'.symm.trans hrt₁
      rw [Emission.mul_actions, latestAction_append]
      have hnow := hfollows a ha
      cases hlatest : latestAction id n.actions with
      | some =>
        rw [hlatest] at hnow
        exact hnow
      | none =>
        rw [hlatest, Option.none_or] at hnow
        exact hs rt hrt a hnow
  exact hall rt hrt a ha

end Latest

theorem accepts_of_applied {accepts : Bool} {refused : Reduction O C V D}
    {applied : Bool × Reduction O C V D}
    (h : (if !accepts then (false, refused) else applied).1 = true) : accepts = true := by
  cases accepts with
  | false => exact h
  | true => rfl

variable [ProvisionalStepResources O] [NodeFailureSource C] {step : String}
  {occurrence : Occurrence O C V D}

/-- A report is applied only under the current action of its node. -/
theorem applyOccurrence_current {r : Reduction O C V D}
    (h : (applyOccurrence r occurrence).1 = true)
    (hreport : reportedInvocation occurrence = some (step, action)) :
    ∃ rt, r.state.steps.get? step = some rt ∧ rt.currentAction = some action := by
  have hstep : ∀ {kind}, stepAccepts r.state step kind action = true →
      ∃ rt, r.state.steps.get? step = some rt ∧ rt.currentAction = some action := by
    intro kind haccepts
    obtain ⟨rt, hrt, -, hcurrent⟩ := stepAccepts_iff.mp haccepts
    exact ⟨rt, hrt, hcurrent⟩
  have hhandler : ∀ {round activity}, handlerAccepts r.state step round activity action = true →
      ∃ rt, r.state.steps.get? step = some rt ∧ rt.currentAction = some action := by
    intro round activity haccepts
    obtain ⟨rt, hrt, hcurrent, -⟩ := handlerAccepts_iff.mp haccepts
    exact ⟨rt, hrt, hcurrent⟩
  cases occurrence <;>
    simp only [reportedInvocation, Option.some.injEq, Prod.mk.injEq, reduceCtorEq] at hreport <;>
    obtain ⟨rfl, rfl⟩ := hreport
  case stepStarted => exact hstep (accepts_of_applied h)
  case stepStartFailed | stepExecutionFailed | outputCaptureFailed =>
    unfold applyOccurrence applyStepFailure at h
    exact hstep (accepts_of_applied h)
  case stepExecutionCompleted =>
    unfold applyOccurrence applyExecutionCompleted at h
    exact hstep (accepts_of_applied h)
  case outputsCaptured =>
    unfold applyOccurrence applyOutputsCaptured at h
    simp only [← Bool.not_and] at h
    exact hstep (Bool.and_eq_true_iff.mp (accepts_of_applied h)).1
  case recoveryHandlerStarted =>
    unfold applyOccurrence applyHandlerStarted at h
    exact hhandler (accepts_of_applied h)
  case recoveryHandlerCompleted =>
    unfold applyOccurrence applyHandlerDecision at h
    exact hhandler (accepts_of_applied h)
  case recoveryHandlerStartFailed | recoveryHandlerExecutionFailed =>
    unfold applyOccurrence applyHandlerFailure at h
    exact hhandler (accepts_of_applied h)
  case stepQuiesced step action =>
    unfold applyOccurrence applyQuiesced at h
    dsimp only at h
    split at h
    · cases h
    · rename_i reason active hcancelling
      obtain ⟨rt, hrt, -, hcurrent, -⟩ := cancellingStep_eq_some_iff.mp hcancelling
      exact ⟨rt, hrt, hcurrent⟩

variable [ConditionOutput V]

/-- The answered actions of a run have distinct identities; a report is accepted only under the
identity that was requested last for its node, so none about an earlier action of the node is. -/
theorem invocation_identity {decoded : DecodedDocument} {workflow : ValidatedWorkflow}
    (hvalid : validate decoded.document = .ok workflow)
    (inputs : BTreeMap String ResolvedInput)
    (parallel transitions : Nat)
    (initial : Option (InitialCancellation D))
    (seed : ExecutionSeed V)
    (occurrences : List (Occurrence O C V D))
    {run : Reduction O C V D}
    (hrun : run = ledger ⟨fromAdmitted workflow inputs parallel transitions,
      initial⟩ seed occurrences)
    (hwithin : run.state.transitionCapacityExceeded = false) :
    (identities run.actions).Nodup ∧
    ∀ (occurrence : Occurrence O C V D) (step : String)
      (action : ActionId), reportedInvocation occurrence = some (step, action) →
      (reduce run.state occurrence).occurrenceAccepted = true →
        latestAction step run.actions = some action ∧
        ∀ before earlier after, run.actions = before ++ earlier :: after →
          actionTarget earlier = some step → (∃ later ∈ after, actionTarget later = some step) →
            earlier.id ≠ action := by
  have hcoherent := fromAdmitted_coherent hvalid inputs parallel transitions
  have hreach := ledger_reachable
    ⟨fromAdmitted workflow inputs parallel transitions, initial⟩ seed hcoherent
    occurrences
  rw [← hrun] at hreach
  have hlt := hreach.length_events_lt hvalid decoded.structural
  have hle := (hreach.within (hlt.trans (by decide))).mp hwithin
  have hnodup : (identities run.actions).Nodup := by
    refine hreach.identities_nodup hle hlt ?_
    exact Nat.lt_of_le_of_lt (validate_accepted hvalid).nodes_size_le (by decide)
  refine ⟨hnodup, ?_⟩
  intro occurrence step action hreport haccepted
  obtain ⟨rt, hrt, hcurrent⟩ := applyOccurrence_current
    (reduce_accepted hreach.nodesMatch haccepted).1 hreport
  have hlatest : latestAction step run.actions = some action := hreach.current_latest hrt hcurrent
  refine ⟨hlatest, ?_⟩
  intro before earlier after hactions htarget hlater heq
  rw [hactions] at hlatest hnodup
  have hmem : action ∈ identities after := mem_identities_of_latest hlater hlatest
  rw [identities_append, identities_cons after (isAnswered_of_target htarget)] at hnodup
  exact (List.nodup_cons.mp (List.nodup_append.mp hnodup).2.1).1 (heq ▸ hmem)

/-- The only step runs to its capture. -/
def capturingBuild : Reduction Unit FailureDetail String Nat :=
  ledger ⟨fromAdmitted (acceptedWorkflow singleDocument) .empty 1 8,
    none⟩ .empty
    [.stepStarted "build" ⟨1⟩, .stepExecutionCompleted "build" ⟨1⟩ ()]

theorem capturingBuild_identity : (identities capturingBuild.actions).Nodup ∧
    latestAction "build" capturingBuild.actions = some ⟨3⟩ := by
  obtain ⟨hnodup, hreports⟩ := invocation_identity
    (show validate singleDecoded.document = _ from singleDocument_accepted) .empty 1 8 none
    .empty _ (show capturingBuild = _ from rfl) (by decide)
  refine ⟨hnodup, (hreports (.outputsCaptured "build" ⟨3⟩ (.ofList [("log", "done")]))
    "build" ⟨3⟩ rfl (by decide)).1⟩

end ScherzoCloud.Workflow
