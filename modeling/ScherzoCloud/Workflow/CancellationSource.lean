import ScherzoCloud.Workflow.RuntimeState

/-!
# Requests for cancellation

The source of an execution takes requests from any thread.  A request is decided under
a lock, where an accepted one is queued as an operation and becomes the reason of the
current phase; what it decided is written to two watch channels after the lock was
released.  The coordinator moves the source from the ordinary to the finalization
phase in two steps, around its commit.

An interleaving is a sequence of steps, where the section under the lock and each
write are one step each.
-/

namespace ScherzoCloud.Workflow

variable {index : Nat}

inductive CancellationOperation where
  | graceful (id : CancellationOperationId) (reason : CancellationReason)
  | ordinaryOnly (id : CancellationOperationId) (reason : CancellationReason)
  | forceAbort (id : CancellationOperationId)
  deriving DecidableEq

def CancellationOperation.reason : CancellationOperation → CancellationReason
  | .graceful _ reason | .ordinaryOnly _ reason => reason
  | .forceAbort _ => .forceAbort

structure CancellationOperationState where
  operations : List CancellationOperation
  nextId : Nat
  finalizationArming : Bool
  finalizationArmed : Bool
  pendingFinalizationReason : Option CancellationReason
  pendingForceAbort : Bool
  phaseReason : Option CancellationReason
  forceAbortRequested : Bool
  deriving DecidableEq

/-- The writes that a section under the lock leaves to its call. -/
structure Admission where
  reason : Option (Option CancellationReason)
  version : Option Nat
  deriving DecidableEq

namespace CancellationOperationState

def new : CancellationOperationState where
  operations := []
  nextId := 1
  finalizationArming := false
  finalizationArmed := false
  pendingFinalizationReason := none
  pendingForceAbort := false
  phaseReason := none
  forceAbortRequested := false

variable (state : CancellationOperationState)

/-- The operation with the next identifier at the end of the queue. -/
def push (operation : CancellationOperationId → CancellationOperation) :
    CancellationOperationState :=
  { state with
    operations := state.operations ++ [operation state.nextId]
    nextId := min (state.nextId + 1) (2 ^ 64 - 1) }

/-- The queue after a graceful request was accepted for the current phase. -/
def accept (operation : CancellationOperationId → CancellationReason → CancellationOperation)
    (reason : CancellationReason) : CancellationOperationState × Option Admission :=
  let state := { state with phaseReason := some reason }.push (operation · reason)
  (state, some ⟨some (some reason), some state.operations.length⟩)

def requestCancellation (reason : CancellationReason) :
    CancellationOperationState × Option Admission :=
  if reason = .forceAbort then (state, none)
  else if state.finalizationArming then
    if state.pendingFinalizationReason.isSome || state.pendingForceAbort then (state, none)
    else ({ state with pendingFinalizationReason := some reason }, none)
  else if state.phaseReason.isSome || state.forceAbortRequested then (state, none)
  else state.accept .graceful reason

def requestOrdinaryCancellation (reason : CancellationReason) :
    CancellationOperationState × Option Admission :=
  if reason = .forceAbort then (state, none)
  else if state.finalizationArming || state.finalizationArmed then (state, none)
  else if state.phaseReason.isSome || state.forceAbortRequested then (state, none)
  else state.accept .ordinaryOnly reason

/-- The queue with a force abort, which is the reason of a phase that has none. -/
def pushForceAbort : CancellationOperationState :=
  { state with
    forceAbortRequested := true
    phaseReason := state.phaseReason.or (some .forceAbort) }.push .forceAbort

def requestForceAbort : CancellationOperationState × Option Admission :=
  if state.finalizationArming then
    if state.forceAbortRequested || state.pendingForceAbort then (state, none)
    else ({ state with pendingForceAbort := true }, none)
  else if state.forceAbortRequested then (state, none)
  else
    (state.pushForceAbort,
      some ⟨if state.phaseReason.isNone then some (some .forceAbort) else none,
        some state.pushForceAbort.operations.length⟩)

def beginFinalizationArm : CancellationOperationState :=
  if state.finalizationArming || state.finalizationArmed then state
  else { state with finalizationArming := true }

/-- The finalization phase before the requests that waited for it are queued. -/
def armed : CancellationOperationState :=
  { state with
    finalizationArming := false
    finalizationArmed := true
    phaseReason := none
    pendingFinalizationReason := none }

def queuePendingReason (reason : Option CancellationReason) : CancellationOperationState :=
  match reason with
  | some reason => { state with phaseReason := some reason }.push (.graceful · reason)
  | none => state

def queuePendingForceAbort : CancellationOperationState :=
  if state.pendingForceAbort && !state.forceAbortRequested then
    { state with pendingForceAbort := false }.pushForceAbort
  else state

def completeFinalizationArm : CancellationOperationState × Option Admission :=
  if !state.finalizationArming || state.finalizationArmed then (state, none)
  else
    let next := (state.armed.queuePendingReason state.pendingFinalizationReason)
      |>.queuePendingForceAbort
    (next, some ⟨some next.phaseReason,
      if state.operations.length < next.operations.length then some next.operations.length
      else none⟩)

def abortFinalizationArm : CancellationOperationState :=
  if !state.finalizationArming || state.finalizationArmed then state
  else { state with
    finalizationArming := false
    pendingFinalizationReason := none
    pendingForceAbort := false }

end CancellationOperationState

/-- The calls on a source; the last three are made by the coordinator. -/
inductive CancellationCall where
  | requestCancellation (reason : CancellationReason)
  | requestOrdinaryCancellation (reason : CancellationReason)
  | requestForceAbort
  | beginFinalizationArm
  | completeFinalizationArm
  | abortFinalizationArm
  deriving DecidableEq

/-- The section of a call under the lock. -/
def CancellationCall.decide (call : CancellationCall) (state : CancellationOperationState) :
    CancellationOperationState × Option Admission :=
  match call with
  | .requestCancellation reason => state.requestCancellation reason
  | .requestOrdinaryCancellation reason => state.requestOrdinaryCancellation reason
  | .requestForceAbort => state.requestForceAbort
  | .beginFinalizationArm => (state.beginFinalizationArm, none)
  | .completeFinalizationArm => state.completeFinalizationArm
  | .abortFinalizationArm => (state.abortFinalizationArm, none)

/-- A call that has still to write what it decided, and whether it armed finalization. -/
structure OpenCall where
  arms : Bool
  writes : Admission
  deriving DecidableEq

/-- The source with the calls in progress, in the order of their sections under the lock.
`ordinary` is the number of operations that were queued before finalization was armed. -/
structure CancellationSystem where
  state : CancellationOperationState
  reason : Option CancellationReason
  operationVersion : Nat
  calls : List OpenCall
  ordinary : Nat
  deriving DecidableEq

inductive CancellationStep where
  | lock (call : CancellationCall)
  | write (index : Nat)
  deriving DecidableEq

namespace CancellationSystem

def new : CancellationSystem := ⟨.new, none, 0, [], 0⟩

def lock (system : CancellationSystem) (call : CancellationCall) : CancellationSystem :=
  let (state, admission) := call.decide system.state
  let arms := state.finalizationArmed && !system.state.finalizationArmed
  { system with
    state
    calls := system.calls ++ (admission.map (⟨arms, ·⟩)).toList
    ordinary := if arms then system.state.operations.length else system.ordinary }

/-- The next write of a call: the reason, if it writes one, and then the version, after
which it returns. -/
def write (system : CancellationSystem) (index : Nat) : CancellationSystem :=
  match system.calls[index]? with
  | none => system
  | some ⟨arms, some reason, version⟩ =>
    { system with reason, calls := system.calls.set index ⟨arms, none, version⟩ }
  | some ⟨_, none, version⟩ =>
    { system with
      operationVersion := version.getD system.operationVersion
      calls := system.calls.eraseIdx index }

def step (system : CancellationSystem) : CancellationStep → CancellationSystem
  | .lock call => system.lock call
  | .write index => system.write index

def run (steps : List CancellationStep) : CancellationSystem := steps.foldl step new

def cancellationReason (system : CancellationSystem) : Option CancellationReason := system.reason

end CancellationSystem

namespace CancellationOperationState

variable {state next : CancellationOperationState}

/-- Operations are queued, and a new reason is that of one of them. -/
structure Grows (state next : CancellationOperationState) : Prop where
  operations : state.operations <+: next.operations
  queued : ∀ reason, next.phaseReason = some reason → state.phaseReason = some reason ∨
    ∃ operation ∈ next.operations.drop state.operations.length, operation.reason = reason

theorem Grows.refl : Grows state state := ⟨List.prefix_refl _, fun _ => .inl⟩

theorem Grows.trans {mid : CancellationOperationState} (h : Grows state mid)
    (h' : Grows mid next) : Grows state next := by
  refine ⟨h.operations.trans h'.operations, fun reason hreason => ?_⟩
  rcases h'.queued reason hreason with hmid | ⟨operation, hmem, hoperation⟩
  · refine (h.queued reason hmid).imp_right fun ⟨operation, hmem, hoperation⟩ => ?_
    obtain ⟨rest, hrest⟩ := h'.operations
    refine ⟨operation, ?_, hoperation⟩
    rw [← hrest, List.drop_append_of_le_length h.operations.length_le]
    exact List.mem_append_left _ hmem
  · exact .inr ⟨operation, (List.drop_sublist_drop_left _ h.operations.length_le).subset hmem,
      hoperation⟩

theorem grows_push {operation : CancellationOperationId → CancellationOperation}
    {reason : CancellationReason} (hoperation : ∀ id, (operation id).reason = reason) :
    Grows state ({ state with phaseReason := some reason }.push operation) := by
  refine ⟨List.prefix_append _ _, ?_⟩
  rintro _ ⟨⟩
  exact .inr ⟨operation state.nextId, by simp [push], hoperation _⟩

theorem pushForceAbort_grows : Grows state state.pushForceAbort := by
  refine ⟨List.prefix_append _ _, fun reason h => ?_⟩
  rcases Option.or_eq_some_iff.mp h with hreason | ⟨-, hreason⟩
  · exact .inl hreason
  · exact .inr ⟨.forceAbort state.nextId, by simp [pushForceAbort, push], Option.some.inj hreason⟩

theorem queuePendingReason_grows (reason : Option CancellationReason) :
    Grows state (state.queuePendingReason reason) := by
  cases reason with
  | none => exact .refl
  | some => exact grows_push fun _ => rfl

theorem queuePendingForceAbort_grows : Grows state state.queuePendingForceAbort := by
  unfold queuePendingForceAbort
  split_ifs
  · exact ⟨pushForceAbort_grows.operations, pushForceAbort_grows.queued⟩
  · exact .refl

/-- What a section under the lock can do: it goes on with the phase or arms finalization. -/
inductive Decides (state next : CancellationOperationState) : Option Admission → Prop
  | kept (hgrows : Grows state next) (hphase : next.finalizationArmed = state.finalizationArmed)
      {admission : Option Admission}
      (hreason : (admission.bind (·.reason)).getD state.phaseReason = next.phaseReason) :
      Decides state next admission
  | arms (hgrows : Grows state.armed next) (hbefore : state.finalizationArmed = false)
      (hafter : next.finalizationArmed = true) {version : Option Nat} :
      Decides state next (some ⟨some next.phaseReason, version⟩)

theorem Decides.unchanged (hoperations : next.operations = state.operations)
    (hreason : next.phaseReason = state.phaseReason)
    (hphase : next.finalizationArmed = state.finalizationArmed) : Decides state next none :=
  .kept ⟨hoperations ▸ List.prefix_refl _, fun _ h => .inl (hreason ▸ h)⟩ hphase hreason.symm

theorem decides (call : CancellationCall) (state : CancellationOperationState) :
    Decides state (call.decide state).1 (call.decide state).2 := by
  have hkept : Decides state state none := .unchanged rfl rfl rfl
  cases call with
  | requestCancellation =>
    unfold CancellationCall.decide requestCancellation
    dsimp only
    split_ifs
    · exact hkept
    · exact hkept
    · exact .unchanged rfl rfl rfl
    · exact hkept
    · exact .kept (grows_push fun _ => rfl) rfl rfl
  | requestOrdinaryCancellation =>
    unfold CancellationCall.decide requestOrdinaryCancellation
    dsimp only
    split_ifs
    · exact hkept
    · exact hkept
    · exact hkept
    · exact .kept (grows_push fun _ => rfl) rfl rfl
  | requestForceAbort =>
    unfold CancellationCall.decide requestForceAbort
    dsimp only
    split_ifs with _ _ _ hreason
    · exact hkept
    · exact .unchanged rfl rfl rfl
    · exact hkept
    · refine .kept pushForceAbort_grows rfl ?_
      simp [pushForceAbort, push, Option.isNone_iff_eq_none.mp hreason]
    · refine .kept pushForceAbort_grows rfl ?_
      obtain ⟨reason, hsome⟩ := Option.ne_none_iff_exists'.mp
        (fun h => hreason (Option.isNone_iff_eq_none.mpr h))
      simp [pushForceAbort, push, hsome]
  | beginFinalizationArm =>
    unfold CancellationCall.decide beginFinalizationArm
    dsimp only
    split_ifs
    · exact hkept
    · exact .unchanged rfl rfl rfl
  | completeFinalizationArm =>
    unfold CancellationCall.decide completeFinalizationArm
    dsimp only
    by_cases harmed : (!state.finalizationArming || state.finalizationArmed) = true
    · rw [if_pos harmed]
      exact hkept
    · rw [if_neg harmed]
      refine .arms ((queuePendingReason_grows _).trans queuePendingForceAbort_grows) ?_ ?_
      · simp only [Bool.or_eq_true, not_or] at harmed
        exact eq_false_of_ne_true harmed.2
      · unfold queuePendingForceAbort
        cases state.pendingFinalizationReason <;> split_ifs <;> rfl
  | abortFinalizationArm =>
    unfold CancellationCall.decide abortFinalizationArm
    dsimp only
    split_ifs
    · exact hkept
    · exact .unchanged rfl rfl rfl

end CancellationOperationState

namespace CancellationSystem

variable {system : CancellationSystem}

/-- A reason is written only when those that were decided before it are written. -/
def InOrder (system : CancellationSystem) : CancellationStep → Prop
  | .lock _ => True
  | .write index => ∀ written, system.calls[index]? = some written →
      written.writes.reason ≠ none → ∀ earlier ∈ system.calls.take index,
        earlier.writes.reason = none

/-- The reasons that are still to be written, with whether they come with the arming. -/
def decided (system : CancellationSystem) : List (Bool × Option CancellationReason) :=
  system.calls.filterMap (fun open_ => open_.writes.reason.map (open_.arms, ·))

/-- The last decision is the reason of the phase. -/
def Follows (system : CancellationSystem) : Prop :=
  ((system.decided.getLast?).map Prod.snd).getD system.reason = system.state.phaseReason

/-- A reason is that of an operation that was queued in the finalization phase. -/
def Queued (system : CancellationSystem) (reason : Option CancellationReason) : Prop :=
  ∀ r, reason = some r →
    ∃ operation ∈ system.state.operations.drop system.ordinary, operation.reason = r

/-- What is visible from the moment on at which the arming is written, and what follows. -/
structure Explained (system : CancellationSystem) : Prop where
  ordinary_le : system.ordinary ≤ system.state.operations.length
  unarmed : system.state.finalizationArmed = false → ∀ d ∈ system.decided, d.1 = false
  phase : system.state.finalizationArmed = true → system.Queued system.state.phaseReason
  arming : system.state.finalizationArmed = true →
    ∀ d ∈ system.decided.dropWhile (!·.1), system.Queued d.2
  visible : system.state.finalizationArmed = true → (∀ d ∈ system.decided, d.1 = false) →
    system.Queued system.reason ∧ ∀ d ∈ system.decided, system.Queued d.2

/-- A write in order takes the first decision, or leaves them as they are. -/
theorem write_decided (hin : system.InOrder (.write index)) :
    (system.write index).state = system.state ∧ (system.write index).ordinary = system.ordinary ∧
      ((system.write index).decided = system.decided ∧ (system.write index).reason = system.reason ∨
        ∃ d, system.decided = d :: (system.write index).decided ∧
          (system.write index).reason = d.2) := by
  unfold write
  cases hindex : system.calls[index]? with
  | none => exact ⟨rfl, rfl, .inl ⟨rfl, rfl⟩⟩
  | some written =>
    obtain ⟨hlt, hwritten⟩ := List.getElem?_eq_some_iff.mp hindex
    have hcalls : system.calls =
        system.calls.take index ++ written :: system.calls.drop (index + 1) := by
      rw [← hwritten, ← List.drop_eq_getElem_cons hlt, List.take_append_drop]
    obtain ⟨arms, reason, version⟩ := written
    unfold decided
    cases reason with
    | none =>
      refine ⟨rfl, rfl, .inl ⟨?_, rfl⟩⟩
      dsimp only
      rw [List.eraseIdx_eq_take_drop_succ]
      conv_rhs => rw [hcalls]
      simp
    | some reason =>
      have hearlier : (system.calls.take index).filterMap
          (fun open_ => open_.writes.reason.map (open_.arms, ·)) = [] := by
        refine List.filterMap_eq_nil_iff.mpr fun earlier hmem => ?_
        rw [hin _ hindex (Option.some_ne_none _) earlier hmem]
        rfl
      refine ⟨rfl, rfl, .inr ⟨(arms, reason), ?_, rfl⟩⟩
      dsimp only
      rw [List.set_eq_take_append_cons_drop, if_pos hlt]
      conv_lhs => rw [hcalls]
      simp [hearlier]

/-- A section under the lock appends its decision, which is that of the phase. -/
theorem lock_decided (call : CancellationCall) :
    (system.lock call).decided = system.decided ++
      (((call.decide system.state).2.bind (·.reason)).map
        ((call.decide system.state).1.finalizationArmed && !system.state.finalizationArmed,
          ·)).toList := by
  unfold lock decided
  dsimp only
  rw [List.filterMap_append]
  cases (call.decide system.state).2 with
  | none => rfl
  | some admission =>
    cases hreason : admission.reason with
    | none => simp [hreason]
    | some => simp [hreason]

theorem Follows.step {step : CancellationStep} (h : system.Follows) (hin : system.InOrder step) :
    (system.step step).Follows := by
  unfold Follows at h ⊢
  cases step with
  | write index =>
    change ((system.write index).decided.getLast?.map Prod.snd).getD (system.write index).reason =
      (system.write index).state.phaseReason
    obtain ⟨hstate, -, hdecided⟩ := write_decided hin
    rw [hstate, ← h]
    rcases hdecided with ⟨hsame, hreason⟩ | ⟨d, hfirst, hreason⟩
    · rw [hsame, hreason]
    · rw [hfirst, hreason, List.getLast?_cons]
      cases (system.write index).decided.getLast? <;> rfl
  | lock call =>
    change ((system.lock call).decided.getLast?.map Prod.snd).getD system.reason =
      (call.decide system.state).1.phaseReason
    rw [lock_decided]
    have hdecides := CancellationOperationState.decides call system.state
    generalize (call.decide system.state).1 = next at hdecides ⊢
    generalize (call.decide system.state).2 = admission at hdecides ⊢
    cases hdecides with
    | arms => simp
    | kept _ _ hreason =>
      cases hwrite : admission.bind (·.reason) with
      | none =>
        rw [hwrite] at hreason
        simpa [← hreason] using h
      | some =>
        rw [hwrite] at hreason
        simpa using hreason

theorem Explained.write (h : system.Explained) (hin : system.InOrder (.write index)) :
    (system.write index).Explained := by
  obtain ⟨hstate, hordinary, hdecided⟩ := write_decided hin
  have hqueued : (system.write index).Queued = system.Queued := by
    unfold Queued
    rw [hstate, hordinary]
  generalize system.write index = next at *
  rcases hdecided with ⟨hsame, hreason⟩ | ⟨d, hfirst, hreason⟩
  · refine ⟨?_, ?_, ?_, ?_, ?_⟩
    all_goals simp only [hstate, hordinary, hqueued, hsame, hreason]
    · exact h.ordinary_le
    · exact h.unarmed
    · exact h.phase
    · exact h.arming
    · exact h.visible
  · -- a decision that arms is followed by reasons of the finalization phase only
    have harming : system.state.finalizationArmed = true → d.1 = true →
        system.Queued d.2 ∧ ∀ later ∈ next.decided, system.Queued later.2 := by
      intro harmed hd
      have := h.arming harmed
      rw [hfirst, List.dropWhile_cons_of_neg (by simp [hd])] at this
      exact List.forall_mem_cons.mp this
    refine ⟨?_, ?_, ?_, ?_, ?_⟩
    all_goals simp only [hstate, hordinary, hqueued, hreason]
    · exact h.ordinary_le
    · intro hunarmed later hmem
      exact h.unarmed hunarmed later (hfirst ▸ List.mem_cons_of_mem _ hmem)
    · exact h.phase
    · intro harmed later hmem
      cases hd : d.1 with
      | true => exact (harming harmed hd).2 later ((List.dropWhile_suffix _).subset hmem)
      | false =>
        refine h.arming harmed later ?_
        rw [hfirst, List.dropWhile_cons_of_pos (by simp [hd])]
        exact hmem
    · intro harmed hlater
      cases hd : d.1 with
      | true => exact harming harmed hd
      | false =>
        have hvisible := h.visible harmed
        rw [hfirst] at hvisible
        exact List.forall_mem_cons.mp (hvisible (List.forall_mem_cons.mpr ⟨hd, hlater⟩)).2

theorem Explained.lock (h : system.Explained) (call : CancellationCall) :
    (system.lock call).Explained := by
  have hdecided := @lock_decided system call
  have hdecides := CancellationOperationState.decides call system.state
  have hstate : (system.lock call).state = (call.decide system.state).1 := rfl
  have hordinary : (system.lock call).ordinary =
      if (call.decide system.state).1.finalizationArmed && !system.state.finalizationArmed then
        system.state.operations.length
      else system.ordinary := rfl
  have hreason : (system.lock call).reason = system.reason := rfl
  generalize (call.decide system.state).1 = next at *
  generalize (call.decide system.state).2 = admission at *
  generalize system.lock call = after at *
  cases hdecides with
  | kept hgrows hphase hwrite =>
    simp only [hphase, Bool.and_not_self, Bool.false_eq_true, if_false] at hdecided hordinary
    have hle := hgrows.operations.length_le
    -- what was queued for finalization stays queued
    have hkeep : ∀ reason, system.Queued reason → after.Queued reason := by
      intro reason hqueued r hr
      obtain ⟨operation, hmem, hoperation⟩ := hqueued r hr
      obtain ⟨rest, hrest⟩ := hgrows.operations
      refine ⟨operation, ?_, hoperation⟩
      rw [hstate, hordinary, ← hrest, List.drop_append_of_le_length h.ordinary_le]
      exact List.mem_append_left _ hmem
    have hnew : next.finalizationArmed = true → after.Queued next.phaseReason := by
      intro harmed r hr
      rcases hgrows.queued r hr with hbefore | ⟨operation, hmem, hoperation⟩
      · exact hkeep _ (h.phase (hphase ▸ harmed)) r hbefore
      · rw [hstate, hordinary]
        exact ⟨operation, (List.drop_sublist_drop_left _ h.ordinary_le).subset hmem, hoperation⟩
    have hadded : ∀ d ∈ ((admission.bind (·.reason)).map (false, ·)).toList,
        d.1 = false ∧ d.2 = next.phaseReason := by
      intro d hd
      obtain ⟨reason, hsome, rfl⟩ := Option.map_eq_some_iff.mp (Option.mem_toList.mp hd)
      rw [hsome] at hwrite
      exact ⟨rfl, hwrite⟩
    refine ⟨?_, ?_, ?_, ?_, ?_⟩
    all_goals simp only [hstate, hreason, hdecided]
    · exact hordinary ▸ h.ordinary_le.trans hle
    · intro hunarmed d hd
      exact (List.mem_append.mp hd).elim (h.unarmed (hphase ▸ hunarmed) d) fun hd =>
        (hadded d hd).1
    · exact hnew
    · intro harmed d hd
      rw [List.dropWhile_append] at hd
      have hd : d ∈ system.decided.dropWhile (!·.1) ∨
          d ∈ ((admission.bind (·.reason)).map (false, ·)).toList := by
        split_ifs at hd
        · exact .inr ((List.dropWhile_suffix _).subset hd)
        · exact List.mem_append.mp hd
      rcases hd with hd | hd
      · exact hkeep _ (h.arming (hphase ▸ harmed) d hd)
      · exact (hadded d hd).2 ▸ hnew harmed
    · intro harmed hall
      obtain ⟨hvisible, hlater⟩ := h.visible (hphase ▸ harmed) fun d hd =>
        hall d (List.mem_append_left _ hd)
      refine ⟨hkeep _ hvisible, fun d hd => ?_⟩
      rcases List.mem_append.mp hd with hd | hd
      · exact hkeep _ (hlater d hd)
      · exact (hadded d hd).2 ▸ hnew harmed
  | arms hgrows hbefore hafter =>
    simp only [hafter, hbefore, Bool.not_false, Bool.and_true, if_true] at hdecided hordinary
    change after.decided = system.decided ++ [(true, next.phaseReason)] at hdecided
    have hnew : after.Queued next.phaseReason := by
      intro r hr
      rw [hstate, hordinary]
      exact (hgrows.queued r hr).resolve_left (Option.some_ne_none _ ·.symm)
    have hordinaries := h.unarmed hbefore
    refine ⟨?_, ?_, fun _ => hstate ▸ hnew, ?_, ?_⟩
    · rw [hordinary, hstate]
      exact hgrows.operations.length_le
    · rw [hstate, hafter]
      exact fun hunarmed => (nomatch hunarmed)
    · intro _ d hd
      rw [hdecided, List.dropWhile_append_of_pos (fun d hd => by simp [hordinaries d hd])] at hd
      obtain rfl : d = (true, next.phaseReason) := by simpa using hd
      exact hnew
    · intro _ hall
      have := hall (true, next.phaseReason) (by rw [hdecided]; simp)
      cases this

/-- The reasons of an interleaving are written in the order in which they were decided. -/
def AllInOrder (system : CancellationSystem) : List CancellationStep → Prop
  | [] => True
  | step :: steps => system.InOrder step ∧ (system.step step).AllInOrder steps

theorem run_invariant {steps : List CancellationStep} (hfollows : system.Follows)
    (hexplained : system.Explained) (h : system.AllInOrder steps) :
    (steps.foldl step system).Follows ∧ (steps.foldl step system).Explained := by
  induction steps generalizing system with
  | nil => exact ⟨hfollows, hexplained⟩
  | cons step steps ih =>
    refine ih (hfollows.step h.1) ?_ h.2
    cases step with
    | lock call => exact hexplained.lock call
    | write => exact hexplained.write h.1

theorem new_explained : new.Explained := by
  refine ⟨Nat.le_refl 0, fun _ _ hd => (nomatch hd), ?_, ?_, ?_⟩
  all_goals exact fun harmed => (nomatch harmed)

end CancellationSystem

open CancellationSystem in
/-- When the reasons are written in the order of their decisions, the visible reason is that
of the phase whenever no call is in progress.  Once the call that armed finalization has
returned, the visible reason is always that of an operation of the finalization phase. -/
theorem cancellationReason_current (steps : List CancellationStep) (h : new.AllInOrder steps) :
    ((run steps).calls = [] → (run steps).cancellationReason = (run steps).state.phaseReason) ∧
    ((run steps).state.finalizationArmed = true → (∀ open_ ∈ (run steps).calls,
        open_.arms = false) → ∀ reason, (run steps).cancellationReason = some reason →
      ∃ operation ∈ (run steps).state.operations.drop (run steps).ordinary,
        operation.reason = reason) := by
  obtain ⟨hfollows, hexplained⟩ := run_invariant (show new.Follows from rfl) new_explained h
  constructor
  · intro hquiet
    change (run steps).Follows at hfollows
    unfold Follows decided at hfollows
    rw [hquiet] at hfollows
    exact hfollows
  · intro harmed hreturned
    refine (hexplained.visible harmed fun d hd => ?_).1
    obtain ⟨open_, hmem, hd⟩ := List.mem_filterMap.mp hd
    obtain ⟨_, _, rfl⟩ := Option.map_eq_some_iff.mp hd
    exact hreturned open_ hmem

/-- A user cancels the ordinary phase and someone else finalization while it is armed. -/
def cancelledTwice : List CancellationStep :=
  [.lock (.requestCancellation .userRequest), .write 0, .write 0, .lock .beginFinalizationArm,
    .lock (.requestCancellation .terminationRequest), .lock .completeFinalizationArm, .write 0,
    .write 0]

theorem cancelledTwice_current :
    (CancellationSystem.run cancelledTwice).calls = [] ∧
      (CancellationSystem.run cancelledTwice).cancellationReason =
        (CancellationSystem.run cancelledTwice).state.phaseReason ∧
      ∃ operation ∈ (CancellationSystem.run cancelledTwice).state.operations.drop
        (CancellationSystem.run cancelledTwice).ordinary,
        operation.reason = .terminationRequest := by
  have hfirst : ∀ system : CancellationSystem, system.InOrder (.write 0) :=
    fun _ _ _ _ _ hmem => (nomatch hmem)
  obtain ⟨hquiet, harmed⟩ := cancellationReason_current cancelledTwice
    ⟨trivial, hfirst _, hfirst _, trivial, trivial, trivial, hfirst _, hfirst _, trivial⟩
  exact ⟨rfl, hquiet rfl, harmed rfl (fun _ hmem => (nomatch hmem)) _ rfl⟩

/-- The ordinary request is decided before finalization is armed and written after it. -/
def lateWrite : List CancellationStep :=
  [.lock (.requestCancellation .userRequest), .lock .beginFinalizationArm,
    .lock .completeFinalizationArm, .write 1, .write 1, .write 0, .write 0]

theorem lateWrite_visible :
    (CancellationSystem.run lateWrite).calls = [] ∧
      (CancellationSystem.run lateWrite).state.finalizationArmed = true ∧
      (CancellationSystem.run lateWrite).state.phaseReason = none ∧
      (CancellationSystem.run lateWrite).cancellationReason = some .userRequest ∧
      (CancellationSystem.run lateWrite).state.operations.drop
        (CancellationSystem.run lateWrite).ordinary = [] := by
  decide +kernel

end ScherzoCloud.Workflow
