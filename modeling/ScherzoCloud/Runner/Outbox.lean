import Mathlib.Algebra.Order.BigOperators.Group.List
import ScherzoCloud.Workflow.Capacity

/-!
# The outbox of the runner

The runner reports to Cloud by observations, which it keeps in a bounded outbox until
they are acknowledged.  An entry carries three flags: whether it may still be sent
(`replayable`), whether it was written to the current connection (`encoded`), and
whether that connection has claimed it (`transportOwned`).  The identifiers (`I`), the
frames (`F`) and the rest of an observation (`P`) are only handed on, so that they are
values of arbitrary types here.

A history is the outbox with the identifiers of the entries that were fenced.
-/

namespace ScherzoCloud.Runner

open Workflow

variable {I P F : Type} {id limit : Nat} {inFlight : List Nat} {frame : Option F}

/-- The reports of a job. -/
inductive ExecutionReport where
  | assignmentInterrupted
  | started
  | transition (conditionEvidence : Bool)
  | finished
  | interrupted
  | aborted
  deriving DecidableEq

inductive ObservationKind where
  | preparing
  | preparationProgress
  | decision
  | cancellationApplied
  | leaseRenewalRequested
  | execution (report : ExecutionReport)
  | artifact
  deriving DecidableEq

structure AssignmentObservation (I P : Type) where
  kind : ObservationKind
  assignmentId : I
  payload : P

namespace AssignmentObservation

def isTerminal (observation : AssignmentObservation I P) : Bool :=
  match observation.kind with
  | .execution .assignmentInterrupted | .execution .finished | .execution .interrupted
  | .execution .aborted => true
  | _ => false

def isConditionEvidenceTransition (observation : AssignmentObservation I P) : Bool :=
  match observation.kind with
  | .execution (.transition conditionEvidence) => conditionEvidence
  | _ => false

end AssignmentObservation

def maximumServiceObservations : Nat := 1344
def maximumOrdinaryFrameBytes : Nat := 262144
def maximumConditionTransitionFrameBytes : Nat := 256 * 1024 * 1024
def maximumTerminalFrameBytes : Nat := 512 * 1024 * 1024

inductive OutboxFailure where
  | capacity
  | encoding
  | sequence
  deriving DecidableEq, Repr

structure ObservationEntry (I P F : Type) where
  id : Nat
  observation : AssignmentObservation I P
  encodedBytes : Nat
  replayable : Bool
  encoded : Bool
  transportOwned : Bool
  retainedFrame : Option F

structure PendingAssignmentObservation (I P F : Type) where
  id : Nat
  observation : AssignmentObservation I P
  retainedFrame : Option F

structure ObservationOutbox (I P F : Type) where
  entries : List (ObservationEntry I P F)
  nextId : Nat

namespace ObservationOutbox

variable (outbox : ObservationOutbox I P F)

def new : ObservationOutbox I P F := ⟨[], 1⟩

def maximumFrameBytes (observation : AssignmentObservation I P) : Nat :=
  if observation.isTerminal then maximumTerminalFrameBytes
  else if observation.isConditionEvidenceTransition then maximumConditionTransitionFrameBytes
  else maximumOrdinaryFrameBytes

/-- The outbox has no room for another observation. -/
def Full (encodedBytes : Nat) (observation : AssignmentObservation I P) : Prop :=
  outbox.entries.length = maximumServiceObservations ∨
    maximumEncodedOutboxBytes <
      (outbox.entries.map ObservationEntry.encodedBytes).sum + encodedBytes ∨
    observation.isTerminal = true ∧ ∃ entry ∈ outbox.entries,
      entry.observation.isTerminal = true ∧
        entry.observation.assignmentId = observation.assignmentId

instance [DecidableEq I] (encodedBytes : Nat) (observation : AssignmentObservation I P) :
    Decidable (outbox.Full encodedBytes observation) :=
  inferInstanceAs (Decidable (_ ∨ _ ∨ _))

/-- `encoded` is the length of the encoded frame, if it can be encoded. -/
def enqueue [DecidableEq I] (encoded : Option Nat) (observation : AssignmentObservation I P) :
    Except OutboxFailure (Nat × ObservationOutbox I P F) :=
  match encoded with
  | none => .error .encoding
  | some length =>
    -- room for the longest sequence and timestamp
    let encodedBytes := length + 64
    if maximumFrameBytes observation < encodedBytes then .error .encoding
    else if outbox.Full encodedBytes observation then .error .capacity
    else if outbox.nextId + 1 < 2 ^ 64 then
      .ok (outbox.nextId,
        { entries := outbox.entries ++
            [{ id := outbox.nextId, observation, encodedBytes, replayable := true,
               encoded := false, transportOwned := false, retainedFrame := none }]
          nextId := outbox.nextId + 1 })
    else .error .sequence

def pending (inFlight : List Nat) (limit : Nat) : List (PendingAssignmentObservation I P F) :=
  ((outbox.entries.filter fun entry => entry.replayable && !entry.encoded &&
      !entry.transportOwned && !inFlight.contains entry.id).take limit).map
    fun entry => ⟨entry.id, entry.observation, entry.retainedFrame⟩

variable (id : Nat)

/-- An update of the entry with an identifier; no two entries have the same one. -/
def update (f : ObservationEntry I P F → ObservationEntry I P F) : ObservationOutbox I P F :=
  { outbox with entries := outbox.entries.map fun entry =>
      if entry.id = id then f entry else entry }

def acknowledge : ObservationOutbox I P F :=
  { outbox with entries := outbox.entries.filter (·.id != id) }

/-- The answer of `claim_for_transport`. -/
def claims : Bool :=
  outbox.entries.any fun entry =>
    entry.id == id && entry.replayable && !entry.encoded && !entry.transportOwned

def claimForTransport : ObservationOutbox I P F :=
  outbox.update id fun entry =>
    if !entry.replayable || entry.encoded || entry.transportOwned then entry
    else { entry with transportOwned := true }

def retainFrame (frame : F) : ObservationOutbox I P F :=
  outbox.update id fun entry => { entry with retainedFrame := entry.retainedFrame.or (some frame) }

def markEncoded : ObservationOutbox I P F :=
  outbox.update id fun entry => { entry with encoded := true }

/-- Entries that are no longer replayed go, unless the transport has them. -/
def dropFenced (replayed : ObservationEntry I P F → Bool) : ObservationOutbox I P F :=
  let marked := outbox.entries.map fun entry => { entry with replayable := replayed entry }
  { outbox with entries := marked.filter fun entry =>
      entry.replayable || entry.encoded || entry.transportOwned }

def retainOnly : ObservationOutbox I P F :=
  outbox.dropFenced fun entry => entry.id == id

def fenceAssignment [DecidableEq I] (assignmentId : I) : ObservationOutbox I P F :=
  outbox.dropFenced fun entry =>
    entry.replayable && entry.observation.assignmentId != assignmentId

def finishTransport : ObservationOutbox I P F :=
  let replayed := outbox.entries.filter (·.replayable)
  { outbox with entries := replayed.map fun entry =>
      { entry with encoded := false, transportOwned := false } }

end ObservationOutbox

section Histories

inductive OutboxOperation (I P F : Type) where
  | enqueue (encoded : Option Nat) (observation : AssignmentObservation I P)
  | acknowledge (id : Nat)
  | claimForTransport (id : Nat)
  | retainFrame (id : Nat) (frame : F)
  | markEncoded (id : Nat)
  | retainOnly (id : Nat)
  | fenceAssignment (assignmentId : I)
  | finishTransport

variable [DecidableEq I]

def ObservationOutbox.apply (outbox : ObservationOutbox I P F) :
    OutboxOperation I P F → ObservationOutbox I P F
  | .enqueue encoded observation =>
    match outbox.enqueue encoded observation with
    | .ok (_, next) => next
    | .error _ => outbox
  | .acknowledge id => outbox.acknowledge id
  | .claimForTransport id => outbox.claimForTransport id
  | .retainFrame id frame => outbox.retainFrame id frame
  | .markEncoded id => outbox.markEncoded id
  | .retainOnly id => outbox.retainOnly id
  | .fenceAssignment assignmentId => outbox.fenceAssignment assignmentId
  | .finishTransport => outbox.finishTransport

/-- The operation fences the entry. -/
def OutboxOperation.fences (operation : OutboxOperation I P F)
    (entry : ObservationEntry I P F) : Bool :=
  match operation with
  | .retainOnly id => entry.id != id
  | .fenceAssignment assignmentId => entry.observation.assignmentId == assignmentId
  | _ => false

def ObservationOutbox.fencedBy (outbox : ObservationOutbox I P F)
    (operation : OutboxOperation I P F) : List Nat :=
  (outbox.entries.filter operation.fences).map ObservationEntry.id

structure OutboxHistory (I P F : Type) where
  outbox : ObservationOutbox I P F
  fenced : List Nat

namespace OutboxHistory

def new : OutboxHistory I P F := ⟨.new, []⟩

def record (history : OutboxHistory I P F)
    (operation : OutboxOperation I P F) : OutboxHistory I P F :=
  ⟨history.outbox.apply operation, history.fenced ++ history.outbox.fencedBy operation⟩

def after (history : OutboxHistory I P F)
    (operations : List (OutboxOperation I P F)) : OutboxHistory I P F :=
  operations.foldl record history

def run (operations : List (OutboxOperation I P F)) : OutboxHistory I P F :=
  new.after operations

/-- `retain_only` is called with an entry that was not fenced before. -/
def AllAllowed (history : OutboxHistory I P F) : List (OutboxOperation I P F) → Prop
  | [] => True
  | operation :: operations =>
    (∀ id, operation = .retainOnly id → id ∉ history.fenced) ∧
      (history.record operation).AllAllowed operations

end OutboxHistory

end Histories

open OutboxOperation (fences)
section Entries

variable [DecidableEq I] {outbox : ObservationOutbox I P F} {operation : OutboxOperation I P F}
  {entry : ObservationEntry I P F}

/-- What stays the same in an entry. -/
def ObservationEntry.key (entry : ObservationEntry I P F) : Nat × AssignmentObservation I P × Nat :=
  (entry.id, entry.observation, entry.encodedBytes)

namespace ObservationOutbox

/-- What an operation makes of an entry; `none` if it is removed. -/
def next : OutboxOperation I P F → ObservationEntry I P F → Option (ObservationEntry I P F)
  | .enqueue _ _, entry => some entry
  | .acknowledge id, entry => if entry.id = id then none else some entry
  | .claimForTransport id, entry =>
    some (if entry.id = id then
      if !entry.replayable || entry.encoded || entry.transportOwned then entry
      else { entry with transportOwned := true }
    else entry)
  | .retainFrame id frame, entry =>
    some (if entry.id = id then
      { entry with retainedFrame := entry.retainedFrame.or (some frame) } else entry)
  | .markEncoded id, entry =>
    some (if entry.id = id then { entry with encoded := true } else entry)
  | .retainOnly id, entry =>
    if entry.id = id ∨ entry.encoded = true ∨ entry.transportOwned = true then
      some { entry with replayable := entry.id == id }
    else none
  | .fenceAssignment assignmentId, entry =>
    if (entry.replayable = true ∧ entry.observation.assignmentId ≠ assignmentId) ∨
        entry.encoded = true ∨ entry.transportOwned = true then
      some { entry with replayable :=
        entry.replayable && entry.observation.assignmentId != assignmentId }
    else none
  | .finishTransport, entry =>
    if entry.replayable then some { entry with encoded := false, transportOwned := false }
    else none

theorem enqueue_ok {encoded : Option Nat} {observation : AssignmentObservation I P}
    {after : ObservationOutbox I P F} (h : outbox.enqueue encoded observation = .ok (id, after)) :
    ∃ bytes, ¬ outbox.Full bytes observation ∧ id = outbox.nextId ∧
      after = ⟨outbox.entries ++ [⟨id, observation, bytes, true, false, false, none⟩],
        outbox.nextId + 1⟩ := by
  unfold enqueue at h
  cases encoded with
  | none => cases h
  | some =>
    dsimp only at h
    split_ifs at h with _ hfull
    cases h
    exact ⟨_, hfull, rfl, rfl⟩

theorem filterMap_of_filter {p : ObservationEntry I P F → Bool} {f : ObservationEntry I P F → _}
    (h : ∀ entry : ObservationEntry I P F, next operation entry =
      if p entry then some (f entry) else none) :
    (outbox.entries.filter p).map f = outbox.entries.filterMap (next operation) := by
  induction outbox.entries with
  | nil => rfl
  | cons entry entries ih =>
    rw [List.filter_cons, List.filterMap_cons, h, ← ih]
    split_ifs <;> rfl

/-- Apart from `enqueue`, an operation works on each entry by itself. -/
theorem apply_entries
    (hoperation : ∀ encoded observation, operation ≠ .enqueue encoded observation) :
    (outbox.apply operation).entries = outbox.entries.filterMap (next operation) := by
  -- the flag is set before the entries are filtered
  have hfence : ∀ replayed : ObservationEntry I P F → Bool,
      (outbox.dropFenced replayed).entries =
        (outbox.entries.filter fun entry => replayed entry || entry.encoded ||
          entry.transportOwned).map fun entry => { entry with replayable := replayed entry } :=
    fun _ => List.filter_map
  cases operation with
  | enqueue encoded observation => exact absurd rfl (hoperation encoded observation)
  | acknowledge =>
    refine (List.map_id _).symm.trans (filterMap_of_filter fun entry => ?_)
    simp [next]
  | claimForTransport | retainFrame | markEncoded =>
    exact (congrFun List.filterMap_eq_map _).symm
  | retainOnly | fenceAssignment =>
    refine (hfence _).trans (filterMap_of_filter fun entry => ?_)
    simp [next, or_assoc]
  | finishTransport => exact filterMap_of_filter fun _ => rfl

/-- An operation adds an entry for which there is room, or works on each entry. -/
theorem apply_cases (outbox : ObservationOutbox I P F) (operation : OutboxOperation I P F) :
    (∃ bytes encoded observation, operation = .enqueue encoded observation ∧
      ¬ outbox.Full bytes observation ∧ outbox.apply operation =
        ⟨outbox.entries ++ [⟨outbox.nextId, observation, bytes, true, false, false, none⟩],
          outbox.nextId + 1⟩) ∨
    (outbox.apply operation).entries = outbox.entries.filterMap (next operation) ∧
      (outbox.apply operation).nextId = outbox.nextId := by
  cases operation with
  | enqueue encoded observation =>
    cases henqueue : outbox.enqueue encoded observation with
    | error =>
      refine .inr ?_
      simp only [apply, henqueue]
      exact ⟨List.filterMap_some.symm, trivial⟩
    | ok =>
      obtain ⟨bytes, hroom, hid, hafter⟩ := enqueue_ok henqueue
      refine .inl ⟨bytes, encoded, observation, rfl, hroom, ?_⟩
      simp only [apply, henqueue]
      rw [hafter, hid]
  | _ => exact .inr ⟨apply_entries (fun _ _ h => nomatch h), rfl⟩

/-- An entry is removed only by its acknowledgement or when it is fenced. -/
theorem next_none (h : next operation entry = none) :
    operation = .acknowledge entry.id ∨ operation.fences entry = true ∨
      entry.replayable = false := by
  cases operation with
  | enqueue | claimForTransport | retainFrame | markEncoded => cases h
  | acknowledge =>
    simp only [next] at h
    split_ifs at h with hid
    exact .inl (hid ▸ rfl)
  | retainOnly =>
    simp only [next] at h
    split_ifs at h with hkept
    exact .inr (.inl (bne_iff_ne.mpr fun hid => hkept (.inl hid)))
  | fenceAssignment assignmentId =>
    simp only [next] at h
    split_ifs at h with hkept
    simp only [fences, beq_iff_eq]
    by_cases hassignment : entry.observation.assignmentId = assignmentId
    · exact .inr (.inl hassignment)
    · exact .inr (.inr (eq_false_of_ne_true fun hreplayable =>
        hkept (.inl ⟨hreplayable, hassignment⟩)))
  | finishTransport =>
    simp only [next] at h
    split_ifs at h with hreplayable
    exact .inr (.inr (eq_false_of_ne_true hreplayable))

variable {after : ObservationEntry I P F}

/-- The flag of the entries that stay, when `retain_only` is not called with a fenced one. -/
theorem next_replayable (h : next operation entry = some after)
    (hallowed : operation = .retainOnly entry.id → entry.replayable = true) :
    after.replayable = false ↔ entry.replayable = false ∨ operation.fences entry = true := by
  cases operation with
  | enqueue =>
    cases h
    simp [fences]
  | claimForTransport | retainFrame | markEncoded =>
    cases h
    split_ifs <;> simp [fences]
  | acknowledge | finishTransport =>
    simp only [next] at h
    split_ifs at h
    cases h
    simp [fences]
  | retainOnly id =>
    simp only [next] at h
    split_ifs at h
    cases h
    by_cases hid : entry.id = id
    · subst hid
      simp [fences, hallowed rfl]
    · simp [fences, hid]
  | fenceAssignment =>
    simp only [next] at h
    split_ifs at h
    cases h
    cases entry.replayable <;> simp [fences]

/-- The frame that an operation retains for an entry. -/
def frameFor (id : Nat) : OutboxOperation I P F → Option F
  | .retainFrame retained frame => if id = retained then some frame else none
  | _ => none

/-- What an operation does not change in an entry that stays. -/
theorem next_kept (h : next operation entry = some after) : after.key = entry.key ∧
      after.retainedFrame = entry.retainedFrame.or (frameFor entry.id operation) ∧
      (operation ≠ .finishTransport → entry.transportOwned = true →
        after.transportOwned = true) := by
  cases operation with
  | enqueue =>
    cases h
    simp [frameFor]
  | claimForTransport | markEncoded =>
    cases h
    split_ifs <;> simp [frameFor, ObservationEntry.key]
  | retainFrame id =>
    cases h
    by_cases hid : entry.id = id <;> simp [frameFor, hid, ObservationEntry.key]
  | acknowledge | retainOnly | fenceAssignment | finishTransport =>
    simp only [next] at h
    split_ifs at h
    cases h
    simp [frameFor, ObservationEntry.key]

theorem next_id (h : next operation entry = some after) : after.id = entry.id :=
  congrArg Prod.fst (next_kept h).1

end ObservationOutbox

end Entries

open ObservationEntry (key)
open ObservationOutbox (next next_kept next_id next_replayable next_none frameFor enqueue_ok)
/-- The limits of the outbox, in terms of what stays the same in its entries. -/
structure WithinLimits (keys : List (Nat × AssignmentObservation I P × Nat)) : Prop where
  ids : keys.Pairwise (fun first second => first.1 < second.1)
  count : keys.length ≤ maximumServiceObservations
  bytes : (keys.map (·.2.2)).sum ≤ maximumEncodedOutboxBytes
  terminal : keys.Pairwise (fun first second => first.2.1.isTerminal = true →
    second.2.1.isTerminal = true → first.2.1.assignmentId ≠ second.2.1.assignmentId)

theorem WithinLimits.sublist {keys keys' : List (Nat × AssignmentObservation I P × Nat)}
    (h : WithinLimits keys) (hsub : keys'.Sublist keys) : WithinLimits keys' :=
  ⟨h.ids.sublist hsub, hsub.length_le.trans h.count,
    ((hsub.map _).sum_le_sum fun _ _ => Nat.zero_le _).trans h.bytes, h.terminal.sublist hsub⟩

namespace OutboxHistory

variable {history : OutboxHistory I P F} {operation : OutboxOperation I P F}

structure Valid (history : OutboxHistory I P F) : Prop where
  limits : WithinLimits (history.outbox.entries.map key)
  entries_lt : ∀ entry ∈ history.outbox.entries, entry.id < history.outbox.nextId
  fenced_lt : ∀ id ∈ history.fenced, id < history.outbox.nextId
  fenced : ∀ entry ∈ history.outbox.entries, entry.replayable = false ↔ entry.id ∈ history.fenced

theorem Valid.ids (h : history.Valid) :
    history.outbox.entries.Pairwise (fun first second => first.id < second.id) :=
  (List.pairwise_map (f := key)).mp h.limits.ids

theorem Valid.eq_of_id (h : history.Valid) {entry other : ObservationEntry I P F}
    (hentry : entry ∈ history.outbox.entries) (hother : other ∈ history.outbox.entries)
    (hid : entry.id = other.id) : entry = other :=
  List.inj_on_of_nodup_map (List.pairwise_map.mpr (h.ids.imp Nat.ne_of_lt)) hentry hother hid

theorem new_valid : (new : OutboxHistory I P F).Valid :=
  ⟨⟨.nil, Nat.zero_le _, Nat.zero_le _, .nil⟩, fun _ h => (nomatch h), fun _ h => (nomatch h),
    fun _ h => (nomatch h)⟩

theorem claims_eq_true {outbox : ObservationOutbox I P F} :
    outbox.claims id = true ↔ ∃ entry ∈ outbox.entries, entry.id = id ∧
      entry.replayable = true ∧ entry.encoded = false ∧ entry.transportOwned = false := by
  simp [ObservationOutbox.claims, and_assoc]

/-- The outbox still has the observation, with the frame that is retained for it. -/
def Kept (history : OutboxHistory I P F) (id : Nat)
    (observation : AssignmentObservation I P) (frame : Option F) : Prop :=
  ∃ entry ∈ history.outbox.entries, entry.id = id ∧ entry.observation = observation ∧
    entry.retainedFrame = frame

/-- After the transport has finished, an observation that is kept and not fenced is offered. -/
theorem Kept.offered {observation : AssignmentObservation I P}
    (h : history.Kept id observation frame) (hvalid : history.Valid)
    (hunfenced : id ∉ history.fenced) (hflight : id ∉ inFlight)
    (hlimit : history.outbox.entries.length ≤ limit) :
    ⟨id, observation, frame⟩ ∈ history.outbox.finishTransport.pending inFlight limit := by
  obtain ⟨entry, hentry, rfl, rfl, rfl⟩ := h
  have hreplayable : entry.replayable = true :=
    eq_true_of_ne_false fun h => hunfenced ((hvalid.fenced entry hentry).mp h)
  have hmem : { entry with encoded := false, transportOwned := false } ∈
      history.outbox.finishTransport.entries :=
    List.mem_map.mpr ⟨entry, List.mem_filter.mpr ⟨hentry, hreplayable⟩, rfl⟩
  have hle : history.outbox.finishTransport.entries.length ≤ limit :=
    le_trans (by simpa [ObservationOutbox.finishTransport] using List.length_filter_le _ _) hlimit
  unfold ObservationOutbox.pending
  rw [List.take_of_length_le ((List.length_filter_le _ _).trans hle)]
  refine List.mem_map.mpr ⟨_, List.mem_filter.mpr ⟨hmem, ?_⟩, rfl⟩
  simp [hreplayable, hflight]

/-- The entry is in the hands of the connection. -/
def Owned (history : OutboxHistory I P F) (id : Nat) : Prop :=
  id < history.outbox.nextId ∧
    ∀ entry ∈ history.outbox.entries, entry.id = id → entry.transportOwned = true

theorem Owned.claims (h : history.Owned id) : history.outbox.claims id = false := by
  refine eq_false_of_ne_true fun hclaims => ?_
  obtain ⟨entry, hentry, hid, -, -, hfree⟩ := claims_eq_true.mp hclaims
  exact absurd (h.2 entry hentry hid) (by simp [hfree])

variable [DecidableEq I]

theorem Valid.mem_fencedBy (h : history.Valid)
    (operation : OutboxOperation I P F) {entry : ObservationEntry I P F}
    (hentry : entry ∈ history.outbox.entries) :
    entry.id ∈ history.outbox.fencedBy operation ↔ operation.fences entry = true := by
  constructor
  · intro hmem
    obtain ⟨other, hother, hid⟩ := List.mem_map.mp hmem
    obtain ⟨hother, hfences⟩ := List.mem_filter.mp hother
    exact h.eq_of_id hother hentry hid ▸ hfences
  · exact fun hfences => List.mem_map_of_mem (List.mem_filter.mpr ⟨hentry, hfences⟩)

theorem keys_sublist (entries : List (ObservationEntry I P F)) :
    ((entries.filterMap (next operation)).map key).Sublist (entries.map key) := by
  induction entries with
  | nil => exact .slnil
  | cons entry entries ih =>
    cases hnext : next operation entry with
    | none =>
      rw [List.filterMap_cons_none hnext]
      exact .cons _ ih
    | some =>
      rw [List.filterMap_cons_some hnext, List.map_cons, (next_kept hnext).1]
      exact .cons_cons _ ih

theorem Valid.record (h : history.Valid)
    (hallowed : ∀ id, operation = .retainOnly id → id ∉ history.fenced) :
    (history.record operation).Valid := by
  rcases history.outbox.apply_cases operation with
    ⟨bytes, encoded, observation, rfl, hroom, happly⟩ | ⟨hentries, hnextId⟩
  · obtain ⟨hcount, hbytes, hterminal⟩ : _ ∧ _ ∧ _ := by
      simpa only [ObservationOutbox.Full, not_or] using hroom
    have hfenced : (history.record (.enqueue encoded observation)).fenced = history.fenced := by
      simp [OutboxHistory.record, ObservationOutbox.fencedBy, fences]
    refine ⟨?_, ?_, ?_, ?_⟩
    · change WithinLimits ((history.outbox.apply _).entries.map _)
      rw [happly, List.map_append]
      refine ⟨List.pairwise_append.mpr ⟨h.limits.ids, List.pairwise_singleton _ _, ?_⟩, ?_, ?_,
        List.pairwise_append.mpr ⟨h.limits.terminal, List.pairwise_singleton _ _, ?_⟩⟩
      · intro key hkey _ hnew
        obtain ⟨entry, hentry, rfl⟩ := List.mem_map.mp hkey
        obtain rfl := List.mem_singleton.mp hnew
        exact h.entries_lt entry hentry
      · have hlimit := h.limits.count
        simp only [List.length_append, List.length_map, List.length_singleton] at hlimit ⊢
        omega
      · simpa [key, Function.comp_def] using hbytes
      · intro key hkey _ hnew hentry hobservation hsame
        obtain ⟨entry, hmem, rfl⟩ := List.mem_map.mp hkey
        obtain rfl := List.mem_singleton.mp hnew
        exact hterminal ⟨hobservation, entry, hmem, hentry, hsame⟩
    · change ∀ entry ∈ (history.outbox.apply _).entries, entry.id < (history.outbox.apply _).nextId
      rw [happly]
      intro entry hentry
      rcases List.mem_append.mp hentry with hentry | hentry
      · exact (h.entries_lt entry hentry).trans (Nat.lt_succ_self _)
      · obtain rfl := List.mem_singleton.mp hentry
        exact Nat.lt_succ_self _
    · change ∀ id ∈ _, id < (history.outbox.apply _).nextId
      rw [happly, hfenced]
      exact fun id hid => (h.fenced_lt id hid).trans (Nat.lt_succ_self _)
    · change ∀ entry ∈ (history.outbox.apply _).entries, _
      rw [happly, hfenced]
      intro entry hentry
      rcases List.mem_append.mp hentry with hentry | hentry
      · exact h.fenced entry hentry
      · obtain rfl := List.mem_singleton.mp hentry
        exact iff_of_false (fun hreplayable => nomatch hreplayable)
          (fun hid => Nat.lt_irrefl _ (h.fenced_lt _ hid))
  · have horigin : ∀ after ∈ (history.record operation).outbox.entries,
        ∃ entry ∈ history.outbox.entries, next operation entry = some after := by
      intro after hafter
      exact List.mem_filterMap.mp (hentries ▸ hafter)
    refine ⟨?_, ?_, ?_, ?_⟩
    · change WithinLimits ((history.outbox.apply operation).entries.map _)
      rw [hentries]
      exact h.limits.sublist (keys_sublist _)
    · intro after hafter
      obtain ⟨entry, hentry, hnext⟩ := horigin after hafter
      rw [next_id hnext]
      exact hnextId.symm ▸ h.entries_lt entry hentry
    · intro id hid
      change id < (history.outbox.apply operation).nextId
      rw [hnextId]
      rcases List.mem_append.mp hid with hid | hid
      · exact h.fenced_lt id hid
      · obtain ⟨entry, hentry, rfl⟩ := List.mem_map.mp hid
        exact h.entries_lt entry (List.mem_filter.mp hentry).1
    · intro after hafter
      obtain ⟨entry, hentry, hnext⟩ := horigin after hafter
      rw [next_id hnext, next_replayable hnext,
        h.fenced entry hentry, ← h.mem_fencedBy operation hentry]
      · exact List.mem_append.symm
      · intro hretain
        refine eq_true_of_ne_false fun hreplayable => ?_
        exact hallowed _ hretain ((h.fenced entry hentry).mp hreplayable)

theorem Valid.run {operations : List (OutboxOperation I P F)} (h : history.Valid)
    (hallowed : history.AllAllowed operations) : (history.after operations).Valid := by
  induction operations generalizing history with
  | nil => exact h
  | cons operation operations ih => exact ih (h.record hallowed.1) hallowed.2

theorem Kept.record {observation : AssignmentObservation I P}
    (h : history.Kept id observation frame) (hvalid : history.Valid)
    (hunacknowledged : operation ≠ .acknowledge id)
    (hunfenced : id ∉ (history.record operation).fenced) :
    (history.record operation).Kept id observation (frame.or (frameFor id operation)) := by
  obtain ⟨entry, hentry, rfl, rfl, rfl⟩ := h
  rcases history.outbox.apply_cases operation with
    ⟨bytes, encoded, added, rfl, -, happly⟩ | ⟨hentries, -⟩
  · refine ⟨entry, ?_, rfl, rfl, (Option.or_none).symm⟩
    change entry ∈ (history.outbox.apply _).entries
    rw [happly]
    exact List.mem_append_left _ hentry
  · cases hnext : next operation entry with
    | none =>
      refine absurd (List.mem_append.mpr ?_) hunfenced
      rcases next_none hnext with hack | hfences | hreplayable
      · exact absurd hack hunacknowledged
      · exact .inr ((hvalid.mem_fencedBy operation hentry).mpr hfences)
      · exact .inl ((hvalid.fenced entry hentry).mp hreplayable)
    | some after =>
      obtain ⟨hkey, hframe, -⟩ := next_kept hnext
      refine ⟨after, ?_, congrArg Prod.fst hkey, congrArg (·.2.1) hkey, hframe⟩
      change after ∈ (history.outbox.apply operation).entries
      rw [hentries]
      exact List.mem_filterMap.mpr ⟨entry, hentry, hnext⟩

theorem fenced_subset (operations : List (OutboxOperation I P F)) :
    history.fenced ⊆ (history.after operations).fenced := by
  induction operations generalizing history with
  | nil => exact fun _ => id
  | cons operation operations ih =>
    have hlater := @ih (history.record operation)
    exact List.Subset.trans (List.subset_append_left _ _) hlater

theorem Kept.run {operations : List (OutboxOperation I P F)}
    {observation : AssignmentObservation I P} (h : history.Kept id observation frame)
    (hvalid : history.Valid) (hallowed : history.AllAllowed operations)
    (hunacknowledged : .acknowledge id ∉ operations)
    (hunfenced : id ∉ (history.after operations).fenced) :
    (history.after operations).Kept id observation
      (frame.or (operations.findSome? (frameFor id))) := by
  induction operations generalizing history frame with
  | nil =>
    rw [List.findSome?_nil, Option.or_none]
    exact h
  | cons operation operations ih =>
    have hkept := h.record hvalid (fun hop => hunacknowledged (hop ▸ List.mem_cons_self))
      (fun hid => hunfenced (fenced_subset operations hid))
    have := ih hkept (hvalid.record hallowed.1) hallowed.2
      (fun hop => hunacknowledged (List.mem_cons_of_mem _ hop)) hunfenced
    rw [Option.or_assoc] at this
    rw [List.findSome?_cons]
    cases hframe : frameFor id operation with
    | none =>
      rw [hframe, Option.none_or] at this
      exact this
    | some =>
      rw [hframe, Option.some_or] at this
      exact this

theorem Owned.record (h : history.Owned id) (hfinish : operation ≠ .finishTransport) :
    (history.record operation).Owned id := by
  unfold Owned OutboxHistory.record
  rcases history.outbox.apply_cases operation with
    ⟨bytes, encoded, observation, -, -, happly⟩ | ⟨hentries, hnextId⟩
  · rw [happly]
    refine ⟨h.1.trans (Nat.lt_succ_self _), fun entry hentry hid => ?_⟩
    rcases List.mem_append.mp hentry with hentry | hentry
    · exact h.2 entry hentry hid
    · obtain rfl := List.mem_singleton.mp hentry
      exact absurd (hid ▸ h.1) (Nat.lt_irrefl _)
  · refine ⟨hnextId.symm ▸ h.1, fun after hafter hid => ?_⟩
    obtain ⟨entry, hentry, hnext⟩ := List.mem_filterMap.mp (hentries ▸ hafter)
    exact (next_kept hnext).2.2 hfinish
      (h.2 entry hentry (next_id hnext ▸ hid))

theorem Owned.run {operations : List (OutboxOperation I P F)} (h : history.Owned id)
    (hfinish : .finishTransport ∉ operations) : (history.after operations).Owned id := by
  induction operations generalizing history with
  | nil => exact h
  | cons operation operations ih =>
    obtain ⟨hfirst, hlater⟩ := not_or.mp (List.mem_cons.not.mp hfinish)
    exact ih (h.record fun hop => hfirst hop.symm) hlater

theorem AllAllowed.append {first second : List (OutboxOperation I P F)}
    (h : history.AllAllowed (first ++ second)) :
    history.AllAllowed first ∧ (history.after first).AllAllowed second := by
  induction first generalizing history with
  | nil => exact ⟨trivial, h⟩
  | cons operation first ih => exact ⟨⟨h.1, (ih h.2).1⟩, (ih h.2).2⟩

theorem after_append (first second : List (OutboxOperation I P F)) :
    history.after (first ++ second) = (history.after first).after second :=
  List.foldl_append

theorem owned_of_claims (hvalid : history.Valid) (h : history.outbox.claims id = true) :
    (history.record (.claimForTransport id)).Owned id := by
  obtain ⟨entry, hentry, rfl, hreplayable, hencoded, -⟩ := claims_eq_true.mp h
  refine ⟨hvalid.entries_lt entry hentry, fun after hafter hid => ?_⟩
  obtain ⟨other, hother, rfl⟩ := List.mem_map.mp hafter
  by_cases hsame : other.id = entry.id
  · obtain rfl := hvalid.eq_of_id hother hentry hsame
    rw [if_pos rfl]
    dsimp only
    split_ifs with howned
    · simpa [hreplayable, hencoded] using howned
    · rfl
  · rw [if_neg hsame] at hid
    exact absurd hid hsame

end OutboxHistory

open OutboxHistory in
/-- The outbox keeps its observations in order and within its limits, gives each to a
connection at most once, loses none that was not acknowledged or fenced, and never offers
a fenced one. -/
theorem outbox_delivery [DecidableEq I] (operations : List (OutboxOperation I P F))
    (hallowed : OutboxHistory.new.AllAllowed operations) :
    ((run operations).outbox.entries.map ObservationEntry.id).Pairwise (· < ·) ∧
    (∀ inFlight limit, (((run operations).outbox.pending inFlight limit).map
      PendingAssignmentObservation.id).Sublist
        ((run operations).outbox.entries.map ObservationEntry.id)) ∧
    (∀ before id between, operations = before ++ .claimForTransport id :: between →
      (run before).outbox.claims id = true → .finishTransport ∉ between →
      (run operations).outbox.claims id = false) ∧
    (∀ before operation, operations = before ++ [operation] →
      ∀ entry ∈ (run before).outbox.entries,
        entry.id ∉ (run operations).outbox.entries.map ObservationEntry.id →
        operation = .acknowledge entry.id ∨ entry.id ∈ (run operations).fenced) ∧
    (∀ before encoded observation between id outbox,
      operations = before ++ .enqueue encoded observation :: between →
      (run before).outbox.enqueue encoded observation = .ok (id, outbox) →
      .acknowledge id ∉ between → id ∉ (run operations).fenced →
      ∀ inFlight limit, id ∉ inFlight → (run operations).outbox.entries.length ≤ limit →
        ⟨id, observation, between.findSome? (ObservationOutbox.frameFor id)⟩ ∈
          (run operations).outbox.finishTransport.pending inFlight limit) ∧
    (∀ id ∈ (run operations).fenced, (run operations).outbox.claims id = false ∧
      ∀ inFlight limit, id ∉ ((run operations).outbox.pending inFlight limit).map
        PendingAssignmentObservation.id) ∧
    (run operations).outbox.entries.Pairwise (fun first second =>
      first.observation.isTerminal = true → second.observation.isTerminal = true →
        first.observation.assignmentId ≠ second.observation.assignmentId) ∧
    (run operations).outbox.entries.length ≤ maximumServiceObservations ∧
    ((run operations).outbox.entries.map ObservationEntry.encodedBytes).sum ≤
      maximumEncodedOutboxBytes := by
  have hvalid : (run operations).Valid := new_valid.run hallowed
  refine ⟨List.pairwise_map.mpr hvalid.ids, fun _ _ => ?_, ?_, ?_, ?_, ?_, ?_, ?_, ?_⟩
  · rw [ObservationOutbox.pending, List.map_map]
    exact ((List.take_sublist _ _).trans List.filter_sublist).map _
  · rintro before id between rfl hclaims hfinish
    unfold run at hclaims ⊢
    rw [after_append]
    exact (Owned.run (owned_of_claims (new_valid.run hallowed.append.1) hclaims) hfinish).claims
  · rintro before operation rfl entry hentry hgone
    obtain ⟨hbefore, hlast⟩ := hallowed.append
    have hvalid' : (run before).Valid := new_valid.run hbefore
    by_contra hkept
    obtain ⟨hunacknowledged, hunfenced⟩ := not_or.mp hkept
    unfold run at hunfenced hgone
    rw [after_append] at hunfenced hgone
    have hentry : (run before).Kept entry.id entry.observation entry.retainedFrame :=
      ⟨entry, hentry, rfl, rfl, rfl⟩
    obtain ⟨after, hafter, hid, -⟩ := hentry.record hvalid' hunacknowledged hunfenced
    exact hgone (List.mem_map.mpr ⟨after, hafter, hid⟩)
  · rintro before encoded observation between id outbox rfl henqueue hunacknowledged hunfenced
      inFlight limit hflight hlimit
    obtain ⟨hbefore, hlater⟩ := hallowed.append
    have hkept : ((run before).record (.enqueue encoded observation)).Kept id observation none := by
      obtain ⟨bytes, -, rfl, rfl⟩ := enqueue_ok henqueue
      refine ⟨⟨_, observation, bytes, true, false, false, none⟩, ?_, rfl, rfl, rfl⟩
      simp [OutboxHistory.record, ObservationOutbox.apply, henqueue]
    unfold run at hunfenced hlimit ⊢
    rw [after_append] at hunfenced hlimit ⊢
    have hkept := hkept.run ((new_valid.run hbefore).record hlater.1) hlater.2 hunacknowledged
      hunfenced
    rw [Option.none_or] at hkept
    exact hkept.offered (((new_valid.run hbefore).record hlater.1).run hlater.2) hunfenced
      hflight hlimit
  · intro id hfenced
    have hids : ∀ entry ∈ (run operations).outbox.entries, entry.id = id →
        entry.replayable = false :=
      fun entry hentry hid => (hvalid.fenced entry hentry).mpr (hid ▸ hfenced)
    constructor
    · refine eq_false_of_ne_true fun hclaims => ?_
      obtain ⟨entry, hentry, hid, hreplayable, -⟩ := claims_eq_true.mp hclaims
      exact absurd hreplayable (by simp [hids entry hentry hid])
    · intro inFlight limit hmem
      obtain ⟨offered, hoffered, rfl⟩ := List.mem_map.mp hmem
      obtain ⟨entry, hentry, rfl⟩ := List.mem_map.mp hoffered
      obtain ⟨hentry, hfree⟩ := List.mem_filter.mp (List.mem_of_mem_take hentry)
      simp [hids entry hentry rfl] at hfree
  · exact (List.pairwise_map (f := key)).mp hvalid.limits.terminal
  · simpa using hvalid.limits.count
  · simpa [key, Function.comp_def] using hvalid.limits.bytes

/-- A decision is claimed and its connection is lost; then a report is fenced. -/
def reconnected : List (OutboxOperation String String String) :=
  [.enqueue (some 100) ⟨.decision, "first", "accepted"⟩, .retainFrame 1 "frame",
    .claimForTransport 1, .enqueue (some 200) ⟨.execution .finished, "second", "result"⟩,
    .fenceAssignment "second"]

theorem reconnected_delivery : ⟨1, ⟨.decision, "first", "accepted"⟩, some "frame"⟩ ∈
      (OutboxHistory.run reconnected).outbox.finishTransport.pending [] 2 ∧
    (OutboxHistory.run reconnected).outbox.claims 2 = false := by
  have hallowed : OutboxHistory.new.AllAllowed reconnected := by
    refine ⟨?_, ?_, ?_, ?_, ?_, trivial⟩ <;> exact fun _ h => (nomatch h)
  obtain ⟨-, -, -, -, hoffered, hfenced, -⟩ := outbox_delivery reconnected hallowed
  refine ⟨hoffered [] (some 100) _ _ 1 _ rfl rfl (fun h => ?_) (by decide) [] 2
    (by decide) (by decide), (hfenced 2 (by decide)).1⟩
  simp at h

end ScherzoCloud.Runner
