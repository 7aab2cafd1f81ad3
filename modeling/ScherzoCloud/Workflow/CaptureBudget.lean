import Mathlib.Algebra.BigOperators.Group.Multiset.Basic
import Mathlib.Algebra.Order.BigOperators.Group.Multiset
import Mathlib.Data.Finset.Filter
import Mathlib.Data.Finset.Insert
import Mathlib.Tactic.Abel

/-!
# The budget of captured artifacts

A step's outputs are captured into a private staging directory.  A capture first
reserves the number of its carriers, then stages one carrier after the other
under a bound read from the ledger, and reserves the bytes of each when they are
known.  The finished set of candidates is committed, which turns its reservation
into captured carriers, or it is given up; a committed carrier gives its budget
back when its last handle is dropped.  Captures exclude each other; commits, given
up sets and dropped values come between any two steps of a capture.  A dropped
handle removes its file too, unless the staging directory is to be preserved.
-/

namespace ScherzoCloud.Workflow

inductive CarrierBudgetClass where
  | file
  | git
  deriving DecidableEq

inductive Quantity where
  | count
  | bytes
  deriving DecidableEq

/-- A number and a size for each class of carriers. -/
abbrev Amounts := CarrierBudgetClass → Quantity → Nat

structure CarrierLimits where
  maximumCount : Nat
  maximumBytes : Nat
  maximumTotalBytes : Nat
  deriving DecidableEq

def CarrierLimits.total (limits : CarrierLimits) : Quantity → Nat
  | .count => limits.maximumCount
  | .bytes => limits.maximumTotalBytes

structure StagedCarrier where
  artifactIdentity : String
  budgetClass : CarrierBudgetClass
  size : Nat
  deriving DecidableEq

/-- One carrier, without its bytes. -/
def oneOf (budgetClass : CarrierBudgetClass) : Amounts
  | c, .count => if budgetClass = c then 1 else 0
  | _, .bytes => 0

def bytesOf (budgetClass : CarrierBudgetClass) (size : Nat) : Amounts
  | _, .count => 0
  | c, .bytes => if budgetClass = c then size else 0

def StagedCarrier.charge (carrier : StagedCarrier) : Amounts :=
  oneOf carrier.budgetClass + bytesOf carrier.budgetClass carrier.size

/-- The counts that a capture of the given declarations asks for; a Git branch without a
delta has no carrier. -/
def requestedCounts (declarations : List (Option CarrierBudgetClass)) : Amounts
  | c, .count => declarations.count (some c)
  | _, .bytes => 0

structure CaptureBudgetLedger where
  captured : Amounts
  reserved : Amounts

namespace CaptureBudgetLedger

variable (ledger : CaptureBudgetLedger)

-- subtraction on natural numbers is the saturating one
def exceeds (limits : CarrierBudgetClass → CarrierLimits) (requested : Amounts)
    (c : CarrierBudgetClass) : Bool :=
  (limits c).maximumCount - (ledger.captured c .count + ledger.reserved c .count) <
    requested c .count

def captureBounds (limits : CarrierBudgetClass → CarrierLimits) (c : CarrierBudgetClass) : Nat :=
  let available :=
    (limits c).maximumTotalBytes - (ledger.captured c .bytes + ledger.reserved c .bytes)
  if available < (limits c).maximumBytes then available else (limits c).maximumBytes

def reserve (amounts : Amounts) : CaptureBudgetLedger :=
  { ledger with reserved := ledger.reserved + amounts }

def commit (reservation : Amounts) : CaptureBudgetLedger :=
  ⟨ledger.captured + reservation, ledger.reserved - reservation⟩

/-- A reservation is dropped. -/
def unreserve (reservation : Amounts) : CaptureBudgetLedger :=
  { ledger with reserved := ledger.reserved - reservation }

def releaseBudget (carrier : StagedCarrier) : CaptureBudgetLedger :=
  { ledger with captured := ledger.captured - carrier.charge }

end CaptureBudgetLedger

/-- How far the capture is with the first of the remaining declarations. -/
inductive CaptureProgress where
  | idle
  | bounded (maximumBytes : Nat)
  | staged (carrier : StagedCarrier)
  deriving DecidableEq

structure Capture where
  reservation : Amounts
  remaining : List (Option CarrierBudgetClass)
  captured : Multiset StagedCarrier
  progress : CaptureProgress

/-- The carriers that a capture has in the staging directory. -/
def Capture.carriers (capture : Capture) : Multiset StagedCarrier :=
  match capture.progress with
  | .staged carrier => carrier ::ₘ capture.captured
  | _ => capture.captured

structure CaptureCandidateSet where
  reservation : Amounts
  outputs : Multiset StagedCarrier

/-- The lifecycle of a staging directory; unlinking works here, so no cleanup fails. -/
inductive StagingLifecycle where
  | active
  | cleanupFailed
  | preserved
  | released
  deriving DecidableEq

structure ArtifactStaging where
  ledger : CaptureBudgetLedger := ⟨0, 0⟩
  artifacts : Finset String := ∅
  /-- The committed carriers with a live handle. -/
  committed : Multiset StagedCarrier := 0
  candidates : Multiset CaptureCandidateSet := 0
  capture : Option Capture := none
  dropPolicyPreserved : Bool := false
  lifecycle : StagingLifecycle := .active

def removeWhileActive (artifacts : Finset String) (carriers : Multiset StagedCarrier) :
    Finset String :=
  artifacts.filter fun identity => identity ∉ carriers.map (·.artifactIdentity)

/-- A dropped handle leaves its file. -/
def ArtifactStaging.keepsDropped (s : ArtifactStaging) : Bool :=
  s.dropPolicyPreserved || s.lifecycle = .preserved || s.lifecycle = .released

/-- The files without the one of a dropped handle. -/
def ArtifactStaging.removeArtifact (s : ArtifactStaging) (carrier : StagedCarrier) :
    Finset String :=
  if s.keepsDropped then s.artifacts else removeWhileActive s.artifacts {carrier}

/-- Copy a stream, of which only the lengths of the reads matter, up to a bound. -/
def copyBounded (maximumBytes : Nat) : List Nat → Nat → Option Nat
  | [], copied => some copied
  | read :: reads, copied =>
    if maximumBytes - copied < read then none else copyBounded maximumBytes reads (copied + read)

/-- The checked additions of `reserve_bytes`. -/
def reserveBytesFits (ledger : CaptureBudgetLedger) (reservation : Amounts)
    (carrier : StagedCarrier) : Bool :=
  ledger.reserved carrier.budgetClass .bytes + carrier.size < 2 ^ 64 &&
    reservation carrier.budgetClass .bytes + carrier.size < 2 ^ 64

/-- The steps of captures, commits, aborts and drops.  Each ledger operation runs under the
lock of the ledger.  A stream that is longer than its bound, an error or a cancellation before a
carrier is staged, and a reservation that overflows are `fail`: the files of the capture are
unlinked.  A staged text or JSON value that is not well-formed is `reject`: its own file goes with
its handle. -/
inductive StagingStep (limits : CarrierBudgetClass → CarrierLimits) (s : ArtifactStaging) :
    ArtifactStaging → Prop
  | begin (declarations : List (Option CarrierBudgetClass)) (hidle : s.capture = none)
      (hroom : ∀ c, some c ∈ declarations →
        s.ledger.exceeds limits (requestedCounts declarations) c = false) :
      StagingStep limits s
        { s with
          ledger := s.ledger.reserve (requestedCounts declarations)
          capture := some ⟨requestedCounts declarations, declarations, 0, .idle⟩ }
  | skip {reservation rest captured}
      (hcapture : s.capture = some ⟨reservation, none :: rest, captured, .idle⟩) :
      StagingStep limits s { s with capture := some ⟨reservation, rest, captured, .idle⟩ }
  | bound {reservation c rest captured}
      (hcapture : s.capture = some ⟨reservation, some c :: rest, captured, .idle⟩) :
      StagingStep limits s
        { s with
          capture := some ⟨reservation, some c :: rest, captured,
            .bounded (s.ledger.captureBounds limits c)⟩ }
  | stage {reservation rest captured maximumBytes} (carrier : StagedCarrier) (reads : List Nat)
      (hcapture : s.capture = some
        ⟨reservation, some carrier.budgetClass :: rest, captured, .bounded maximumBytes⟩)
      (hactive : s.lifecycle = .active)
      (hcopied : copyBounded maximumBytes reads 0 = some carrier.size)
      (hfresh : carrier.artifactIdentity ∉ s.artifacts) :
      StagingStep limits s
        { s with
          artifacts := insert carrier.artifactIdentity s.artifacts
          capture := some
            ⟨reservation, some carrier.budgetClass :: rest, captured, .staged carrier⟩ }
  | reserveBytes {reservation rest captured carrier}
      (hcapture : s.capture = some
        ⟨reservation, some carrier.budgetClass :: rest, captured, .staged carrier⟩)
      (hadd : reserveBytesFits s.ledger reservation carrier = true) :
      StagingStep limits s
        { s with
          ledger := s.ledger.reserve (bytesOf carrier.budgetClass carrier.size)
          capture := some ⟨reservation + bytesOf carrier.budgetClass carrier.size, rest,
            carrier ::ₘ captured, .idle⟩ }
  | finish {reservation captured}
      (hcapture : s.capture = some ⟨reservation, [], captured, .idle⟩) :
      StagingStep limits s
        { s with candidates := ⟨reservation, captured⟩ ::ₘ s.candidates, capture := none }
  | fail {capture} (hcapture : s.capture = some capture)
      (hstaged : ∀ carrier, capture.progress = .staged carrier →
        reserveBytesFits s.ledger capture.reservation carrier = false) :
      StagingStep limits s
        { s with
          ledger := s.ledger.unreserve capture.reservation
          artifacts := removeWhileActive s.artifacts capture.carriers
          capture := none }
  | reject {reservation rest captured carrier}
      (hcapture : s.capture = some
        ⟨reservation, some .file :: rest, captured, .staged carrier⟩) :
      StagingStep limits s
        { s with
          ledger := s.ledger.unreserve reservation
          artifacts := removeWhileActive (s.removeArtifact carrier) captured
          capture := none }
  | commit {set others} (hset : s.candidates = set ::ₘ others) :
      StagingStep limits s
        { s with
          ledger := s.ledger.commit set.reservation
          committed := set.outputs + s.committed
          candidates := others }
  | abort {set others} (hset : s.candidates = set ::ₘ others) :
      StagingStep limits s
        { s with
          ledger := s.ledger.unreserve set.reservation
          artifacts := removeWhileActive s.artifacts set.outputs
          candidates := others }
  | drop {carrier others} (hcarrier : s.committed = carrier ::ₘ others) :
      StagingStep limits s
        { s with
          ledger := s.ledger.releaseBudget carrier
          artifacts := s.removeArtifact carrier
          committed := others }
  | preserveOnDrop : StagingStep limits s { s with dropPolicyPreserved := true }
  | preserve :
      StagingStep limits s { s with dropPolicyPreserved := true, lifecycle := .preserved }
  | release (hopen : s.lifecycle ≠ .preserved ∧ s.lifecycle ≠ .released) :
      StagingStep limits s { s with artifacts := ∅, lifecycle := .released }

open ArtifactStaging CaptureBudgetLedger

variable {limits : CarrierBudgetClass → CarrierLimits} {s s' : ArtifactStaging}

/-- What the given carriers are charged. -/
def charges (carriers : Multiset StagedCarrier) : Amounts :=
  (carriers.map (·.charge)).sum

@[simp] theorem charges_zero : charges 0 = 0 := rfl

@[simp] theorem charges_cons (carrier : StagedCarrier) (carriers : Multiset StagedCarrier) :
    charges (carrier ::ₘ carriers) = carrier.charge + charges carriers := by
  simp [charges]

@[simp] theorem charges_add (first second : Multiset StagedCarrier) :
    charges (first + second) = charges first + charges second := by
  simp [charges]

@[simp] theorem requestedCounts_nil : requestedCounts [] = 0 := by
  funext c q
  cases q <;> rfl

@[simp] theorem requestedCounts_some (c : CarrierBudgetClass)
    (rest : List (Option CarrierBudgetClass)) :
    requestedCounts (some c :: rest) = oneOf c + requestedCounts rest := by
  funext c' q
  cases q <;> simp [requestedCounts, oneOf, List.count_cons, add_comm]

@[simp] theorem requestedCounts_none (rest : List (Option CarrierBudgetClass)) :
    requestedCounts (none :: rest) = requestedCounts rest := by
  funext c q
  cases q <;> simp [requestedCounts]

/-- The carriers with a file in the staging directory. -/
def ArtifactStaging.live (s : ArtifactStaging) : Multiset StagedCarrier :=
  s.committed + (s.candidates.map (·.outputs)).sum + s.capture.elim 0 (·.carriers)

/-- The reservations of the candidate sets and of the capture in progress. -/
def ArtifactStaging.reservations (s : ArtifactStaging) : Amounts :=
  (s.candidates.map (·.reservation)).sum + s.capture.elim 0 (·.reservation)

/-- What a capture may still add to the bytes of a class. -/
def Capture.Fits (limits : CarrierBudgetClass → CarrierLimits) (ledger : CaptureBudgetLedger)
    (capture : Capture) : Prop :=
  match capture.progress with
  | .idle => True
  | .bounded maximumBytes => ∀ c rest, capture.remaining = some c :: rest →
      ledger.captured c .bytes + ledger.reserved c .bytes + maximumBytes ≤
        (limits c).maximumTotalBytes ∧ maximumBytes ≤ (limits c).maximumBytes
  | .staged carrier =>
    ledger.captured carrier.budgetClass .bytes + ledger.reserved carrier.budgetClass .bytes +
      carrier.size ≤ (limits carrier.budgetClass).maximumTotalBytes

/-- The ledger is what is live, and within the limits; so are the files, as long as dropped
handles remove theirs. -/
structure Accounted (limits : CarrierBudgetClass → CarrierLimits) (s : ArtifactStaging) : Prop where
  captured : s.ledger.captured = charges s.committed
  reserved : s.ledger.reserved = s.reservations
  candidates : ∀ set ∈ s.candidates, set.reservation = charges set.outputs
  capture : ∀ capture ∈ s.capture,
    capture.reservation = charges capture.captured + requestedCounts capture.remaining
  within : ∀ c q, s.ledger.captured c q + s.ledger.reserved c q ≤ (limits c).total q
  fits : ∀ capture ∈ s.capture, capture.Fits limits s.ledger
  sizes : ∀ carrier ∈ s.live, carrier.size ≤ (limits carrier.budgetClass).maximumBytes
  artifacts : s.keepsDropped = false → s.artifacts.val = s.live.map (·.artifactIdentity)

/-- A bounded copy keeps its bound. -/
theorem copyBounded_le {maximumBytes copied size : Nat} {reads : List Nat}
    (h : copyBounded maximumBytes reads copied = some size) (hcopied : copied ≤ maximumBytes) :
    size ≤ maximumBytes := by
  induction reads generalizing copied with
  | nil =>
    cases h
    exact hcopied
  | cons read reads ih =>
    rw [copyBounded] at h
    split_ifs at h with hlong
    exact ih h (by omega)

theorem Amounts.add_sub_self (first second : Amounts) : first + second - first = second := by
  funext c q
  simp

theorem removeWhileActive_val {artifacts : Finset String} {gone rest : Multiset StagedCarrier}
    (h : artifacts.val = (gone + rest).map (·.artifactIdentity)) :
    (removeWhileActive artifacts gone).val = rest.map (·.artifactIdentity) := by
  have hnodup := artifacts.nodup
  rw [h, Multiset.map_add, Multiset.nodup_add] at hnodup
  rw [removeWhileActive, Finset.filter_val, h, Multiset.map_add, Multiset.filter_add]
  rw [Multiset.filter_eq_nil.mpr (by simp), zero_add, Multiset.filter_eq_self.mpr]
  intro identity hrest hgone
  exact Multiset.disjoint_left.mp hnodup.2.2 hgone hrest

/-- The bounds only grow when less is used. -/
theorem Capture.Fits.mono {ledger ledger' : CaptureBudgetLedger} {capture : Capture}
    (h : capture.Fits limits ledger)
    (hle : ∀ c, ledger'.captured c .bytes + ledger'.reserved c .bytes ≤
      ledger.captured c .bytes + ledger.reserved c .bytes) : capture.Fits limits ledger' := by
  unfold Fits at h ⊢
  split
  · trivial
  · rename_i hprogress
    rw [hprogress] at h
    intro c rest hremaining
    have := h c rest hremaining
    have := hle c
    omega
  · rename_i carrier hprogress
    rw [hprogress] at h
    have := hle carrier.budgetClass
    simp only at h
    omega

namespace Accounted

variable (h : Accounted limits s)
include h

/-- A step that does not touch the capture and uses no more than before. -/
theorem other (hcapture : s'.capture = s.capture)
    (hcaptured : s'.ledger.captured = charges s'.committed)
    (hreserved : s'.ledger.reserved = s'.reservations)
    (hcandidates : ∀ set ∈ s'.candidates, set ∈ s.candidates)
    (hused : ∀ c q, s'.ledger.captured c q + s'.ledger.reserved c q ≤
      s.ledger.captured c q + s.ledger.reserved c q)
    (hlive : s'.live ≤ s.live)
    (hartifacts : s'.keepsDropped = false →
      s'.artifacts.val = s'.live.map (·.artifactIdentity)) :
    Accounted limits s' where
  captured := hcaptured
  reserved := hreserved
  candidates := fun set hset => h.candidates set (hcandidates set hset)
  capture := by rw [hcapture]; exact h.capture
  within := fun c q => (hused c q).trans (h.within c q)
  fits := by
    rw [hcapture]
    exact fun capture hmem => (h.fits capture hmem).mono fun c => hused c .bytes
  sizes := fun carrier hcarrier => h.sizes carrier (Multiset.mem_of_le hlive hcarrier)
  artifacts := hartifacts

/-- The parts of a candidate set in the ledger and in the staging directory. -/
theorem candidate {set : CaptureCandidateSet}
    {others : Multiset CaptureCandidateSet} (hset : s.candidates = set ::ₘ others) :
    s.ledger.reserved = set.reservation +
        ({ s with candidates := others } : ArtifactStaging).reservations ∧
      s.live = set.outputs + ({ s with candidates := others } : ArtifactStaging).live := by
  constructor
  · rw [h.reserved, reservations, hset, Multiset.map_cons, Multiset.sum_cons, add_assoc]
    rfl
  · simp only [live, hset, Multiset.map_cons, Multiset.sum_cons]
    abel

/-- A step of the capture that stages and reserves nothing. -/
theorem recapture {old new : Capture} (hold : s.capture = some old)
    (hreservation : new.reservation = old.reservation) (hcarriers : new.carriers = old.carriers)
    (hcount : new.reservation = charges new.captured + requestedCounts new.remaining)
    (hfits : new.Fits limits s.ledger) : Accounted limits { s with capture := some new } := by
  have hlive : ({ s with capture := some new } : ArtifactStaging).live = s.live := by
    simp [live, hold, hcarriers]
  refine ⟨h.captured, ?_, h.candidates, ?_, h.within, ?_, ?_, ?_⟩
  · simp [h.reserved, reservations, hold, hreservation]
  · simpa using hcount
  · simpa using hfits
  · rw [hlive]
    exact h.sizes
  · rw [hlive]
    exact h.artifacts

/-- A capture that is given up leaves the ledger without its reservation. -/
theorem gaveUp {capture : Capture} {artifacts : Finset String} (hcapture : s.capture = some capture)
    (hartifacts : s.keepsDropped = false → s.live = capture.carriers +
      (s.committed + (s.candidates.map (·.outputs)).sum + 0) → artifacts.val =
        (s.committed + (s.candidates.map (·.outputs)).sum + 0).map (·.artifactIdentity)) :
    Accounted limits { s with
      ledger := s.ledger.unreserve capture.reservation
      artifacts := artifacts
      capture := none } := by
  have hlive : s.live = capture.carriers +
      (s.committed + (s.candidates.map (·.outputs)).sum + 0) := by
    simp [live, hcapture, add_comm]
  have hreserved : s.ledger.reserved = capture.reservation +
      ((s.candidates.map (·.reservation)).sum + 0) := by
    simp [h.reserved, reservations, hcapture, add_comm]
  refine ⟨h.captured, ?_, h.candidates, by simp, ?_, by simp, ?_, fun hkeeps =>
    hartifacts hkeeps hlive⟩
  · rw [unreserve, hreserved, Amounts.add_sub_self]
    rfl
  · intro c q
    have := h.within c q
    simp only [unreserve, Pi.sub_apply]
    omega
  · exact fun carrier hcarrier => h.sizes carrier
      (by rw [hlive]; exact Multiset.mem_add.mpr (.inr hcarrier))

theorem step (hstep : StagingStep limits s s') : Accounted limits s' := by
  cases hstep with
  | begin declarations hidle hroom =>
    have hlive : ({ s with capture := some ⟨requestedCounts declarations, declarations, 0,
        .idle⟩ } : ArtifactStaging).live = s.live := by
      simp [live, hidle, Capture.carriers]
    refine ⟨h.captured, ?_, h.candidates, by simp, ?_, by simp [Capture.Fits], ?_, ?_⟩
    · simp [reserve, h.reserved, reservations, hidle]
    · intro c q
      have hwithin := h.within c q
      simp only [reserve, Pi.add_apply]
      by_cases hrequested : requestedCounts declarations c q = 0
      · rwa [hrequested, add_zero]
      cases q with
      | count =>
        have := hroom c (List.count_pos_iff.mp (Nat.pos_of_ne_zero hrequested))
        simp only [exceeds, decide_eq_false_iff_not, not_lt] at this
        simp only [CarrierLimits.total] at hwithin ⊢
        omega
      | bytes => exact absurd rfl hrequested
    · exact fun carrier hcarrier => h.sizes carrier (hlive ▸ hcarrier)
    · exact fun hkeeps => (h.artifacts hkeeps).trans (congrArg _ hlive.symm)
  | skip hcapture =>
    refine h.recapture hcapture rfl rfl ?_ trivial
    simpa using h.capture _ hcapture
  | @bound _ c _ _ hcapture =>
    have hcount := h.capture _ hcapture
    refine h.recapture hcapture rfl rfl hcount ?_
    intro c' rest' hremaining
    cases hremaining
    have := h.within c .bytes
    simp only [CarrierLimits.total] at this
    simp only [captureBounds]
    split <;> omega
  | @stage _ _ captured _ carrier reads hcapture _ hcopied hfresh =>
    have hsize := copyBounded_le hcopied (Nat.zero_le _)
    have hbound := h.fits _ hcapture _ _ rfl
    have hlive : s.committed + (s.candidates.map (·.outputs)).sum + carrier ::ₘ captured =
        carrier ::ₘ s.live := by
      simp [live, hcapture, Capture.carriers]
    refine ⟨h.captured, ?_, h.candidates, ?_, h.within, ?_, ?_, ?_⟩
    · simp [h.reserved, reservations, hcapture]
    · simpa using h.capture _ hcapture
    · simp only [Option.mem_def, Option.some.injEq, forall_eq', Capture.Fits]
      omega
    · intro other hother
      have hother : other ∈ carrier ::ₘ s.live := by rwa [← hlive]
      rcases Multiset.mem_cons.mp hother with rfl | hold
      · exact hsize.trans hbound.2
      · exact h.sizes other hold
    · intro hkeeps
      rw [Finset.insert_val_of_notMem hfresh, h.artifacts hkeeps]
      exact (congrArg _ hlive).trans (Multiset.map_cons ..) |>.symm
  | @reserveBytes reservation rest captured carrier hcapture =>
    have hcount : reservation = charges captured +
        requestedCounts (some carrier.budgetClass :: rest) := h.capture _ hcapture
    have hfits := h.fits _ hcapture
    simp only [Capture.Fits] at hfits
    refine ⟨h.captured, ?_, h.candidates, ?_, ?_, ?_, ?_, ?_⟩
    · simp [reserve, h.reserved, reservations, hcapture, add_assoc]
    · simp only [Option.mem_def, Option.some.injEq, forall_eq', charges_cons, StagedCarrier.charge]
      rw [hcount, requestedCounts_some]
      abel
    · intro c q
      have := h.within c q
      simp only [reserve, Pi.add_apply]
      cases q with
      | count => simpa [bytesOf] using this
      | bytes =>
        by_cases hc : carrier.budgetClass = c
        · subst hc
          simpa [bytesOf, CarrierLimits.total, add_assoc] using hfits
        · simpa [bytesOf, hc] using this
    · simp [Capture.Fits]
    · simpa [live, Capture.carriers, hcapture] using h.sizes
    · intro hkeeps
      simpa [live, Capture.carriers, hcapture] using h.artifacts hkeeps
  | @finish reservation captured hcapture =>
    have hcount := h.capture _ hcapture
    simp only [requestedCounts_nil, add_zero] at hcount
    have hlive : s.committed + ((⟨reservation, captured⟩ ::ₘ s.candidates).map
        (fun set : CaptureCandidateSet => set.outputs)).sum + 0 = s.live := by
      simp only [live, hcapture, Capture.carriers, Multiset.map_cons,
        Multiset.sum_cons, Option.elim_some]
      abel
    refine ⟨h.captured, ?_, ?_, by simp, h.within, by simp, ?_, ?_⟩
    · simp [h.reserved, reservations, hcapture, add_comm]
    · simp only [Multiset.mem_cons, forall_eq_or_imp]
      exact ⟨hcount, h.candidates⟩
    · exact fun carrier hcarrier => h.sizes carrier (by rwa [← hlive])
    · exact fun hkeeps => (h.artifacts hkeeps).trans (congrArg _ hlive.symm)
  | @fail capture hcapture =>
    exact h.gaveUp hcapture fun hkeeps hlive =>
      removeWhileActive_val ((h.artifacts hkeeps).trans (congrArg _ hlive))
  | @reject reservation rest captured carrier hcapture =>
    refine h.gaveUp hcapture fun hkeeps hlive => ?_
    have hdropped : (s.removeArtifact carrier).val = (captured + (s.committed +
        (s.candidates.map (·.outputs)).sum + 0)).map (·.artifactIdentity) := by
      rw [ArtifactStaging.removeArtifact, if_neg (by rw [hkeeps]; exact Bool.false_ne_true)]
      refine removeWhileActive_val ((h.artifacts hkeeps).trans ?_)
      rw [hlive, Multiset.singleton_add]
      exact congrArg _ (Multiset.cons_add ..)
    exact removeWhileActive_val hdropped
  | @commit set _ hset =>
    obtain ⟨hreserved, hlive⟩ := h.candidate hset
    refine h.other rfl ?_ ?_ (fun other hother => by simp [hset, hother]) ?_ ?_ ?_
    · simp [commit, h.captured, h.candidates set (by simp [hset]), add_comm]
    · rw [commit, hreserved, Amounts.add_sub_self]
      rfl
    · intro c q
      have := congrFun (congrFun hreserved c) q
      simp only [commit, Pi.add_apply, Pi.sub_apply] at this ⊢
      omega
    · rw [hlive]
      simp only [live, add_assoc, le_refl]
    · intro hkeeps
      rw [h.artifacts hkeeps, hlive]
      simp only [live, add_assoc]
  | @abort _ _ hset =>
    obtain ⟨hreserved, hlive⟩ := h.candidate hset
    refine h.other rfl h.captured ?_ (fun other hother => by simp [hset, hother]) ?_ ?_ ?_
    · rw [unreserve, hreserved, Amounts.add_sub_self]
      rfl
    · intro c q
      simp only [unreserve, Pi.sub_apply]
      omega
    · rw [hlive]
      exact Multiset.le_add_left _ _
    · exact fun hkeeps => removeWhileActive_val (by rw [h.artifacts hkeeps, hlive]; rfl)
  | @drop carrier others hcarrier =>
    have hcaptured : s.ledger.captured = carrier.charge + charges others := by
      rw [h.captured, hcarrier, charges_cons]
    have hlive : s.live = {carrier} + ({ s with committed := others } : ArtifactStaging).live := by
      simp only [live, hcarrier, ← Multiset.singleton_add]
      abel
    refine h.other rfl ?_ h.reserved (fun _ hset => hset) ?_ ?_ ?_
    · rw [releaseBudget, hcaptured, Amounts.add_sub_self]
    · intro c q
      simp only [releaseBudget, Pi.sub_apply]
      omega
    · rw [hlive]
      exact Multiset.le_add_left _ _
    · intro hkeeps
      have hdrops : s.keepsDropped = false := hkeeps
      rw [ArtifactStaging.removeArtifact, hdrops, if_neg Bool.false_ne_true]
      exact removeWhileActive_val (by rw [h.artifacts hdrops, hlive]; rfl)
  | preserveOnDrop | preserve | release =>
    refine h.other rfl h.captured h.reserved (fun _ hset => hset) (fun _ _ => le_refl _)
      (le_refl _) fun hkeeps => ?_
    simp [keepsDropped] at hkeeps

end Accounted

end ScherzoCloud.Workflow
