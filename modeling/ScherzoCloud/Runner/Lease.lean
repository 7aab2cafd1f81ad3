import Mathlib.Algebra.Ring.Nat
import ScherzoCloud.Collections.Iteration

/-!
# Execution leases of the runner

An instant of the lease clock is a number of nanoseconds in the domain of one
clock, and all arithmetic on it is checked.  From the welcomed policy and the
basis of a grant, `LeaseAuthority.derive` computes the instants by which a job has
to ask for more time, to stop by itself and to be stopped.
-/

namespace ScherzoCloud.Runner

open Collections

inductive LeaseClockError where
  | clockUnavailable
  | timerUnavailable
  | timerWaitFailed
  | arithmeticOverflow
  | incompatibleInstant
  deriving DecidableEq, Repr

/-- Durations in nanoseconds. -/
abbrev Duration := Nat

def Duration.fromMillis (milliseconds : Nat) : Nat :=
  milliseconds * 1000000

def Duration.fromSecs (seconds : Nat) : Nat :=
  seconds * 1000000000

structure LeaseInstant where
  clockDomain : Nat
  nanoseconds : Nat
  deriving DecidableEq, Repr

def durationNanoseconds (duration : Duration) : Except LeaseClockError Nat :=
  if duration < 2 ^ 64 then .ok duration else .error .arithmeticOverflow

namespace LeaseInstant

def checkedAdd (instant : LeaseInstant) (duration : Duration) :
    Except LeaseClockError LeaseInstant := do
  let nanoseconds ← durationNanoseconds duration
  if instant.nanoseconds + nanoseconds < 2 ^ 64 then
    .ok { instant with nanoseconds := instant.nanoseconds + nanoseconds }
  else
    .error .arithmeticOverflow

def checkedSub (instant : LeaseInstant) (duration : Duration) :
    Except LeaseClockError LeaseInstant := do
  let nanoseconds ← durationNanoseconds duration
  if nanoseconds ≤ instant.nanoseconds then
    .ok { instant with nanoseconds := instant.nanoseconds - nanoseconds }
  else
    .error .arithmeticOverflow

def requireSameDomain (instant other : LeaseInstant) : Except LeaseClockError Unit :=
  if instant.clockDomain = other.clockDomain then .ok () else .error .incompatibleInstant

def checkedDurationSince (instant earlier : LeaseInstant) : Except LeaseClockError Duration := do
  instant.requireSameDomain earlier
  if earlier.nanoseconds ≤ instant.nanoseconds then
    .ok (instant.nanoseconds - earlier.nanoseconds)
  else
    .error .arithmeticOverflow

def checkedCmp (instant other : LeaseInstant) : Except LeaseClockError Ordering := do
  instant.requireSameDomain other
  .ok (compare instant.nanoseconds other.nanoseconds)

variable {instant other result : LeaseInstant} {duration : Duration}

theorem checkedAdd_ok (h : instant.checkedAdd duration = .ok result) :
    result.clockDomain = instant.clockDomain ∧
      result.nanoseconds = instant.nanoseconds + duration := by
  obtain ⟨nanoseconds, hduration, h⟩ := bind_eq_ok_iff.mp h
  unfold durationNanoseconds at hduration
  split_ifs at hduration h
  cases hduration
  cases h
  exact ⟨rfl, rfl⟩

theorem checkedSub_ok (h : instant.checkedSub duration = .ok result) :
    result.clockDomain = instant.clockDomain ∧
      result.nanoseconds + duration = instant.nanoseconds := by
  obtain ⟨nanoseconds, hduration, h⟩ := bind_eq_ok_iff.mp h
  unfold durationNanoseconds at hduration
  split_ifs at hduration h with _ hle
  cases hduration
  cases h
  exact ⟨rfl, Nat.sub_add_cancel hle⟩

theorem checkedDurationSince_ok (h : instant.checkedDurationSince other = .ok duration) :
    other.nanoseconds + duration = instant.nanoseconds := by
  obtain ⟨_, _, h⟩ := bind_eq_ok_iff.mp h
  split_ifs at h with hle
  cases h
  omega

theorem checkedCmp_ok {order : Ordering} (h : instant.checkedCmp other = .ok order) :
    order = compare instant.nanoseconds other.nanoseconds := by
  obtain ⟨_, _, h⟩ := bind_eq_ok_iff.mp h
  cases h
  rfl

theorem checkedCmp_lt (h : instant.checkedCmp other = .ok .lt) :
    instant.nanoseconds < other.nanoseconds :=
  Nat.compare_eq_lt.mp (checkedCmp_ok h).symm

end LeaseInstant

def minimumRenewalHeadroom : Duration := .fromSecs 30

structure ExecutionLeasePolicy where
  schemaVersion : Nat
  forceStopAndReapBudgetMilliseconds : Int
  terminalReportDeliveryBudgetMilliseconds : Int
  renewalDeliveryBudgetMilliseconds : Int
  leaseDurationMilliseconds : Nat
  fencingMarginMilliseconds : Nat
  deriving DecidableEq, Repr

structure LeaseAuthority where
  sequence : Nat
  basis : LeaseInstant
  renewalRequest : LeaseInstant
  cancellationStart : LeaseInstant
  forceStopStart : LeaseInstant
  forceStopEnd : LeaseInstant
  localExpiry : LeaseInstant
  terminalReportDeliveryBudget : Duration
  revoked : Bool
  deriving DecidableEq, Repr

/-- `u64::try_from` of a budget of the policy, as a duration. -/
def budgetDuration (milliseconds : Int) : Except LeaseClockError Duration :=
  if 0 ≤ milliseconds then .ok (.fromMillis milliseconds.toNat) else .error .arithmeticOverflow

namespace LeaseAuthority

def derive (sequence : Nat) (basis : LeaseInstant) (policy : ExecutionLeasePolicy)
    (cancellationGrace : Duration) : Except LeaseClockError LeaseAuthority := do
  let leaseDuration := Duration.fromMillis policy.leaseDurationMilliseconds
  let fencingMargin := Duration.fromMillis policy.fencingMarginMilliseconds
  let renewalDeliveryBudget ← budgetDuration policy.renewalDeliveryBudgetMilliseconds
  let forceStopReapBudget ← budgetDuration policy.forceStopAndReapBudgetMilliseconds
  let terminalReportDeliveryBudget ← budgetDuration policy.terminalReportDeliveryBudgetMilliseconds
  let localExpiry ← basis.checkedAdd leaseDuration
  let forceStopStart ← localExpiry.checkedSub fencingMargin
  let cancellationStart ← forceStopStart.checkedSub cancellationGrace
  let cancellationWindow ← cancellationStart.checkedDurationSince basis
  let renewalLead := min (max renewalDeliveryBudget minimumRenewalHeadroom) (cancellationWindow / 2)
  let renewalRequest ← cancellationStart.checkedSub renewalLead
  let forceStopEnd ← forceStopStart.checkedAdd forceStopReapBudget
  .ok {
    sequence
    basis
    renewalRequest
    cancellationStart
    forceStopStart
    forceStopEnd
    localExpiry
    terminalReportDeliveryBudget
    revoked := false }

/-- What `derive` has computed. -/
structure Derived (authority : LeaseAuthority) (sequence : Nat) (basis : LeaseInstant)
    (policy : ExecutionLeasePolicy) (cancellationGrace : Duration) : Prop where
  sequence_eq : authority.sequence = sequence
  basis_eq : authority.basis = basis
  domain : authority.localExpiry.clockDomain = basis.clockDomain ∧
    authority.cancellationStart.clockDomain = basis.clockDomain
  expiry : authority.localExpiry.nanoseconds =
    basis.nanoseconds + Duration.fromMillis policy.leaseDurationMilliseconds
  forceStop : authority.forceStopStart.nanoseconds +
    Duration.fromMillis policy.fencingMarginMilliseconds = authority.localExpiry.nanoseconds
  cancellation : authority.cancellationStart.nanoseconds + cancellationGrace =
    authority.forceStopStart.nanoseconds
  renewal : basis.nanoseconds ≤ authority.renewalRequest.nanoseconds ∧
    authority.renewalRequest.nanoseconds ≤ authority.cancellationStart.nanoseconds
  forceEnd : authority.forceStopEnd.nanoseconds = authority.forceStopStart.nanoseconds +
    Duration.fromMillis policy.forceStopAndReapBudgetMilliseconds.toNat
  budget : authority.terminalReportDeliveryBudget =
    Duration.fromMillis policy.terminalReportDeliveryBudgetMilliseconds.toNat

variable {sequence : Nat} {basis : LeaseInstant} {policy : ExecutionLeasePolicy}
  {cancellationGrace : Duration} {authority : LeaseAuthority}

theorem derive_spec (h : derive sequence basis policy cancellationGrace = .ok authority) :
    Derived authority sequence basis policy cancellationGrace ∧ authority.revoked = false := by
  obtain ⟨renewalBudget, _, h⟩ := bind_eq_ok_iff.mp h
  obtain ⟨forceBudget, hforce, h⟩ := bind_eq_ok_iff.mp h
  obtain ⟨terminalBudget, hterminal, h⟩ := bind_eq_ok_iff.mp h
  obtain ⟨localExpiry, hexpiry, h⟩ := bind_eq_ok_iff.mp h
  obtain ⟨forceStopStart, hforceStart, h⟩ := bind_eq_ok_iff.mp h
  obtain ⟨cancellationStart, hcancellation, h⟩ := bind_eq_ok_iff.mp h
  obtain ⟨window, hwindow, h⟩ := bind_eq_ok_iff.mp h
  obtain ⟨renewalRequest, hrenewal, h⟩ := bind_eq_ok_iff.mp h
  obtain ⟨forceStopEnd, hforceEnd, h⟩ := bind_eq_ok_iff.mp h
  cases h
  unfold budgetDuration at hforce hterminal
  split_ifs at hforce hterminal
  cases hforce
  cases hterminal
  obtain ⟨hexpiryDomain, hexpiry⟩ := LeaseInstant.checkedAdd_ok hexpiry
  obtain ⟨hforceDomain, hforceStart⟩ := LeaseInstant.checkedSub_ok hforceStart
  obtain ⟨hcancellationDomain, hcancellation⟩ := LeaseInstant.checkedSub_ok hcancellation
  have hwindow := LeaseInstant.checkedDurationSince_ok hwindow
  obtain ⟨_, hrenewal⟩ := LeaseInstant.checkedSub_ok hrenewal
  obtain ⟨_, hforceEnd⟩ := LeaseInstant.checkedAdd_ok hforceEnd
  -- the request is at most half of the window before the cancellation starts
  have hlead := Nat.min_le_right (max renewalBudget minimumRenewalHeadroom) (window / 2)
  refine ⟨⟨rfl, rfl, ⟨hexpiryDomain, ?_⟩, hexpiry, hforceStart, hcancellation,
    ⟨?_, ?_⟩, hforceEnd, rfl⟩, rfl⟩
  · rw [hcancellationDomain, hforceDomain, hexpiryDomain]
  · dsimp only
    omega
  · dsimp only
    omega

end LeaseAuthority

inductive RenewalRequestFailure where
  | leaseClock
  | outbox
  | sequence
  deriving DecidableEq, Repr

inductive WelcomePolicyFailure where
  | invalid
  | changed
  deriving DecidableEq, Repr

def maximumCancellationGrace : Duration := .fromSecs (5 * 60)

/-- The checks of a welcomed policy; all of them fail alike. -/
def validateLeasePolicy (policy : ExecutionLeasePolicy) : Except WelcomePolicyFailure Unit :=
  let forceStop := policy.forceStopAndReapBudgetMilliseconds
  let terminalReport := policy.terminalReportDeliveryBudgetMilliseconds
  let renewalDelivery := policy.renewalDeliveryBudgetMilliseconds
  let lease := policy.leaseDurationMilliseconds
  let fencing := policy.fencingMarginMilliseconds
  let grace := maximumCancellationGrace / 1000000
  if policy.schemaVersion = 2 ∧ 0 ≤ forceStop ∧ 0 ≤ terminalReport ∧ 0 ≤ renewalDelivery ∧
      lease ≠ 0 ∧ fencing ≠ 0 ∧ forceStop.toNat + terminalReport.toNat < 2 ^ 64 ∧
      forceStop.toNat + terminalReport.toNat ≤ fencing ∧ fencing + grace ≤ lease ∧
      max renewalDelivery.toNat (minimumRenewalHeadroom / 1000000) ≤
        (lease - fencing - grace) / 2 then
    .ok ()
  else
    .error .invalid

/-- A welcomed policy reserves two renewal leads before the longest admitted grace, and within the
fencing margin the forced stop and the last report. -/
theorem welcomed_policy_suffices {policy : ExecutionLeasePolicy} {sequence grace : Nat}
    {basis : LeaseInstant}
    {authority : LeaseAuthority}
    (hvalid : validateLeasePolicy policy = .ok ())
    (hgrace : grace ≤ maximumCancellationGrace)
    (hderive : LeaseAuthority.derive sequence basis policy grace = .ok authority) :
    basis.nanoseconds + 2 * max minimumRenewalHeadroom
        (Duration.fromMillis policy.renewalDeliveryBudgetMilliseconds.toNat) ≤
      authority.cancellationStart.nanoseconds ∧
    authority.forceStopEnd.nanoseconds + authority.terminalReportDeliveryBudget ≤
      authority.localExpiry.nanoseconds := by
  unfold validateLeasePolicy at hvalid
  dsimp only at hvalid
  split_ifs at hvalid with hchecks
  obtain ⟨-, -, -, -, -, -, -, hfencing, hlease, hwindow⟩ := hchecks
  change grace ≤ 300000000000 at hgrace
  change _ + 300000 ≤ _ at hlease
  change max _ 30000 ≤ (_ - _ - 300000) / 2 at hwindow
  obtain ⟨⟨-, -, -, hexpiry, hforce, hcancellation, -, hend, hbudget⟩, -⟩ :=
    LeaseAuthority.derive_spec hderive
  rw [hbudget, hend]
  generalize hR : Duration.fromMillis policy.renewalDeliveryBudgetMilliseconds.toNat = R
  generalize hH : minimumRenewalHeadroom = H
  have hH : (30000000000 : Nat) = H := hH
  unfold Duration.fromMillis at *
  omega

/-- A lease of ten minutes. -/
def longPolicy : ExecutionLeasePolicy := ⟨2, 20000, 30000, 10000, 600000, 60000⟩

def longAuthority : LeaseAuthority :=
  ⟨1, ⟨0, 0⟩, ⟨0, 210000000000⟩, ⟨0, 240000000000⟩, ⟨0, 540000000000⟩, ⟨0, 560000000000⟩,
    ⟨0, 600000000000⟩, 30000000000, false⟩

theorem longPolicy_suffices : longAuthority.forceStopEnd.nanoseconds +
    longAuthority.terminalReportDeliveryBudget ≤ longAuthority.localExpiry.nanoseconds :=
  (welcomed_policy_suffices (show validateLeasePolicy longPolicy = .ok () by decide)
    (Nat.le_refl _) (show LeaseAuthority.derive 1 ⟨0, 0⟩ longPolicy _ = .ok longAuthority by
      decide)).2

end ScherzoCloud.Runner
