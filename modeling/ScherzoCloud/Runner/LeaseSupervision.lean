import ScherzoCloud.Runner.Lease
import ScherzoCloud.Workflow.Evidence

/-!
# Execution under a lease

`run_under_lease` drives the execution of an assignment while its lease lasts.  It
is modelled as a machine that does one primitive at each step: it takes a published
value, reads the clock, polls one branch of a `select!`, or acts.  What the primitive
finds is given by an environment for every moment, so that each environment is one
interleaving of the renewals, the revocations, the timers and the end of the
execution.
-/

namespace ScherzoCloud.Runner

open Collections Workflow

variable {O : Type} {deadline now : LeaseInstant} {output : O} {lost : Bool}

inductive InfrastructureInterruption where
  | runnerShutdown
  | executionLeaseExpired
  deriving DecidableEq, Repr

inductive LeaseExecution (O : Type) where
  | completed (output : O) (finalDeliveryBudget : Option Duration)
      (infrastructureInterruption : Option InfrastructureInterruption)
  | containmentDeadline
  | leaseClockFailed (quiescent : Bool) (error : LeaseClockError)
  deriving DecidableEq, Repr

/-- What the primitives find at each moment.  `version` counts the publications of
the authority; a poll of `infrastructureChanged` finds a change, or a closed sender,
or nothing yet. -/
structure LeaseEnvironment (O : Type) where
  time : Nat → Except LeaseClockError LeaseInstant
  authority : Nat → LeaseAuthority
  version : Nat → Nat
  authorityClosed : Nat → Bool
  infrastructure : Nat → Option InfrastructureInterruption
  infrastructureChanged : Nat → Option Bool
  timer : Nat → Option (Except LeaseClockError Unit)
  renewal : Nat → Except RenewalRequestFailure Unit
  execution : Nat → Option O
  quiescent : Nat → Bool

/-- The clock does not go back, a publication has one value, and every published
authority was derived from a policy, whether or not it has been revoked since. -/
structure LeaseEnvironment.Lawful (env : LeaseEnvironment O) : Prop where
  monotone : ∀ {k l : Nat} {earlier later : LeaseInstant}, k ≤ l →
    env.time k = .ok earlier → env.time l = .ok later → earlier.nanoseconds ≤ later.nanoseconds
  published : ∀ {k l : Nat}, env.version k = env.version l → env.authority k = env.authority l
  derived : ∀ k, ∃ sequence basis policy grace,
    (env.authority k).Derived sequence basis policy grace

/-- The branches of a biased `select!`. -/
inductive SelectBranch where
  | timer
  | authority
  | infrastructure
  | execution
  deriving DecidableEq, Repr

/-- Where the supervisor stands: the primitive it does next. -/
inductive SupervisorPoint (O : Type) where
  -- `run_under_lease`
  | takeAuthority
  | takeInfrastructure
  | checkLease
  | outerSelect (branch : SelectBranch)
  | checkRenewal
  | requestRenewal
  | innerSelect (branch : SelectBranch)
  | compareAuthority
  -- `complete_ready_execution`
  | completeReady (output : O) (interruption : Option InfrastructureInterruption)
      (leaseAlreadyLost : Bool)
  | judgeReady (output : O) (interruption : Option InfrastructureInterruption)
      (leaseAlreadyLost : Bool) (now : LeaseInstant)
  | expireReady (output : O) (now : LeaseInstant)
  | containReady (output : O)
  | checkReadyEnd (output : O)
  | checkReadyQuiescent (output : O)
  -- `finish_after_lease_loss`
  | loseLease
  | checkForceStop
  | lossSelect (branch : SelectBranch)
  | contain
  | checkForceStopEnd
  | containSelect (branch : SelectBranch)
  -- `fail_lease_timer` and `fail_lease_clock`
  | failTimer (error : LeaseClockError)
  | failTimerQuiescent (error : LeaseClockError)
  | failTimerExecution (error : LeaseClockError)
  | failClock (error : LeaseClockError)
  | failQuiescent (error : LeaseClockError)
  | returned (result : LeaseExecution O)
  deriving DecidableEq, Repr

/-- What the supervisor has seen of the clock and the execution, and what it did. -/
inductive SupervisorAction (O : Type) where
  | read (reading : Except LeaseClockError LeaseInstant)
  | finished (output : O)
  | renewalRequested (sequence : Nat)
  | requested (reason : CancellationReason)
  | fenced
  | containmentBegun
  | quiescence (quiescent : Bool)

structure Supervisor (O : Type) where
  point : SupervisorPoint O
  authority : LeaseAuthority
  seen : Nat
  interruption : Option InfrastructureInterruption
  log : List (SupervisorAction O)
  moment : Nat

namespace Supervisor

def advance (s : Supervisor O) (actions : List (SupervisorAction O))
    (point : SupervisorPoint O) : Supervisor O :=
  { s with point, log := s.log ++ actions, moment := s.moment + 1 }

def readClock (env : LeaseEnvironment O) (s : Supervisor O)
    (next : Except LeaseClockError LeaseInstant → SupervisorPoint O) : Supervisor O :=
  s.advance [.read (env.time s.moment)] (next (env.time s.moment))

def takeAuthority (env : LeaseEnvironment O) (s : Supervisor O) : Supervisor O :=
  { s with authority := env.authority s.moment, seen := env.version s.moment }

/-- A value of the infrastructure channel replaces the one held. -/
def takeInfrastructure (env : LeaseEnvironment O) (s : Supervisor O) : Supervisor O :=
  { s with interruption := (env.infrastructure s.moment).or s.interruption }

/-- Poll one branch of a `select!` of the loop, which goes on at `fired` after its
timer.  A pending poll goes on to the next branch, and the last one waits for the
first. -/
def pollBranch (env : LeaseEnvironment O) (s : Supervisor O)
    (select : SelectBranch → SupervisorPoint O) (fired : SupervisorPoint O) :
    SelectBranch → Supervisor O
  | .timer =>
    match env.timer s.moment with
    | none => s.advance [] (select .authority)
    | some (.error error) => s.advance [] (.failTimer error)
    | some (.ok ()) => s.advance [] fired
  | .authority =>
    -- an unseen value is found before a closed sender
    if env.version s.moment ≠ s.seen then s.advance [] .takeAuthority
    else if env.authorityClosed s.moment then s.advance [] .loseLease
    else s.advance [] (select .infrastructure)
  | .infrastructure =>
    match env.infrastructureChanged s.moment with
    | none => s.advance [] (select .execution)
    | some true => (s.takeInfrastructure env).advance [] .takeAuthority
    | some false => s.advance [] .takeAuthority
  | .execution =>
    match env.execution s.moment with
    | none => s.advance [] (select .timer)
    | some output =>
      s.advance [.finished output] (.completeReady output s.interruption false)

def beginForcedContainment : List (SupervisorAction O) :=
  [.fenced, .requested .executionLeaseExpired, .containmentBegun]

/-- The point after `now` was compared with the start of the cancellation. -/
def leasePoint (authority : LeaseAuthority) :
    Except LeaseClockError LeaseInstant → SupervisorPoint O
  | .error error => .failClock error
  | .ok now =>
    match now.checkedCmp authority.cancellationStart with
    | .error error => .failClock error
    | .ok order =>
      if authority.revoked = true ∨ order ≠ .lt then .loseLease else .outerSelect .timer

def renewalPoint (authority : LeaseAuthority) :
    Except LeaseClockError LeaseInstant → SupervisorPoint O
  | .error error => .failClock error
  | .ok now =>
    match now.checkedCmp authority.cancellationStart with
    | .ok .lt => .requestRenewal
    | _ => .loseLease

def readyPoint (output : O) (interruption : Option InfrastructureInterruption)
    (leaseAlreadyLost : Bool) : Except LeaseClockError LeaseInstant → SupervisorPoint O
  | .error error => .failClock error
  | .ok now => .judgeReady output interruption leaseAlreadyLost now

def judgedPoint (authority : LeaseAuthority) (output : O)
    (interruption : Option InfrastructureInterruption) (leaseAlreadyLost : Bool)
    (now : LeaseInstant) : SupervisorPoint O :=
  if leaseAlreadyLost then .expireReady output now
  else
    match now.checkedCmp authority.cancellationStart with
    | .error error => .failClock error
    | .ok .lt =>
      if authority.revoked then .expireReady output now
      else .returned (.completed output none interruption)
    | .ok _ => .expireReady output now

/-- The result of an execution that has ended after its lease was lost. -/
def lateCompletion (authority : LeaseAuthority) (output : O) : LeaseExecution O :=
  .completed output (some authority.terminalReportDeliveryBudget) (some .executionLeaseExpired)

def expiredPoint (authority : LeaseAuthority) (output : O) (now : LeaseInstant) :
    SupervisorPoint O :=
  match now.checkedCmp authority.forceStopStart with
  | .error error => .failClock error
  | .ok .lt => .returned (lateCompletion authority output)
  | .ok _ => .containReady output

/-- The point after `now` was compared with the end of the forced stop. -/
def endPoint (authority : LeaseAuthority) (inTime : SupervisorPoint O)
    (reading : Except LeaseClockError LeaseInstant) : SupervisorPoint O :=
  match reading >>= (·.checkedCmp authority.forceStopEnd) with
  | .error error => .failQuiescent error
  | .ok .gt => .returned .containmentDeadline
  | .ok _ => inTime

def forceStopPoint (authority : LeaseAuthority) :
    Except LeaseClockError LeaseInstant → SupervisorPoint O
  | .error error => .failClock error
  | .ok now =>
    match now.checkedCmp authority.forceStopStart with
    | .error error => .failClock error
    | .ok .lt => .lossSelect .timer
    | .ok _ => .contain

def step (env : LeaseEnvironment O) (s : Supervisor O) : Supervisor O :=
  match s.point with
  | .takeAuthority => (s.takeAuthority env).advance [] .takeInfrastructure
  | .takeInfrastructure => (s.takeInfrastructure env).advance [] .checkLease
  | .checkLease => s.readClock env (leasePoint s.authority)
  | .outerSelect branch => s.pollBranch env .outerSelect .checkRenewal branch
  | .checkRenewal => s.readClock env (renewalPoint s.authority)
  | .requestRenewal =>
    s.advance [.renewalRequested s.authority.sequence]
      (match env.renewal s.moment with
      | .ok () => .innerSelect .timer
      | .error .leaseClock => .failClock .clockUnavailable
      | .error .outbox | .error .sequence => .loseLease)
  | .innerSelect branch => s.pollBranch env .innerSelect .compareAuthority branch
  | .compareAuthority =>
    s.advance [] (if env.authority s.moment ≠ s.authority then .takeAuthority else .loseLease)
  | .completeReady output interruption leaseAlreadyLost =>
    s.readClock env (readyPoint output interruption leaseAlreadyLost)
  | .judgeReady output interruption leaseAlreadyLost now =>
    s.advance [] (judgedPoint s.authority output interruption leaseAlreadyLost now)
  | .expireReady output now =>
    s.advance [.requested .executionLeaseExpired] (expiredPoint s.authority output now)
  | .containReady output => s.advance beginForcedContainment (.checkReadyEnd output)
  | .checkReadyEnd output => s.readClock env (endPoint s.authority (.checkReadyQuiescent output))
  | .checkReadyQuiescent output =>
    s.advance [.quiescence (env.quiescent s.moment)]
      (if env.quiescent s.moment then .returned (lateCompletion s.authority output)
      else .returned .containmentDeadline)
  | .loseLease => s.advance [.requested .executionLeaseExpired] .checkForceStop
  | .checkForceStop => s.readClock env (forceStopPoint s.authority)
  | .lossSelect .timer =>
    match env.timer s.moment with
    | none => s.advance [] (.lossSelect .execution)
    | some (.error error) => s.advance [] (.failTimer error)
    | some (.ok ()) => s.advance [] .contain
  | .lossSelect _ =>
    match env.execution s.moment with
    | none => s.advance [] (.lossSelect .timer)
    | some output =>
      s.advance [.finished output] (.completeReady output (some .executionLeaseExpired) true)
  | .contain => s.advance beginForcedContainment .checkForceStopEnd
  | .checkForceStopEnd => s.readClock env (endPoint s.authority (.containSelect .execution))
  | .containSelect .timer =>
    match env.timer s.moment with
    | none => s.advance [] (.containSelect .execution)
    | some (.error error) => s.advance [] (.failTimer error)
    | some (.ok ()) => s.advance [] (.returned .containmentDeadline)
  | .containSelect _ =>
    -- here the execution is polled before the timer
    match env.execution s.moment with
    | none => s.advance [] (.containSelect .timer)
    | some output =>
      s.advance [.finished output] (.completeReady output (some .executionLeaseExpired) true)
  | .failTimer error => s.advance beginForcedContainment (.failTimerQuiescent error)
  | .failTimerQuiescent error =>
    s.advance [.quiescence (env.quiescent s.moment)]
      (if env.quiescent s.moment then .failQuiescent error else .failTimerExecution error)
  | .failTimerExecution error =>
    match env.execution s.moment with
    | none => s.advance [] (.failTimerExecution error)
    | some output => s.advance [.finished output] (.failQuiescent error)
  | .failClock error => s.advance beginForcedContainment (.failQuiescent error)
  | .failQuiescent error =>
    s.advance [.quiescence (env.quiescent s.moment)]
      (.returned (.leaseClockFailed (env.quiescent s.moment) error))
  | .returned _ => s

def initial (env : LeaseEnvironment O) : Supervisor O where
  point := .takeAuthority
  authority := env.authority 0
  seen := env.version 0
  interruption := env.infrastructure 0
  log := []
  moment := 0

end Supervisor

/-- The supervisor after a number of primitives. -/
def runUnderLease (env : LeaseEnvironment O) (n : Nat) : Supervisor O :=
  (Supervisor.step env)^[n] (.initial env)

variable {env : LeaseEnvironment O}

namespace SupervisorAction

/-- Actions that neither read the clock nor request the cancellation. -/
def silent : SupervisorAction O → Bool
  | read _ | requested _ => false
  | _ => true

end SupervisorAction

namespace Supervisor

variable {s : Supervisor O} {actions : List (SupervisorAction O)} {point : SupervisorPoint O}

/-- The cancellation for the expired lease has been requested. -/
def Requested (s : Supervisor O) : Prop :=
  .requested .executionLeaseExpired ∈ s.log

/-- The assignment is fenced, and its processes are being stopped. -/
structure Contained (s : Supervisor O) : Prop where
  requested : s.Requested
  fenced : .fenced ∈ s.log
  begun : .containmentBegun ∈ s.log

def Before (s : Supervisor O) (deadline : LeaseInstant) : Prop :=
  ∀ now, .read (.ok now) ∈ s.log → now.nanoseconds < deadline.nanoseconds

def Latest (s : Supervisor O) (now : LeaseInstant) : Prop :=
  ∀ earlier, .read (.ok earlier) ∈ s.log → earlier.nanoseconds ≤ now.nanoseconds

/-- The authority was the published one at most `delay` primitives ago. -/
def Current (env : LeaseEnvironment O) (s : Supervisor O) (delay : Nat) : Prop :=
  ∃ k, k < s.moment ∧ s.moment ≤ k + delay ∧ env.authority k = s.authority

/-- The authority held permits the execution at every reading so far. -/
structure InForce (s : Supervisor O) : Prop where
  unrequested : ¬ s.Requested
  unrevoked : s.authority.revoked = false
  before : s.Before s.authority.cancellationStart

/-- The branches after the authority are polled while it is the published one. -/
def Polled (env : LeaseEnvironment O) (s : Supervisor O) : SelectBranch → Prop
  | .timer | .authority => True
  | .infrastructure => s.Current env 1
  | .execution => s.Current env 2

/-- The execution ended before the cancellation was due under a current authority. -/
structure InTime (env : LeaseEnvironment O) (s : Supervisor O) (output : O) : Prop where
  unrequested : ¬ s.Requested
  unrevoked : s.authority.revoked = false
  current : s.Current env 5
  reading : ∃ earlier now, s.log = earlier ++ [.finished output, .read (.ok now)] ∧
    now.checkedCmp s.authority.cancellationStart = .ok .lt
  before : s.Before s.authority.cancellationStart

/-- The execution ended after the lease was lost, but before the forced stop or with
nothing left of it by the end of the forced stop. -/
structure Late (s : Supervisor O) (budget : Duration)
    (interruption : Option InfrastructureInterruption) : Prop where
  requested : s.Requested
  marked : interruption = some .executionLeaseExpired
  budget_eq : budget = s.authority.terminalReportDeliveryBudget
  bounded :
    (∃ earlier now,
      s.log = earlier ++ [.read (.ok now), .requested .executionLeaseExpired] ∧
        now.checkedCmp s.authority.forceStopStart = .ok .lt ∧
        s.Before s.authority.forceStopStart) ∨
    s.Contained ∧ ∃ earlier now order,
      s.log = earlier ++ [.read (.ok now), .quiescence true] ∧
        now.checkedCmp s.authority.forceStopEnd = .ok order ∧ order ≠ .gt

/-- What the supervisor knows at a point. -/
def At (env : LeaseEnvironment O) (s : Supervisor O) : SupervisorPoint O → Prop
  | .takeAuthority | .takeInfrastructure | .checkLease => ¬ s.Requested
  | .outerSelect branch | .innerSelect branch => s.InForce ∧ s.Polled env branch
  | .checkRenewal | .requestRenewal | .compareAuthority => s.InForce
  | .completeReady output _ false =>
    s.InForce ∧ s.Current env 3 ∧ ∃ earlier, s.log = earlier ++ [.finished output]
  | .completeReady _ _ true => s.Requested
  | .judgeReady output _ false now =>
    ¬ s.Requested ∧ s.authority.revoked = false ∧ s.Current env 4 ∧ s.Latest now ∧
      ∃ earlier, s.log = earlier ++ [.finished output, .read (.ok now)]
  | .judgeReady _ _ true now | .expireReady _ now =>
    s.Latest now ∧ ∃ earlier, s.log = earlier ++ [.read (.ok now)]
  | .loseLease | .failTimer _ | .failClock _ => True
  | .containReady _ | .checkForceStop | .lossSelect _ | .contain => s.Requested
  | .checkReadyEnd _ | .checkForceStopEnd | .containSelect _ | .failTimerQuiescent _
  | .failTimerExecution _ | .failQuiescent _ => s.Contained
  | .checkReadyQuiescent _ => s.Contained ∧ ∃ earlier now order,
      s.log = earlier ++ [.read (.ok now)] ∧
        now.checkedCmp s.authority.forceStopEnd = .ok order ∧ order ≠ .gt
  | .returned (.completed output none _) => s.InTime env output
  | .returned (.completed _ (some budget) interruption) => s.Late budget interruption
  | .returned .containmentDeadline | .returned (.leaseClockFailed _ _) => s.Contained

/-- Where the readings and the authority come from. -/
structure Traced (env : LeaseEnvironment O) (s : Supervisor O) : Prop where
  readings : ∀ now, .read (.ok now) ∈ s.log → ∃ k < s.moment, env.time k = .ok now
  published : ∃ k, env.authority k = s.authority ∧ env.version k = s.seen

structure Holds (env : LeaseEnvironment O) (s : Supervisor O) : Prop extends Traced env s where
  knows : s.At env s.point

theorem Requested.advance (h : s.Requested) : (s.advance actions point).Requested :=
  List.mem_append_left _ h

theorem requested_advance (h : .requested .executionLeaseExpired ∈ actions) :
    (s.advance actions point).Requested :=
  List.mem_append_right _ h

theorem Contained.advance (h : s.Contained) : (s.advance actions point).Contained :=
  ⟨h.requested.advance, List.mem_append_left _ h.fenced, List.mem_append_left _ h.begun⟩

theorem contained_advance : (s.advance beginForcedContainment point).Contained := by
  refine ⟨requested_advance ?_, List.mem_append_right _ ?_, List.mem_append_right _ ?_⟩
  all_goals simp [beginForcedContainment]

theorem not_requested_advance (h : ¬ s.Requested)
    (hactions : .requested .executionLeaseExpired ∉ actions) :
    ¬ (s.advance actions point).Requested :=
  fun hrequested => h ((List.mem_append.mp hrequested).resolve_right hactions)

theorem read_of_advance (hactions : ∀ now, .read (.ok now) ∉ actions)
    (hmem : .read (.ok now) ∈ (s.advance actions point).log) : .read (.ok now) ∈ s.log :=
  (List.mem_append.mp hmem).resolve_right (hactions now)

theorem Before.advance (h : s.Before deadline) (hactions : ∀ now, .read (.ok now) ∉ actions) :
    (s.advance actions point).Before deadline :=
  fun now hmem => h now (read_of_advance hactions hmem)

theorem Latest.before (h : s.Latest now) (hnow : now.nanoseconds < deadline.nanoseconds) :
    s.Before deadline :=
  fun earlier hmem => lt_of_le_of_lt (h earlier hmem) hnow

theorem Latest.advance (h : s.Latest now) (hactions : ∀ now, .read (.ok now) ∉ actions) :
    (s.advance actions point).Latest now :=
  fun earlier hmem => h earlier (read_of_advance hactions hmem)

theorem Current.advance {delay : Nat} (h : s.Current env delay) :
    (s.advance actions point).Current env (delay + 1) := by
  obtain ⟨k, hlt, hle, hauthority⟩ := h
  refine ⟨k, ?_, ?_, hauthority⟩
  · exact Nat.lt_succ_of_lt hlt
  · exact Nat.succ_le_succ hle

theorem InForce.advance (h : s.InForce) (hactions : ∀ action ∈ actions, action.silent = true) :
    (s.advance actions point).InForce := by
  refine ⟨not_requested_advance h.unrequested ?_, h.unrevoked, Before.advance h.before ?_⟩
  · intro hmem
    cases hactions _ hmem
  · intro now hmem
    cases hactions _ hmem

theorem Traced.advance (h : Traced env s)
    (hread : ∀ now, .read (.ok now) ∈ actions → env.time s.moment = .ok now) :
    Traced env (s.advance actions point) := by
  refine ⟨?_, h.published⟩
  intro now hmem
  rcases List.mem_append.mp hmem with hmem | hmem
  · obtain ⟨k, hlt, htime⟩ := h.readings now hmem
    exact ⟨k, Nat.lt_succ_of_lt hlt, htime⟩
  · exact ⟨s.moment, Nat.lt_succ_self _, hread now hmem⟩

/-- A new reading is the latest one. -/
theorem Traced.latest (henv : env.Lawful) (h : Traced env s) (htime : env.time s.moment = .ok now) :
    (s.advance [.read (.ok now)] point).Latest now := by
  intro earlier hmem
  rcases List.mem_append.mp hmem with hmem | hmem
  · obtain ⟨k, hlt, hearlier⟩ := h.readings earlier hmem
    exact henv.monotone (Nat.le_of_lt hlt) hearlier htime
  · cases List.mem_singleton.mp hmem
    exact le_rfl

/-- Go on without a reading of the clock. -/
theorem Traced.goOn (h : Traced env s) (hactions : ∀ now, .read (.ok now) ∉ actions)
    (hknows : (s.advance actions point).At env point) : Holds env (s.advance actions point) :=
  ⟨h.advance fun now hmem => absurd hmem (hactions now), hknows⟩

/-- Go on with a reading of the clock. -/
theorem Traced.read (h : Traced env s)
    {next : Except LeaseClockError LeaseInstant → SupervisorPoint O} (hfailed : ∀ error,
      (s.advance [.read (.error error)] (next (.error error))).At env (next (.error error)))
    (hread : ∀ now, env.time s.moment = .ok now →
      (s.advance [.read (.ok now)] (next (.ok now))).At env (next (.ok now))) :
    Holds env (s.readClock env next) := by
  refine ⟨h.advance fun now hmem => ?_, ?_⟩
  · exact (SupervisorAction.read.inj (List.mem_singleton.mp hmem)).symm
  · unfold readClock
    cases htime : env.time s.moment with
    | error error => exact hfailed error
    | ok now => exact hread now htime

end Supervisor

variable {env : LeaseEnvironment O} {s : Supervisor O}

namespace Supervisor

section

variable (henv : env.Lawful) (h : Traced env s)
include henv h

theorem leasePoint_holds (hquiet : ¬ s.Requested) :
    Holds env (s.readClock env (leasePoint s.authority)) := by
  refine h.read (fun _ => trivial) fun now htime => ?_
  unfold leasePoint
  dsimp only
  split
  · trivial
  · rename_i order horder
    split_ifs with hlost
    · trivial
    · obtain ⟨hrevoked, hlt⟩ := not_or.mp hlost
      rw [not_not] at hlt
      subst hlt
      refine ⟨⟨not_requested_advance hquiet (by simp), Bool.not_eq_true _ ▸ hrevoked, ?_⟩, trivial⟩
      exact (h.latest henv htime).before (LeaseInstant.checkedCmp_lt horder)

theorem renewalPoint_holds (hforce : s.InForce) :
    Holds env (s.readClock env (renewalPoint s.authority)) := by
  refine h.read (fun _ => trivial) fun now htime => ?_
  unfold renewalPoint
  dsimp only
  split
  · rename_i horder
    refine ⟨not_requested_advance hforce.unrequested (by simp), hforce.unrevoked, ?_⟩
    exact (h.latest henv htime).before (LeaseInstant.checkedCmp_lt horder)
  · trivial

/-- A pass over the branches ends in the loop, in a lost lease or in a finished
execution. -/
theorem pollBranch_holds (select : SelectBranch → SupervisorPoint O) (fired : SupervisorPoint O)
    (hselect : ∀ (u : Supervisor O) branch, u.InForce → u.Polled env branch →
      u.At env (select branch))
    (hfired : ∀ u : Supervisor O, u.InForce → u.At env fired) {branch : SelectBranch}
    (hforce : s.InForce) (hpolled : s.Polled env branch) :
    Holds env (s.pollBranch env select fired branch) := by
  have hquiet {point : SupervisorPoint O} : ¬ (s.advance [] point).Requested :=
    not_requested_advance hforce.unrequested (by simp)
  cases branch with
  | timer =>
    unfold pollBranch
    dsimp only
    split
    · exact h.goOn (by simp) (hselect _ _ (hforce.advance (by simp)) trivial)
    · exact h.goOn (by simp) trivial
    · exact h.goOn (by simp) (hfired _ (hforce.advance (by simp)))
  | authority =>
    unfold pollBranch
    split_ifs with hversion hclosed
    · exact h.goOn (by simp) hquiet
    · exact h.goOn (by simp) trivial
    · -- nothing was published since the authority was taken
      rw [not_not] at hversion
      obtain ⟨k, hauthority, hseen⟩ := h.published
      refine h.goOn (by simp) (hselect _ _ (hforce.advance (by simp)) ?_)
      refine ⟨s.moment, Nat.lt_succ_self _, le_rfl, ?_⟩
      exact (henv.published (hversion.trans hseen.symm)).trans hauthority
  | infrastructure =>
    unfold pollBranch
    dsimp only
    split
    · exact h.goOn (by simp) (hselect _ _ (hforce.advance (by simp)) (Current.advance hpolled))
    · have htaken : Traced env (s.takeInfrastructure env) := ⟨h.readings, h.published⟩
      exact htaken.goOn (by simp) (not_requested_advance hforce.unrequested (by simp))
    · exact h.goOn (by simp) hquiet
  | execution =>
    unfold pollBranch
    dsimp only
    split
    · exact h.goOn (by simp) (hselect _ _ (hforce.advance (by simp)) trivial)
    · refine h.goOn (by simp) ⟨hforce.advance ?_, Current.advance hpolled, s.log, rfl⟩
      simp [SupervisorAction.silent]

theorem readyPoint_holds {interruption : Option InfrastructureInterruption}
    (hknows : s.At env (.completeReady output interruption lost)) :
    Holds env (s.readClock env (readyPoint output interruption lost)) := by
  refine h.read (fun _ => trivial) fun now htime => ?_
  have hlatest {point : SupervisorPoint O} :
      (s.advance [.read (.ok now)] point).Latest now :=
    h.latest henv htime
  cases lost with
  | false =>
    obtain ⟨hforce, hcurrent, earlier, hlog⟩ := hknows
    refine ⟨not_requested_advance hforce.unrequested (by simp), hforce.unrevoked,
      hcurrent.advance, hlatest, earlier, ?_⟩
    simp [advance, hlog]
  | true => exact ⟨hlatest, s.log, rfl⟩

end

theorem judgedPoint_holds (h : Traced env s) {interruption : Option InfrastructureInterruption}
    (hknows : s.At env (.judgeReady output interruption lost now)) :
    Holds env (s.advance [] (judgedPoint s.authority output interruption lost now)) := by
  apply h.goOn (by simp)
  cases lost with
  | true =>
    obtain ⟨hlatest, earlier, hlog⟩ := hknows
    exact ⟨hlatest.advance (by simp), earlier, by simp [advance, hlog]⟩
  | false =>
    obtain ⟨hquiet, hrevoked, hcurrent, hlatest, earlier, hlog⟩ := hknows
    have hexpired : (s.advance [] (.expireReady output now)).At env
        (.expireReady output now) :=
      ⟨hlatest.advance (by simp), earlier ++ [.finished output], by simp [advance, hlog]⟩
    unfold judgedPoint
    rw [if_neg Bool.false_ne_true]
    split
    · trivial
    · rename_i horder
      rw [if_neg (by simp [hrevoked])]
      refine ⟨not_requested_advance hquiet (by simp), hrevoked, hcurrent.advance,
        ⟨earlier, now, by simp [advance, hlog], horder⟩, ?_⟩
      exact (hlatest.before (LeaseInstant.checkedCmp_lt horder)).advance (by simp)
    · exact hexpired

theorem expiredPoint_holds (h : Traced env s) (hknows : s.At env (.expireReady output now)) :
    Holds env (s.advance [.requested .executionLeaseExpired]
      (expiredPoint s.authority output now)) := by
  apply h.goOn (by simp)
  obtain ⟨hlatest, earlier, hlog⟩ := hknows
  unfold expiredPoint
  split
  · trivial
  · rename_i horder
    refine ⟨requested_advance (by simp), rfl, rfl, Or.inl ⟨earlier, now, ?_, horder, ?_⟩⟩
    · simp [advance, hlog]
    · exact (hlatest.before (LeaseInstant.checkedCmp_lt horder)).advance (by simp)
  · exact requested_advance (by simp)

/-- The last reading is not after the end of the forced stop. -/
theorem endPoint_holds (h : Traced env s) (hcontained : s.Contained) {inTime : SupervisorPoint O}
    (hinTime : ∀ now order, now.checkedCmp s.authority.forceStopEnd = .ok order →
      order ≠ .gt → (s.advance [.read (.ok now)] inTime).At env inTime) :
    Holds env (s.readClock env (endPoint s.authority inTime)) := by
  refine h.read (fun _ => hcontained.advance) fun now _ => ?_
  cases horder : now.checkedCmp s.authority.forceStopEnd with
  | error error =>
    have hpoint : endPoint s.authority inTime (.ok now) = .failQuiescent error := by
      simp [endPoint, bind, Except.bind, horder]
    rw [hpoint]
    exact hcontained.advance
  | ok order =>
    by_cases hlate : order = .gt
    · have hpoint : endPoint s.authority inTime (.ok now) =
          .returned .containmentDeadline := by
        simp [endPoint, bind, Except.bind, horder, hlate]
      rw [hpoint]
      exact hcontained.advance
    · have hpoint : endPoint s.authority inTime (.ok now) = inTime := by
        cases order <;> simp_all [endPoint, bind, Except.bind]
      rw [hpoint]
      exact hinTime now order horder hlate

theorem forceStopPoint_holds (h : Traced env s) (hrequested : s.Requested) :
    Holds env (s.readClock env (forceStopPoint s.authority)) := by
  refine h.read (fun _ => trivial) fun now _ => ?_
  unfold forceStopPoint
  dsimp only
  split
  · trivial
  · exact hrequested.advance
  · exact hrequested.advance

/-- One primitive keeps what the supervisor knows. -/
theorem Holds.step (henv : env.Lawful) (hholds : Holds env s) : Holds env (s.step env) := by
  obtain ⟨h, hknows⟩ := hholds
  have hfailed {error : LeaseClockError} : Holds env (s.advance [] (.failTimer error)) :=
    h.goOn (by simp) trivial
  unfold Supervisor.step
  generalize hpoint : s.point = point at hknows ⊢
  cases point with
  | takeAuthority =>
    have htaken : Traced env (s.takeAuthority env) := ⟨h.readings, s.moment, rfl, rfl⟩
    exact htaken.goOn (by simp) (not_requested_advance hknows (by simp))
  | takeInfrastructure =>
    have htaken : Traced env (s.takeInfrastructure env) := ⟨h.readings, h.published⟩
    exact htaken.goOn (by simp) (not_requested_advance hknows (by simp))
  | checkLease =>
    exact leasePoint_holds henv h hknows
  | outerSelect =>
    obtain ⟨hforce, hpolled⟩ := hknows
    exact pollBranch_holds henv h .outerSelect .checkRenewal (fun _ _ hu hb => ⟨hu, hb⟩)
      (fun _ hu => hu) hforce hpolled
  | checkRenewal =>
    exact renewalPoint_holds henv h hknows
  | requestRenewal =>
    apply h.goOn (by simp)
    split
    · exact ⟨InForce.advance hknows (by simp [SupervisorAction.silent]), trivial⟩
    · trivial
    · trivial
    · trivial
  | innerSelect =>
    obtain ⟨hforce, hpolled⟩ := hknows
    exact pollBranch_holds henv h .innerSelect .compareAuthority (fun _ _ hu hb => ⟨hu, hb⟩)
      (fun _ hu => hu) hforce hpolled
  | compareAuthority =>
    apply h.goOn (by simp)
    split_ifs
    · exact not_requested_advance hknows.unrequested List.not_mem_nil
    · trivial
  | completeReady =>
    exact readyPoint_holds henv h hknows
  | judgeReady =>
    exact judgedPoint_holds h hknows
  | expireReady =>
    exact expiredPoint_holds h hknows
  | containReady | contain | failTimer | failClock =>
    exact h.goOn (by simp [beginForcedContainment]) contained_advance
  | checkReadyEnd =>
    exact endPoint_holds h hknows fun now order horder hlate =>
      ⟨hknows.advance, s.log, now, order, rfl, horder, hlate⟩
  | checkReadyQuiescent =>
    obtain ⟨hcontained, earlier, now, order, hlog, horder, hlate⟩ := hknows
    apply h.goOn (by simp)
    split_ifs with hquiescent
    · refine ⟨hcontained.requested.advance, rfl, rfl, Or.inr ⟨hcontained.advance, earlier, now,
        order, ?_, horder, hlate⟩⟩
      simp [advance, hlog, hquiescent]
    · exact hcontained.advance
  | loseLease => exact h.goOn (by simp) (requested_advance (by simp))
  | checkForceStop =>
    exact forceStopPoint_holds h hknows
  | lossSelect branch =>
    have hrequested : s.Requested := hknows
    cases branch with
    | timer =>
      dsimp only
      split
      · exact h.goOn (by simp) hrequested.advance
      · exact hfailed
      · exact h.goOn (by simp) hrequested.advance
    | authority | infrastructure | execution =>
      dsimp only
      split <;> exact h.goOn (by simp) hrequested.advance
  | checkForceStopEnd =>
    exact endPoint_holds h hknows fun _ _ _ _ => Contained.advance hknows
  | containSelect branch =>
    have hcontained : s.Contained := hknows
    cases branch with
    | timer =>
      dsimp only
      split
      · exact h.goOn (by simp) hcontained.advance
      · exact hfailed
      · exact h.goOn (by simp) hcontained.advance
    | authority | infrastructure | execution =>
      dsimp only
      split
      · exact h.goOn (by simp) hcontained.advance
      · exact h.goOn (by simp) hcontained.requested.advance
  | failTimerQuiescent =>
    apply h.goOn (by simp)
    split_ifs <;> exact Contained.advance hknows
  | failTimerExecution =>
    dsimp only
    split <;> exact h.goOn (by simp) (Contained.advance hknows)
  | failQuiescent =>
    exact h.goOn (by simp) (Contained.advance hknows)
  | returned => exact ⟨h, by rwa [hpoint]⟩

/-- What the supervisor knows after any number of primitives. -/
theorem Holds.run (henv : env.Lawful) (n : Nat) : Holds env (runUnderLease env n) := by
  unfold runUnderLease
  induction n with
  | zero => exact ⟨⟨fun _ hmem => absurd hmem List.not_mem_nil, 0, rfl, rfl⟩, List.not_mem_nil⟩
  | succ n ih =>
    rw [Function.iterate_succ_apply']
    exact ih.step henv

end Supervisor

variable {env : LeaseEnvironment O} {s : Supervisor O}

/-- The instant is at or after the deadline. -/
def LeaseInstant.Reached (now deadline : LeaseInstant) : Prop :=
  deadline.nanoseconds ≤ now.nanoseconds

/-- The points at which the supervisor goes on, rather than being on its way from a
reading or a publication to what follows from it. -/
def SupervisorPoint.goesOn : SupervisorPoint O → Bool
  | .takeAuthority | .takeInfrastructure | .checkLease | .judgeReady .. | .expireReady ..
  | .loseLease | .failTimer _ | .failClock _ => false
  | _ => true

namespace Supervisor

/-- The authority held is revoked, or its cancellation was due at a reading. -/
def LeaseLost (s : Supervisor O) : Prop :=
  s.authority.revoked = true ∨
    ∃ now, .read (.ok now) ∈ s.log ∧ now.Reached s.authority.cancellationStart

theorem InForce.not_leaseLost (h : s.InForce) : ¬ s.LeaseLost := by
  rintro (hrevoked | ⟨now, hmem, hreached⟩)
  · rw [h.unrevoked] at hrevoked
    cases hrevoked
  · exact absurd (h.before now hmem) (Nat.not_lt.mpr hreached)

theorem At.requested (h : s.At env s.point) (hgoes : s.point.goesOn = true)
    (hlost : s.LeaseLost) : s.Requested := by
  generalize s.point = point at h hgoes
  cases point with
  | takeAuthority | takeInfrastructure | checkLease | judgeReady | expireReady | loseLease
  | failTimer | failClock => cases hgoes
  | outerSelect | innerSelect => exact absurd hlost h.1.not_leaseLost
  | checkRenewal | requestRenewal | compareAuthority =>
    exact absurd hlost (InForce.not_leaseLost h)
  | completeReady _ _ lost =>
    cases lost with
    | false => exact absurd hlost h.1.not_leaseLost
    | true => exact h
  | containReady | checkForceStop | lossSelect | contain => exact h
  | checkReadyEnd | checkForceStopEnd | containSelect | failTimerQuiescent | failTimerExecution
  | failQuiescent => exact Contained.requested h
  | checkReadyQuiescent => exact h.1.requested
  | returned result =>
    match result, h with
    | .completed _ none _, h =>
      exact absurd hlost (InForce.not_leaseLost ⟨h.unrequested, h.unrevoked, h.before⟩)
    | .completed _ (some _) _, h => exact Late.requested h
    | .containmentDeadline, h => exact Contained.requested h
    | .leaseClockFailed _ _, h => exact Contained.requested h

/-- A supervisor that returns after a reading from the forced stop on has begun it. -/
theorem At.contained
    (hle : s.authority.cancellationStart.nanoseconds ≤ s.authority.forceStopStart.nanoseconds)
    {result : LeaseExecution O} (h : s.At env (.returned result))
    (hmem : .read (.ok now) ∈ s.log) (hreached : now.Reached s.authority.forceStopStart) :
    s.Contained := by
  match result, h with
  | .completed _ none _, h =>
    have hbefore : now.nanoseconds < _ := InTime.before h now hmem
    unfold LeaseInstant.Reached at hreached
    omega
  | .completed _ (some _) _, h =>
    obtain ⟨_, _, _, _, hbefore⟩ | ⟨hcontained, _⟩ := Late.bounded h
    · exact absurd (hbefore now hmem) (Nat.not_lt.mpr hreached)
    · exact hcontained
  | .containmentDeadline, h => exact h
  | .leaseClockFailed _ _, h => exact h

end Supervisor

end ScherzoCloud.Runner
