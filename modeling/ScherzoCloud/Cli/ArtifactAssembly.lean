import Mathlib.Logic.Relation
import ScherzoCloud.Cli.ArtifactInventory
import ScherzoCloud.Collections.Effects

/-!
# Downloading an artifact set

The members of a complete inventory are downloaded into a private staging
directory in batches of 100.  For each batch the source is asked for capabilities;
when they expire in the middle of a batch, it is asked again for the members that
are left.  The set is validated and then renamed to its destination.  The clock
and the file system are a structure of functions over the state that the source
also uses.  Every question to them is recorded with the state it was asked in;
a record of the capability requests, the completed downloads and the commit is
kept beside it.
-/

namespace ScherzoCloud.Cli

open Collections

def capabilityBatchSize : Nat := 100

inductive CommitError where
  | destinationExists
  | unavailable
  | durabilityUnconfirmed
  deriving DecidableEq, Repr

inductive PortableArtifactValidationFailure where
  | currentDirectoryUnavailable
  | scratchUnavailable
  | interrupted
  deriving DecidableEq, Repr

/-- Operations of the file system of which only the outcome matters. -/
inductive HostOperation where
  | createStaging
  | createExports
  | createFile
  | flushFile
  | syncFile
  | syncExports
  | syncStaging
  | openParent
  | syncParent
  deriving DecidableEq, Repr

inductive RenameOutcome where
  | renamed
  | exists
  | failed
  deriving DecidableEq, Repr

/-- The files of a staging directory with their contents. -/
abbrev StagedFiles := List (String × List UInt8)

structure AssemblyHost (σ : Type) where
  now : σ → Int × σ
  parseTimestamp : String → Option Int
  destinationParent : String → σ → Option (String × String) × σ
  destinationExists : String → σ → Bool × σ
  succeeds : HostOperation → σ → Bool × σ
  renameNoreplace : String → σ → RenameOutcome × σ
  validatePortableArtifactSet : StagedFiles → σ → Except PortableArtifactValidationFailure Bool × σ

/-- What an assembly is asked for, and where. -/
structure AssemblyRequest (σ : Type) where
  host : AssemblyHost σ
  source : ArtifactSource σ
  organization : String
  runId : String

structure AssembledArtifact where
  artifactSetId : String
  memberCount : Nat
  totalSizeBytes : Nat
  destination : String
  deriving DecidableEq, Repr

/-- A completed download, with the answer its capability comes from and the time at
which that was checked. -/
structure Download where
  answer : ArtifactCapabilities
  capability : ArtifactCapabilityMember
  checkedAt : Int
  deriving DecidableEq, Repr

/-- What an assembly asks of the source and of the host. -/
inductive Question where
  | now
  | issueCapabilities (paths : List String)
  | download (capability : ArtifactCapabilityMember)
  | destinationParent (destination : String)
  | destinationExists (destination : String)
  | succeeds (operation : HostOperation)
  | renameNoreplace (destinationName : String)
  | validatePortableArtifactSet (files : StagedFiles)

/-- The outside world: its state, and the questions so far with the states they were asked in. -/
structure World (σ : Type) where
  environment : σ
  asked : List (Question × σ) := []

/-- The state of an assembly: the outside world, the staged files and the record of
what was done.  A capability request is recorded as the number of downloads that were
complete by then. -/
structure Assembly (σ : Type) where
  world : World σ
  staged : StagedFiles := []
  requests : List Nat := []
  downloads : List Download := []
  commit : Option (Except CommitError Unit) := none
  committed : Option StagedFiles := none

abbrev AssemblyM (σ : Type) := EStateM ArtifactAssemblyError (Assembly σ)

variable {σ α : Type} (request : AssemblyRequest σ)

def AssemblyRequest.issueCapabilities (paths : List String) :
    σ → Except ArtifactApiError ArtifactCapabilities × σ :=
  request.source.issueCapabilities request.organization request.runId paths

/-- The state in which a question leaves the source and the host. -/
def AssemblyRequest.after : Question → σ → σ
  | .now, s => (request.host.now s).2
  | .issueCapabilities paths, s => (request.issueCapabilities paths s).2
  | .download capability, s => (request.source.download capability s).2
  | .destinationParent destination, s => (request.host.destinationParent destination s).2
  | .destinationExists destination, s => (request.host.destinationExists destination s).2
  | .succeeds operation, s => (request.host.succeeds operation s).2
  | .renameNoreplace destinationName, s => (request.host.renameNoreplace destinationName s).2
  | .validatePortableArtifactSet files, s => (request.host.validatePortableArtifactSet files s).2

def World.ask (world : World σ) (question : Question) : World σ where
  environment := request.after question world.environment
  asked := world.asked ++ [(question, world.environment)]

/-- Ask a question to which `answer` is the answer. -/
def ask (question : Question) (answer : σ → α × σ) : AssemblyM σ α := fun a =>
  .ok (answer a.world.environment).1 { a with world := a.world.ask request question }

def requireHost (operation : HostOperation) : AssemblyM σ Unit := do
  unless ← ask request (.succeeds operation) (request.host.succeeds operation) do
    throw .stagingUnavailable

def downloadMember (capability : ArtifactCapabilityMember) : AssemblyM σ Unit := do
  requireHost request .createFile
  -- the file must not exist yet
  if (← get).staged.any (fun file => file.1 == capability.member.path) then
    throw .stagingUnavailable
  let written ← ask request (.download capability) (request.source.download capability)
  modify fun a => { a with staged := a.staged ++ [(capability.member.path, written.2)] }
  match written.1 with
  | .error error => throw (.api error)
  | .ok downloaded =>
    requireHost request .flushFile
    requireHost request .syncFile
    if downloaded.sizeBytes != capability.member.sizeBytes ||
        downloaded.sha256 != capability.member.sha256 then
      throw .integrityMismatch

/-- The loop over the members of an answer; it yields the number of downloads. -/
def downloadMembers (answer : ArtifactCapabilities) (expiresAt : Int) :
    Nat → List ArtifactCapabilityMember → AssemblyM σ Nat
  | done, [] => pure done
  | done, capability :: rest => do
    let time ← ask request .now request.host.now
    if expiresAt ≤ time then
      if done = 0 then throw (.api .capabilityUnavailable) else pure done
    else
      downloadMember request capability
      modify fun a => { a with downloads := a.downloads ++ [⟨answer, capability, time⟩] }
      downloadMembers answer expiresAt (done + 1) rest

def parseArtifactTimestamp (value : String) : AssemblyM σ Int :=
  match request.host.parseTimestamp value with
  | some time => pure time
  | none => throw .invalidInventory

/-- The loop over a batch.  Each round downloads at least one of the members that are
left, so that there are at most as many rounds as members. -/
def downloadRemaining (inventory : CompleteInventory) (retentionExpiresAt : Int) :
    Nat → List ArtifactMember → AssemblyM σ Unit
  | _, [] => pure ()
  | 0, _ :: _ => pure ()
  | rounds + 1, remaining => do
    modify fun a => { a with requests := a.requests ++ [a.downloads.length] }
    let paths := remaining.map (·.path)
    match ← ask request (.issueCapabilities paths) (request.issueCapabilities paths) with
    | .error error => throw (.api error)
    | .ok capabilities =>
      let capabilityExpiresAt ← parseArtifactTimestamp request capabilities.capabilityExpiresAt
      if capabilities.artifactSetId != inventory.artifactSetId ||
          capabilities.expiresAt != inventory.expiresAt ||
          decide (retentionExpiresAt < capabilityExpiresAt) ||
          capabilities.members.length != remaining.length ||
          capabilities.members.map (·.member) != remaining then
        throw .invalidInventory
      let done ← downloadMembers request capabilities capabilityExpiresAt 0 capabilities.members
      downloadRemaining inventory retentionExpiresAt rounds (remaining.drop done)

def downloadCapabilityBatch (inventory : CompleteInventory) (batch : List ArtifactMember) :
    AssemblyM σ Unit := do
  let retentionExpiresAt ← parseArtifactTimestamp request inventory.expiresAt
  downloadRemaining request inventory retentionExpiresAt batch.length batch

/-- A list in pieces of a given length; the last argument but one bounds their number. -/
def chunks (size : Nat) : Nat → List α → List (List α)
  | _, [] => []
  | 0, _ => []
  | count + 1, list => list.take size :: chunks size count (list.drop size)

def capabilityBatches (members : List ArtifactMember) : List (List ArtifactMember) :=
  chunks capabilityBatchSize members.length members

def classifyValidationFailure : PortableArtifactValidationFailure → ArtifactAssemblyError
  | .interrupted => .integrityMismatch
  | .currentDirectoryUnavailable => .stagingUnavailable
  | .scratchUnavailable => .stagingUnavailable

def syncStagedDirectory : AssemblyM σ Unit := do
  requireHost request .syncExports
  requireHost request .syncStaging

/-- The rename is atomic: the destination is the staged directory or is left alone. -/
def commitNoreplace (destinationName : String) : AssemblyM σ (Except CommitError Unit) := do
  if ← ask request (.succeeds .openParent) (request.host.succeeds .openParent) then
    match ← ask request (.renameNoreplace destinationName)
        (request.host.renameNoreplace destinationName) with
    | .exists => pure (.error .destinationExists)
    | .failed => pure (.error .unavailable)
    | .renamed =>
      modify fun a => { a with committed := some a.staged }
      if ← ask request (.succeeds .syncParent) (request.host.succeeds .syncParent) then pure (.ok ())
      else pure (.error .durabilityUnconfirmed)
  else
    pure (.error .unavailable)

/-- The staged set is validated and committed. -/
def publishStaged (destinationName : String) : AssemblyM σ Unit := do
  let files := (← get).staged
  match ← ask request (.validatePortableArtifactSet files)
      (request.host.validatePortableArtifactSet files) with
  | .error failure => throw (classifyValidationFailure failure)
  | .ok false => throw .integrityMismatch
  | .ok true =>
    syncStagedDirectory request
    let outcome ← commitNoreplace request destinationName
    modify fun a => { a with commit := some outcome }
    match outcome with
    | .error .destinationExists => throw .destinationExists
    | .error .unavailable => throw .commitUnavailable
    | .error .durabilityUnconfirmed => throw .commitUnavailable
    | .ok () => pure ()

def assembleInventory (destination : String) (inventory : CompleteInventory) :
    AssemblyM σ AssembledArtifact := do
  match ← ask request (.destinationParent destination)
      (request.host.destinationParent destination) with
  | none => throw .destinationInvalid
  | some (parent, destinationName) =>
    if ← ask request (.destinationExists destination)
        (request.host.destinationExists destination) then
      throw .destinationExists
    requireHost request .createStaging
    requireHost request .createExports
    (capabilityBatches inventory.members).forM (downloadCapabilityBatch request inventory)
    publishStaged request destinationName
    pure ⟨inventory.artifactSetId, inventory.memberCount, inventory.totalSizeBytes,
      parent ++ "/" ++ destinationName⟩

/-- The outcome, with the pages of the inventory and the final state. -/
def assembleArtifactSetWithClock (destination : String) (requests : Nat) (s : σ) :
    Option (Except ArtifactAssemblyError AssembledArtifact × List ArtifactInventoryPage ×
      Assembly σ) :=
  (collectInventory request.source request.organization request.runId requests s).map fun
    | (.error error, s) => (.error error, [], { world := { environment := s } })
    | (.ok (inventory, pages), s) =>
      match assembleInventory request destination inventory { world := { environment := s } } with
      | .ok assembled a => (.ok assembled, pages, a)
      | .error error a => (.error error, pages, a)

section Downloads

variable {σ α : Type} {request : AssemblyRequest σ} {digest : List UInt8 → List UInt8}
  {a : Assembly σ}

/-- A source that reports the size and the digest of what it wrote. -/
def ArtifactSource.Reports (source : ArtifactSource σ) (digest : List UInt8 → List UInt8) : Prop :=
  ∀ capability s downloaded bytes s', source.download capability s = ((.ok downloaded, bytes), s') →
    downloaded.sizeBytes = bytes.length ∧ downloaded.sha256 = digest bytes

/-- A file that is what the inventory declares. -/
def FileMatches (digest : List UInt8 → List UInt8) (file : String × List UInt8)
    (member : ArtifactMember) : Prop :=
  file.1 = member.path ∧ file.2.length = member.sizeBytes ∧ digest file.2 = member.sha256

/-- A download with a capability that was issued for its member and had not expired when the clock
was read. -/
structure Download.Sound (request : AssemblyRequest σ) (asked : List (Question × σ))
    (download : Download) : Prop where
  answered : ∃ paths s₀ s₁ s₂, [(.issueCapabilities paths, s₀), (.now, s₁),
      (.download download.capability, s₂)].Sublist asked ∧
    (request.issueCapabilities paths s₀).1 = .ok download.answer ∧
    download.capability.member.path ∈ paths ∧ (request.host.now s₁).1 = download.checkedAt
  member : download.capability ∈ download.answer.members
  unexpired : ∃ expiresAt, request.host.parseTimestamp download.answer.capabilityExpiresAt =
    some expiresAt ∧ download.checkedAt < expiresAt

namespace World

/-- The later world comes from the earlier one by questions. -/
def Leads (request : AssemblyRequest σ) : World σ → World σ → Prop :=
  Relation.ReflTransGen fun world later => ∃ question, later = world.ask request question

variable {world later : World σ}

theorem leads_ask (question : Question) : Leads request world (world.ask request question) :=
  .single ⟨question, rfl⟩

theorem Leads.asked (h : Leads request world later) : world.asked <+: later.asked := by
  induction h with
  | refl => exact List.prefix_rfl
  | tail _ hlast ih =>
    obtain ⟨question, rfl⟩ := hlast
    exact ih.trans (List.prefix_append ..)

end World

theorem Download.Sound.mono {asked later : List (Question × σ)} {download : Download}
    (h : download.Sound request asked) (hmore : asked <+: later) :
    download.Sound request later := by
  obtain ⟨paths, s₀, s₁, s₂, hsublist, hanswered⟩ := h.answered
  exact ⟨⟨paths, s₀, s₁, s₂, hsublist.trans hmore.sublist, hanswered⟩, h.member, h.unexpired⟩

namespace Assembly

variable (request : AssemblyRequest σ) (start : World σ) (digest : List UInt8 → List UInt8)

/-- What holds also of an assembly that fails. -/
structure Unfinished (a : Assembly σ) : Prop where
  leads : start.Leads request a.world
  requests : a.requests.Pairwise (· < ·)
  commit : a.commit = none
  committed : a.committed = none

/-- The given members are downloaded, and nothing else is staged. -/
structure Fetched (members : List ArtifactMember) (a : Assembly σ) : Prop
    extends Unfinished request start a where
  staged : List.Forall₂ (FileMatches digest) a.staged members
  downloads : a.downloads.map (·.capability.member) = members
  sound : ∀ download ∈ a.downloads, download.Sound request a.world.asked

/-- Also, every request was followed by a download. -/
def Settled (members : List ArtifactMember) (a : Assembly σ) : Prop :=
  Fetched request start digest members a ∧ ∀ mark ∈ a.requests, mark < a.downloads.length

end Assembly

open Assembly World

variable {fetched : List ArtifactMember} {inventory : CompleteInventory} {start : World σ}
  {E : Assembly σ → Prop}

@[simp] theorem ensures_ask {question : Question} {answer : σ → α × σ}
    {Q : α → Assembly σ → Prop} :
    Ensures (ask request question answer) a Q E ↔ Q (answer a.world.environment).1
      { a with world := a.world.ask request question } :=
  Iff.rfl

theorem requireHost_ensures {operation : HostOperation} {Q : Unit → Assembly σ → Prop}
    (hQ : ∀ world, a.world.Leads request world → Q () { a with world })
    (hE : ∀ world, a.world.Leads request world → E { a with world }) :
    Ensures (requireHost request operation) a Q E := by
  simp only [requireHost, ensures_bind, ensures_ask]
  split
  · exact hQ _ (leads_ask _)
  · exact hE _ (leads_ask _)

namespace Assembly

variable {world : World σ}

theorem Unfinished.later (h : Unfinished request start a) (hlater : a.world.Leads request world)
    (staged : StagedFiles) : Unfinished request start { a with world, staged } :=
  ⟨h.leads.trans hlater, h.requests, h.commit, h.committed⟩

theorem Fetched.later (h : Fetched request start digest fetched a)
    (hlater : a.world.Leads request world) :
    Fetched request start digest fetched { a with world } :=
  ⟨h.toUnfinished.later hlater a.staged, h.staged, h.downloads,
    fun download hdownload => (h.sound download hdownload).mono hlater.asked⟩

end Assembly

theorem chunks_flatten {size : Nat} (hsize : 0 < size) (count : Nat) (list : List α)
    (hcount : list.length ≤ count) : (chunks size count list).flatten = list := by
  induction count generalizing list with
  | zero =>
    cases List.length_eq_zero_iff.mp (Nat.le_zero.mp hcount)
    rfl
  | succ count ih =>
    cases list with
    | nil => rfl
    | cons first rest =>
      rw [chunks, List.flatten_cons, ih, List.take_append_drop]
      · simp only [List.length_drop, List.length_cons] at hcount ⊢
        omega
      · exact List.cons_ne_nil _ _

/-- One more member is downloaded. -/
theorem Assembly.Fetched.download {world : World σ} {bytes : List UInt8}
    {answer : ArtifactCapabilities} {capability : ArtifactCapabilityMember} {time : Int}
    (h : Fetched request start digest fetched a) (hlater : a.world.Leads request world)
    (hfile : FileMatches digest (capability.member.path, bytes) capability.member)
    (hsound : Download.Sound request world.asked ⟨answer, capability, time⟩) :
    Fetched request start digest (fetched ++ [capability.member])
      { a with
        world
        staged := a.staged ++ [(capability.member.path, bytes)]
        downloads := a.downloads ++ [⟨answer, capability, time⟩] } where
  leads := h.leads.trans hlater
  requests := h.requests
  commit := h.commit
  committed := h.committed
  staged := List.rel_append h.staged (.cons hfile .nil)
  downloads := by simp [h.downloads]
  sound := by
    intro download hdownload
    rcases List.mem_append.mp hdownload with hold | hnew
    · exact (h.sound download hold).mono hlater.asked
    · rw [List.mem_singleton.mp hnew]
      exact hsound

variable (hsource : request.source.Reports digest)
include hsource

theorem downloadMember_ensures (capability : ArtifactCapabilityMember) :
    Ensures (downloadMember request capability) a
      (fun _ a' => ∃ world s bytes, a.world.Leads request world ∧
        (a.world.asked ++ [(Question.download capability, s)]).Sublist world.asked ∧
        FileMatches digest (capability.member.path, bytes) capability.member ∧
        a' = { a with world, staged := a.staged ++ [(capability.member.path, bytes)] })
      (fun a' => ∃ world staged, a.world.Leads request world ∧ a' = { a with world, staged }) := by
  simp only [downloadMember, ensures_bind]
  refine requireHost_ensures (fun world hworld => ?_) (fun world hworld => ⟨world, _, hworld, rfl⟩)
  simp only [ensures_get]
  split
  · exact ⟨world, _, hworld, rfl⟩
  simp only [ensures_bind, ensures_ask, ensures_modify]
  have hasked : a.world.Leads request (world.ask request (.download capability)) :=
    hworld.trans (leads_ask _)
  have hrecorded : (a.world.asked ++ [(Question.download capability, world.environment)]).Sublist
      (world.ask request (.download capability)).asked :=
    hworld.asked.sublist.append (List.Sublist.refl _)
  rcases hdownload : request.source.download capability world.environment with
    ⟨⟨answer, bytes⟩, s'⟩
  cases answer with
  | error => exact ⟨_, _, hasked, rfl⟩
  | ok downloaded =>
    simp only [ensures_bind]
    refine requireHost_ensures (fun world₁ hworld₁ => ?_)
      (fun world₁ hworld₁ => ⟨world₁, _, hasked.trans hworld₁, rfl⟩)
    refine requireHost_ensures (fun world₂ hworld₂ => ?_)
      (fun world₂ hworld₂ => ⟨world₂, _, hasked.trans (hworld₁.trans hworld₂), rfl⟩)
    have hdone := hworld₁.trans hworld₂
    split
    · exact ⟨world₂, _, hasked.trans hdone, rfl⟩
    · rename_i hsame
      simp only [Bool.or_eq_true, bne_iff_ne, ne_eq, not_or, not_not] at hsame
      obtain ⟨hsize, hsha⟩ := hsource capability world.environment downloaded bytes s' hdownload
      exact ⟨world₂, world.environment, bytes, hasked.trans hdone,
        hrecorded.trans (Leads.asked hdone).sublist,
        ⟨rfl, hsize.symm.trans hsame.1, hsha.symm.trans hsame.2⟩, rfl⟩

/-- The loop over the members of an answer downloads a nonempty initial part of them,
unless it fails. -/
theorem downloadMembers_ensures {answer : ArtifactCapabilities} {expiresAt : Int}
    {paths : List String} {s₀ : σ}
    (hanswer : (request.issueCapabilities paths s₀).1 = .ok answer)
    (hexpires : request.host.parseTimestamp answer.capabilityExpiresAt = some expiresAt)
    (capabilities : List ArtifactCapabilityMember)
    (hissued : ∀ capability ∈ capabilities, capability ∈ answer.members ∧
      capability.member.path ∈ paths)
    (done : Nat) (h : Fetched request start digest fetched a)
    (hasked : (.issueCapabilities paths, s₀) ∈ a.world.asked)
    (hbehind : ∀ mark ∈ a.requests, mark + done ≤ a.downloads.length) :
    Ensures (downloadMembers request answer expiresAt done capabilities) a
      (fun count a' => done ≤ count ∧ Fetched request start digest
          (fetched ++ (capabilities.take (count - done)).map (·.member)) a' ∧
        (∀ mark ∈ a'.requests, mark + count ≤ a'.downloads.length) ∧
        (capabilities ≠ [] → 0 < count))
      (Unfinished request start) := by
  induction capabilities generalizing a done fetched with
  | nil => simpa [downloadMembers] using ⟨h, hbehind⟩
  | cons capability rest ih =>
    simp only [downloadMembers, ensures_bind, ensures_ask]
    split
    · split
      · exact (h.later (leads_ask _)).toUnfinished
      · rename_i hdone
        refine ⟨le_rfl, ?_, hbehind, fun _ => Nat.pos_of_ne_zero hdone⟩
        rw [Nat.sub_self, List.take_zero, List.map_nil, List.append_nil]
        exact h.later (leads_ask _)
    · rename_i hvalid
      simp only [ensures_bind]
      refine (downloadMember_ensures hsource capability).mono ?_ ?_
      · rintro - a' ⟨world, s, bytes, hworld, hrecorded, hfile, rfl⟩
        simp only [ensures_modify]
        obtain ⟨hmember, hpath⟩ := hissued capability (List.mem_cons_self ..)
        have htrace : [(.issueCapabilities paths, s₀), (.now, a.world.environment),
            (.download capability, s)].Sublist world.asked :=
          (((List.singleton_sublist.mpr hasked).append (List.Sublist.refl _)).append
            (List.Sublist.refl _)).trans hrecorded
        have hlater : a.world.Leads request world := (leads_ask _).trans hworld
        have hnext := ih (fun c hc => hissued c (List.mem_cons_of_mem _ hc)) (done + 1)
          (h.download hlater hfile
            ⟨⟨paths, s₀, _, s, htrace, hanswer, hpath, rfl⟩, hmember, _, hexpires,
              not_le.mp hvalid⟩) (hworld.asked.subset (List.mem_append_left _ hasked)) ?_
        · refine hnext.mono ?_ (fun _ hfailed => hfailed)
          rintro count a' ⟨hcount, hfetched, hmarks, -⟩
          refine ⟨by omega, ?_, hmarks, fun _ => by omega⟩
          obtain ⟨more, rfl⟩ := Nat.exists_eq_add_of_le hcount
          rw [show done + 1 + more - done = more + 1 by omega, List.take_succ_cons, List.map_cons]
          rwa [Nat.add_sub_cancel_left, List.append_assoc] at hfetched
        · intro mark hmark
          have := hbehind mark hmark
          simp only [List.length_append, List.length_singleton]
          omega
      · rintro a' ⟨world, staged, hworld, rfl⟩
        exact h.toUnfinished.later ((leads_ask _).trans hworld) staged

theorem downloadRemaining_ensures {retentionExpiresAt : Int} (rounds : Nat)
    {remaining : List ArtifactMember} (hrounds : remaining.length ≤ rounds)
    (hsettled : Settled request start digest fetched a) :
    Ensures (downloadRemaining request inventory retentionExpiresAt rounds remaining) a
      (fun _ => Settled request start digest (fetched ++ remaining))
      (Unfinished request start) := by
  induction rounds generalizing a fetched remaining with
  | zero =>
    cases List.length_eq_zero_iff.mp (Nat.le_zero.mp hrounds)
    simpa [downloadRemaining] using hsettled
  | succ rounds ih =>
    by_cases hremaining : remaining = []
    · cases hremaining
      simpa [downloadRemaining] using hsettled
    obtain ⟨h, hbehind⟩ := hsettled
    rw [downloadRemaining]
    · simp only [ensures_bind, ensures_modify, ensures_ask]
      have hasked : Fetched request start digest fetched
          { a with
            world := a.world.ask request (.issueCapabilities (remaining.map (·.path)))
            requests := a.requests ++ [a.downloads.length] } := by
        have hlater := h.later (leads_ask (.issueCapabilities (remaining.map (·.path))))
        refine ⟨⟨hlater.leads, ?_, h.commit, h.committed⟩, h.staged, h.downloads, hlater.sound⟩
        refine List.pairwise_append.mpr ⟨h.requests, List.pairwise_singleton .., ?_⟩
        simpa using hbehind
      cases hissued : (request.issueCapabilities (remaining.map (·.path))
          a.world.environment).1 with
      | error => exact hasked.toUnfinished
      | ok capabilities =>
        simp only [ensures_bind, parseArtifactTimestamp]
        cases hexpires : request.host.parseTimestamp capabilities.capabilityExpiresAt with
        | none => exact hasked.toUnfinished
        | some capabilityExpiresAt =>
          rw [ensures_pure]
          split
          · exact hasked.toUnfinished
          rename_i hanswer
          simp only [Bool.or_eq_true, bne_iff_ne, ne_eq, not_or, not_not] at hanswer
          simp only [ensures_bind]
          refine (downloadMembers_ensures hsource hissued hexpires capabilities.members
            (fun capability hmember => ⟨hmember, List.mem_map_of_mem ?_⟩) 0 hasked
            (List.mem_append_right _ (List.mem_singleton_self _)) ?_).mono ?_
            (fun _ hfailed => hfailed)
          · rw [← hanswer.2]
            exact List.mem_map_of_mem hmember
          · simpa [or_imp, forall_and] using fun mark hmark => (hbehind mark hmark).le
          · rintro count a' ⟨-, hfetched, hmarks, hpos⟩
            have hcount : 0 < count := hpos fun hnil => hremaining (by simp [← hanswer.2, hnil])
            rw [Nat.sub_zero, List.map_take, hanswer.2] at hfetched
            have hlength : (remaining.drop count).length ≤ rounds := by
              rw [List.length_drop]
              omega
            have hbehind' : ∀ mark ∈ a'.requests, mark < a'.downloads.length := by
              intro mark hmark
              have := hmarks mark hmark
              omega
            have hrest := ih hlength ⟨hfetched, hbehind'⟩
            rwa [List.append_assoc, List.take_append_drop] at hrest
    · exact hremaining

theorem downloadCapabilityBatch_ensures (batch : List ArtifactMember)
    (h : Settled request start digest fetched a) :
    Ensures (downloadCapabilityBatch request inventory batch) a
      (fun _ => Settled request start digest (fetched ++ batch)) (Unfinished request start) := by
  simp only [downloadCapabilityBatch, ensures_bind, parseArtifactTimestamp]
  cases request.host.parseTimestamp inventory.expiresAt with
  | none => exact h.1.toUnfinished
  | some => exact downloadRemaining_ensures hsource _ le_rfl h

theorem downloadBatches_ensures (h : Settled request start digest [] a) :
    Ensures ((capabilityBatches inventory.members).forM
        (downloadCapabilityBatch request inventory)) a
      (fun _ => Settled request start digest inventory.members) (Unfinished request start) := by
  have hbody (seen : List (List ArtifactMember)) (batch : List ArtifactMember) (a : Assembly σ)
      (h : Settled request start digest seen.flatten a) :
      Ensures (downloadCapabilityBatch request inventory batch) a
        (fun _ => Settled request start digest (seen ++ [batch]).flatten)
        (Unfinished request start) := by
    simpa using downloadCapabilityBatch_ensures hsource batch h
  have hloop := ensures_forEach (I := fun seen => Settled request start digest seen.flatten) hbody
    (capabilityBatches inventory.members) [] h
  rwa [List.nil_append, capabilityBatches, chunks_flatten (by decide) _ _ le_rfl] at hloop

end Downloads

variable {σ : Type} {request : AssemblyRequest σ} {destination : String}
  {digest : List UInt8 → List UInt8} {a : Assembly σ} {start : World σ}
  {inventory : CompleteInventory}

/-- The inventory that every one of the pages declares. -/
structure CompleteInventory.DeclaredBy (inventory : CompleteInventory)
    (pages : List ArtifactInventoryPage) : Prop where
  members : inventory.members = pages.flatMap (·.members)
  declared : ∀ page ∈ pages, page.artifactSetId = inventory.artifactSetId ∧
    page.memberCount = inventory.memberCount ∧ page.totalSizeBytes = inventory.totalSizeBytes
  increasing : (inventory.members.map (·.path)).Pairwise (· < ·)
  result : ∃ last ∈ inventory.members.getLast?, last.path = "result.json"
  count : inventory.members.length = inventory.memberCount
  total : (inventory.members.map (·.sizeBytes)).sum = inventory.totalSizeBytes

theorem checkedTotal_eq {members : List ArtifactMember} {total : Nat}
    (h : checkedTotal members = some total) : (members.map (·.sizeBytes)).sum = total := by
  have hfold (start : Nat) (h : members.foldlM (fun total member =>
      if total + member.sizeBytes < 2 ^ 64 then some (total + member.sizeBytes) else none) start =
        some total) : start + (members.map (·.sizeBytes)).sum = total := by
    clear * - h
    induction members generalizing start with
    | nil => simpa using h
    | cons member rest ih =>
      rw [List.foldlM_cons] at h
      split_ifs at h
      have hrest := ih _ h
      rw [List.map_cons, List.sum_cons]
      omega
      cases h
  simpa using hfold 0 h

theorem completeInventory_ok {paging : Paging} {inventory : CompleteInventory}
    (hpaging : paging.Consistent) (h : completeInventory paging = .ok inventory) :
    inventory.DeclaredBy paging.pages := by
  unfold completeInventory at h
  split at h
  · rename_i expected total hexpected htotal
    split_ifs at h with hchecks
    cases h
    simp only [Bool.or_eq_true, bne_iff_ne, ne_eq, not_or, not_not, Bool.not_eq_true',
      Bool.not_eq_false, Option.any_eq_true, beq_iff_eq] at hchecks
    obtain ⟨⟨hcount, hsum⟩, last, hlast, hresult⟩ := hchecks
    refine ⟨hpaging.members, fun page hpage => ?_, hpaging.ordered.increasing,
      ⟨last, hlast, hresult⟩, hcount, (checkedTotal_eq htotal).trans hsum⟩
    have hagrees := hpaging.agrees expected hexpected page hpage
    simp only [ArtifactInventoryPage.agrees, Bool.and_eq_true, beq_iff_eq] at hagrees
    exact ⟨hagrees.1.1.1.1, hagrees.1.2, hagrees.2⟩
  · cases h

namespace Assembly

/-- The files are the members of the inventory, downloaded as they should be, and were found
valid. -/
structure Delivers (request : AssemblyRequest σ)
    (digest : List UInt8 → List UInt8) (members : List ArtifactMember) (files : StagedFiles)
    (a : Assembly σ) : Prop where
  exact : List.Forall₂ (FileMatches digest) files members
  downloads : a.downloads.map (·.capability.member) = members
  sound : ∀ download ∈ a.downloads, download.Sound request a.world.asked
  valid : ∃ s, (.validatePortableArtifactSet files, s) ∈ a.world.asked ∧
    (request.host.validatePortableArtifactSet files s).1 = .ok true

/-- What holds at the end: the destination is touched only by a commit. -/
structure Ended (request : AssemblyRequest σ) (start : World σ)
    (digest : List UInt8 → List UInt8) (members : List ArtifactMember) (a : Assembly σ) : Prop where
  leads : start.Leads request a.world
  requests : a.requests.Pairwise (· < ·)
  committed : ∀ files, a.committed = some files →
    (a.commit = some (.ok ()) ∨ a.commit = some (.error .durabilityUnconfirmed)) ∧
      a.Delivers request digest members files

theorem Unfinished.ended {members : List ArtifactMember} (h : Unfinished request start a) :
    Ended request start digest members a where
  leads := h.leads
  requests := h.requests
  committed := by
    intro files hfiles
    rw [h.committed] at hfiles
    cases hfiles

end Assembly

open Assembly World

theorem commitNoreplace_ensures {destinationName : String}
    {Q : Except CommitError Unit → Assembly σ → Prop} {E : Assembly σ → Prop}
    (hleft : ∀ world error, a.world.Leads request world → error ≠ .durabilityUnconfirmed →
      Q (.error error) { a with world })
    (hrenamed : ∀ world outcome, a.world.Leads request world →
      outcome = .ok () ∨ outcome = .error .durabilityUnconfirmed →
      Q outcome { a with world, committed := some a.staged }) :
    Ensures (commitNoreplace request destinationName) a Q E := by
  have hopened : a.world.Leads request (a.world.ask request (.succeeds .openParent)) := leads_ask _
  have hasked := hopened.trans (leads_ask (.renameNoreplace destinationName))
  simp only [commitNoreplace, ensures_bind, ensures_ask]
  split
  · simp only [ensures_bind, ensures_ask]
    split
    · exact hleft _ _ hasked (by simp)
    · exact hleft _ _ hasked (by simp)
    · simp only [ensures_bind, ensures_modify, ensures_ask]
      split
      · exact hrenamed _ _ (hasked.trans (leads_ask _)) (.inl rfl)
      · exact hrenamed _ _ (hasked.trans (leads_ask _)) (.inr rfl)
  · exact hleft _ _ hopened (by simp)

theorem publishStaged_ensures {destinationName : String} {members : List ArtifactMember}
    (h : Fetched request start digest members a) :
    Ensures (publishStaged request destinationName) a
      (fun _ a' => Ended request start digest members a' ∧ a'.committed.isSome = true ∧
        a'.requests = a.requests ∧ a'.downloads = a.downloads)
      (Ended request start digest members) := by
  have hfailed (world : World σ) (hworld : a.world.Leads request world) :
      Ended request start digest members { a with world } :=
    (h.later hworld).toUnfinished.ended
  have hasked : a.world.Leads request
    (a.world.ask request (.validatePortableArtifactSet a.staged)) := leads_ask _
  simp only [publishStaged, ensures_bind, ensures_get, ensures_ask]
  split
  · exact hfailed _ hasked
  · exact hfailed _ hasked
  · rename_i hvalid
    simp only [syncStagedDirectory, ensures_bind]
    refine requireHost_ensures (fun world₁ hworld₁ => ?_)
      (fun world₁ hworld₁ => hfailed _ (hasked.trans hworld₁))
    refine requireHost_ensures (fun world₂ hworld₂ => ?_)
      (fun world₂ hworld₂ => hfailed _ (hasked.trans (hworld₁.trans hworld₂)))
    have hsynced := hworld₁.trans hworld₂
    refine commitNoreplace_ensures (fun world error hworld herror => ?_)
      (fun world outcome hworld houtcome => ?_)
    · have hended : Ended request start digest members
          { a with world, commit := some (.error error) } :=
        ⟨h.leads.trans (hasked.trans (hsynced.trans hworld)), h.requests,
          fun files hfiles => by simp [h.committed] at hfiles⟩
      rw [ensures_modify]
      cases error with
      | destinationExists => exact hended
      | unavailable => exact hended
      | durabilityUnconfirmed => exact absurd rfl herror
    · have hlater := hsynced.trans hworld
      have hfetched := h.later (hasked.trans hlater)
      have hended : Ended request start digest members
          { a with world, commit := some outcome, committed := some a.staged } := by
        refine ⟨hfetched.leads, h.requests, fun files hfiles => ?_⟩
        cases hfiles
        refine ⟨?_, h.staged, h.downloads, hfetched.sound, a.world.environment,
          (Leads.asked hlater).subset (List.mem_append_right _ (List.mem_singleton_self _)), hvalid⟩
        rcases houtcome with rfl | rfl
        · exact .inl rfl
        · exact .inr rfl
      rw [ensures_modify]
      rcases houtcome with rfl | rfl
      · exact ⟨hended, rfl, rfl, rfl⟩
      · exact hended

theorem assembleInventory_ensures (hsource : request.source.Reports digest)
    (h : Settled request start digest [] a) :
    Ensures (assembleInventory request destination inventory) a
      (fun _ a' => Ended request start digest inventory.members a' ∧ a'.committed.isSome = true ∧
        ∀ mark ∈ a'.requests, mark < a'.downloads.length)
      (Ended request start digest inventory.members) := by
  have hfailed (world : World σ) (hworld : a.world.Leads request world) :
      Ended request start digest inventory.members { a with world } :=
    (h.1.later hworld).toUnfinished.ended
  have hparent : a.world.Leads request
    (a.world.ask request (.destinationParent destination)) := leads_ask _
  have hexists := hparent.trans (leads_ask (.destinationExists destination))
  simp only [assembleInventory, ensures_bind, ensures_ask]
  split
  · exact hfailed _ hparent
  · simp only [ensures_bind, ensures_ask]
    split
    · exact hfailed _ hexists
    simp only [ensures_bind]
    refine requireHost_ensures (fun world₁ hworld₁ => ?_)
      (fun world₁ hworld₁ => hfailed _ (hexists.trans hworld₁))
    refine requireHost_ensures (fun world₂ hworld₂ => ?_)
      (fun world₂ hworld₂ => hfailed _ (hexists.trans (hworld₁.trans hworld₂)))
    have hsettled : Settled request start digest [] { a with world := world₂ } :=
      ⟨h.1.later (hexists.trans (hworld₁.trans hworld₂)), h.2⟩
    refine (downloadBatches_ensures hsource hsettled).mono ?_ (fun _ h => h.ended)
    rintro - a' ⟨hfetched, hanswered⟩
    refine (publishStaged_ensures hfetched).mono ?_ (fun _ h => h)
    rintro - a'' ⟨hended, hcommitted, hrequests, hdownloads⟩
    rw [ensures_pure, hrequests, hdownloads]
    exact ⟨hended, hcommitted, hanswered⟩

/-- The pages that were collected declare the inventory, and the source answered them. -/
theorem collectInventory_declared {requests : Nat} {s s' : σ} {inventory : CompleteInventory}
    {pages : List ArtifactInventoryPage}
    (h : collectInventory request.source request.organization request.runId requests s = some
      (.ok (inventory, pages), s')) :
    inventory.DeclaredBy pages ∧
      Answered request.source request.organization request.runId none s pages s' := by
  simp only [collectInventory, Option.map_eq_some_iff] at h
  obtain ⟨⟨paging, s₁⟩, hpages, h⟩ := h
  cases paging with
  | error => cases h
  | ok paging =>
    cases hinventory : completeInventory paging with
    | error =>
      simp [Except.bind, Except.map, hinventory] at h
    | ok =>
      simp only [Except.bind, Except.map, hinventory, Prod.mk.injEq, Except.ok.injEq] at h
      obtain ⟨⟨rfl, rfl⟩, rfl⟩ := h
      obtain ⟨hconsistent, pages, heq, hanswered⟩ := collectPages_ok Paging.consistent_nil hpages
      rw [List.nil_append] at heq
      exact ⟨completeInventory_ok hconsistent hinventory, heq ▸ hanswered⟩

/-- Whatever the source answers, what is committed is a whole inventory. -/
theorem assembleArtifactSet_exact (hsource : request.source.Reports digest)
    {requests : Nat}
    {s : σ}
    {result : Except ArtifactAssemblyError AssembledArtifact}
    {pages : List ArtifactInventoryPage}
    (h : assembleArtifactSetWithClock request destination requests s = some (result, pages, a)) :
    (∀ assembled, result = .ok assembled → a.committed.isSome = true) ∧
    (∀ files, a.committed = some files →
      (a.commit = some (.ok ()) ∨ a.commit = some (.error .durabilityUnconfirmed)) ∧
      ∃ s' inventory,
        Answered request.source request.organization request.runId none s pages s' ∧
        World.Leads request { environment := s' } a.world ∧
        CompleteInventory.DeclaredBy inventory pages ∧
        a.Delivers request digest inventory.members files) ∧
    a.requests.Pairwise (· < ·) ∧
    ∀ mark ∈ a.requests, mark < a.downloads.length ∨ ∃ error, result = .error error := by
  simp only [assembleArtifactSetWithClock, Option.map_eq_some_iff] at h
  obtain ⟨⟨collected, s'⟩, hcollected, h⟩ := h
  cases collected with
  | error =>
    cases h
    exact ⟨by simp, by simp, List.Pairwise.nil, fun _ _ => .inr ⟨_, rfl⟩⟩
  | ok found =>
    obtain ⟨inventory, found⟩ := found
    obtain ⟨hdeclared, hanswered⟩ := collectInventory_declared hcollected
    have hempty : Settled request { environment := s' } digest []
        { world := { environment := s' } } :=
      ⟨⟨⟨.refl, List.Pairwise.nil, rfl, rfl⟩, .nil, rfl, by simp⟩, by simp⟩
    have hrun : Ensures (assembleInventory request destination inventory)
        { world := { environment := s' } } _ _ :=
      assembleInventory_ensures hsource hempty
    unfold Ensures at hrun
    simp only at h
    split at h
    · rename_i hend
      rw [hend] at hrun
      cases h
      refine ⟨fun _ _ => hrun.2.1, fun files hfiles => ?_, hrun.1.requests,
        fun mark hmark => .inl (hrun.2.2 mark hmark)⟩
      obtain ⟨hcommit, hdelivers⟩ := hrun.1.committed files hfiles
      exact ⟨hcommit, s', inventory, hanswered, hrun.1.leads, hdeclared, hdelivers⟩
    · rename_i hend
      rw [hend] at hrun
      cases h
      refine ⟨by simp, fun files hfiles => ?_, hrun.requests, fun _ _ => .inr ⟨_, rfl⟩⟩
      obtain ⟨hcommit, hdelivers⟩ := hrun.committed files hfiles
      exact ⟨hcommit, s', inventory, hanswered, hrun.leads, hdeclared, hdelivers⟩

/-- A host whose clock goes on by one with every look, and on which everything succeeds. -/
def tickingHost : AssemblyHost Nat where
  now time := (time, time + 1)
  parseTimestamp text := some (if text = "2026-09-17T12:02:00Z" then 2 else 60)
  destinationParent _ time := (some ("/home", "artifacts"), time)
  destinationExists _ time := (false, time)
  succeeds _ time := (true, time)
  renameNoreplace _ time := (.renamed, time)
  validatePortableArtifactSet files time := (.ok (files == pagedFiles), time)

/-- The first capabilities expire after two downloads, and the rest is asked for again. -/
theorem pagedSource_assembled : ∃ assembled pages a,
    assembleArtifactSetWithClock ⟨tickingHost, pagedSource, "org", "run"⟩ "artifacts" 3 0 =
      some (.ok assembled, pages, a) ∧
    a.requests = [0, 2] ∧ a.committed = some pagedFiles ∧ pages.length = 3 ∧
    ∃ s' inventory, Answered pagedSource "org" "run" none 0 pages s' ∧
      World.Leads ⟨tickingHost, pagedSource, "org", "run"⟩ { environment := s' } a.world ∧
      CompleteInventory.DeclaredBy inventory pages ∧
      a.Delivers ⟨tickingHost, pagedSource, "org", "run"⟩ checksum inventory.members
        pagedFiles := by
  have hreports : pagedSource.Reports checksum := by
    intro _ _ _ _ _ h
    cases h
    exact ⟨rfl, rfl⟩
  have hrun : (assembleArtifactSetWithClock ⟨tickingHost, pagedSource, "org", "run"⟩ "artifacts" 3
      0).any (fun (result, pages, a) => result.toBool && a.requests == [0, 2] &&
        a.committed == some pagedFiles && pages.length == 3) = true := by
    decide +kernel
  obtain ⟨⟨result, pages, a⟩, h, hfacts⟩ := (Option.any_eq_true ..).mp hrun
  simp only [Bool.and_eq_true, beq_iff_eq] at hfacts
  obtain ⟨⟨⟨hok, hrequests⟩, hcommitted⟩, hlength⟩ := hfacts
  cases result with
  | error => cases hok
  | ok assembled =>
    obtain ⟨-, hdelivered, -⟩ := assembleArtifactSet_exact hreports h
    exact ⟨assembled, pages, a, h, hrequests, hcommitted, hlength,
      (hdelivered pagedFiles hcommitted).2⟩

end ScherzoCloud.Cli
