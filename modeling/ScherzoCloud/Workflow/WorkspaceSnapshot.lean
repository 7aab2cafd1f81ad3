import ScherzoCloud.Collections.Framing
import ScherzoCloud.Collections.Gathering
import Mathlib.Data.List.Lex

/-!
# Comparing work trees

A snapshot of a work tree is the digest of a stream that holds, for each path that
Git lists, the path, a mode and the content or the target.  Two snapshots are
compared by their digests.  Git and the file system are at rest during a capture,
so that a work tree is the record of their answers.
-/

namespace ScherzoCloud.Workflow

open Collections

inductive WorkspaceSnapshotSettlementV1 where
  | engine
  | abandonmentRecovery
  deriving DecidableEq

inductive WorkspaceSnapshotUnavailableReasonV1 where
  | gitUnavailable
  | gitOutputLimitExceeded
  | notWorkTree
  | executionRootNotWorkTreeRoot
  | entryLimitExceeded
  | contentLimitExceeded
  | gitlink
  | unsupportedEntry
  | ioUnavailable
  | mutationAroundRead
  deriving DecidableEq

structure WorkspaceSnapshotV1 where
  algorithm : String
  value : Option String
  takenAt : Option String
  unavailable : Option WorkspaceSnapshotUnavailableReasonV1
  settledBy : Option WorkspaceSnapshotSettlementV1
  deriving DecidableEq

inductive WorkspaceModifiedV1 where
  | known (modified : Bool)
  | unknown
  deriving DecidableEq

/-- What the file system has at a path. -/
inductive FileState where
  | missing
  | regular (executable : Bool) (content : Bytes)
  | symlink (target : Bytes)
  | unsupported
  deriving DecidableEq

structure CommandOutput where
  success : Bool
  stdout : Bytes

/-- A work tree at rest: a command of Git that cannot be run has no output. -/
structure WorkTree where
  canonicalRoot : Option String
  toplevel : Option CommandOutput
  repositoryRoot : Bytes → Option String
  staged : Option CommandOutput
  /-- Whether Git lists its paths, tracked or untracked and not ignored. -/
  lists : Option Bool
  paths : List Bytes
  noNul : ∀ path ∈ paths, 0 ∉ path
  rootOpens : Bool
  file : Bytes → Except WorkspaceSnapshotUnavailableReasonV1 FileState

abbrev Snapshot := Except WorkspaceSnapshotUnavailableReasonV1

def ascii (text : String) : Bytes :=
  text.toList.map fun c => Fin.ofNat 256 c.toNat

def asciiDigits (digits : List (Fin 256)) : Bytes := digits.map (· + 48)

def workspaceSnapshotAlgorithm : String := "git_worktree_sha256_v1"

def snapshotDomain : Bytes :=
  ascii "scherzo-workspace-snapshot" ++ 0 :: ascii "git_worktree_sha256_v1" ++ [0]

def gitlinkMode : Bytes := asciiDigits [1, 6, 0, 0, 0, 0]
def deletedMode : Bytes := asciiDigits [0, 0, 0, 0, 0, 0]
def symlinkMode : Bytes := asciiDigits [1, 2, 0, 0, 0, 0]
def regularMode : Bool → Bytes
  | false => asciiDigits [1, 0, 0, 6, 4, 4]
  | true => asciiDigits [1, 0, 0, 7, 5, 5]

def maximumGitOutputBytes : Nat := 64 * 1024 * 1024
def maximumEntries : Nat := 1000000
def maximumContentBytes : Nat := 4 * 1024 * 1024 * 1024

def runGit : Option CommandOutput → Snapshot CommandOutput
  | none => .error .gitUnavailable
  | some output =>
    if maximumGitOutputBytes < output.stdout.length then .error .gitOutputLimitExceeded
    else .ok output

def nulEntries (bytes : Bytes) : Snapshot (List Bytes) :=
  if bytes.isEmpty then .ok []
  else if bytes.getLast? ≠ some 0 then .error .gitUnavailable
  else .ok (bytes.dropLast.splitOn 0)

def validateRelativePath (path : Bytes) : Snapshot Unit :=
  if path.isEmpty || path.head? == some 47 ||
      (path.splitOn 47).any (fun component =>
        component.isEmpty || component == ascii "." || component == ascii "..") then
    .error .gitUnavailable
  else
    .ok ()

/-- The facts and the path of an entry of the index, without conflicts and submodules. -/
def parseStagedEntry (entry : Bytes) : Snapshot (Bytes × Bytes) :=
  match entry.dropWhile (· != 9), (entry.takeWhile (· != 9)).splitOn 32 with
  | _ :: path, mode :: oid :: stage :: more =>
    if !more.isEmpty || oid.isEmpty || stage != asciiDigits [0] || mode == gitlinkMode then
      .error (if mode = gitlinkMode then .gitlink else .gitUnavailable)
    else
      (validateRelativePath path).map fun _ => (path, entry.takeWhile (· != 9))
  | _, _ => .error .gitUnavailable

def parseStagedEntries (bytes : Bytes) : Snapshot (BTreeMap Bytes Bytes) := do
  (← nulEntries bytes).foldlM (fun entries entry => do
    let (path, facts) ← parseStagedEntry entry
    if entries.contains path then .error .gitUnavailable else .ok (entries.insert path facts))
    .empty

/-- The insertion of one path, which has to be new. -/
def enumeratePath (paths : BTreeMap Bytes Unit) (path : Bytes) :
    Snapshot (BTreeMap Bytes Unit) := do
  validateRelativePath path
  if paths.contains path then .error .gitUnavailable
  else if maximumEntries < (paths.insert path ()).size then .error .entryLimitExceeded
  else .ok (paths.insert path ())

variable (sha256 : Bytes → Bytes) (tree : WorkTree)

def enumeratePaths : Snapshot (List Bytes) := do
  let output ← runGit (tree.lists.map (⟨·, tree.paths.flatMap (· ++ [0])⟩))
  if output.success then
    let paths ← (← nulEntries output.stdout).foldlM enumeratePath .empty
    .ok paths.keys
  else
    .error .gitUnavailable

structure EntryObservation where
  tracked : BTreeMap Bytes Bytes
  paths : List Bytes
  deriving DecidableEq

def observeEntries : Snapshot EntryObservation := do
  let paths ← enumeratePaths tree
  let staged ← runGit tree.staged
  if staged.success then
    let tracked ← parseStagedEntries staged.stdout
    .ok ⟨tracked, paths⟩
  else
    .error .gitUnavailable

def hashMissingEntry (path : Bytes) (tracked : Bool) : Snapshot Bytes :=
  if tracked then .ok (frame path ++ frame deletedMode ++ frame []) else .error .mutationAroundRead

/-- The bytes that are hashed for a path, and the size of the contents so far. -/
def hashEntry (path : Bytes) (tracked : Bool) (contentBytes : Nat) :
    Snapshot (Bytes × Nat) := do
  match ← tree.file path with
  | .missing => (hashMissingEntry path tracked).map (·, contentBytes)
  | .unsupported => .error .unsupportedEntry
  | .regular executable content =>
    if maximumContentBytes < contentBytes + content.length then .error .contentLimitExceeded
    else
      .ok (frame path ++ frame (regularMode executable) ++
        (bigEndian 8 content.length ++ content), contentBytes + content.length)
  | .symlink target =>
    if maximumContentBytes < contentBytes + target.length then .error .contentLimitExceeded
    else
      .ok (frame path ++ frame symlinkMode ++ frame target, contentBytes + target.length)

def lowercaseHex (bytes : Bytes) : String :=
  String.ofList (bytes.flatMap fun byte =>
    [(byte.val / 16).digitChar, (byte.val % 16).digitChar])

def hashEntries (observed : EntryObservation) : Snapshot String := do
  let (stream, _) ← observed.paths.foldlM (fun (stream, contentBytes) path =>
    (hashEntry tree path (observed.tracked.contains path) contentBytes).map fun (bytes, total) =>
      (stream ++ bytes, total)) (snapshotDomain, 0)
  .ok (lowercaseHex (sha256 stream))

/-- The two readings of the entries between three observations. -/
def captureEntries : Snapshot String := do
  let first ← observeEntries tree
  if !tree.rootOpens then .error .ioUnavailable
  else
    let firstDigest ← hashEntries sha256 tree first
    let second ← observeEntries tree
    if first ≠ second then .error .mutationAroundRead
    else
      let secondDigest ← hashEntries sha256 tree second
      let third ← observeEntries tree
      if second ≠ third ∨ firstDigest ≠ secondDigest then .error .mutationAroundRead
      else .ok secondDigest

def captureDigest : Snapshot String :=
  match tree.canonicalRoot with
  | none => .error .ioUnavailable
  | some canonicalRoot => do
    let repository ← runGit tree.toplevel
    if !repository.success then .error .notWorkTree
    else if repository.stdout.getLast? ≠ some 10 then .error .gitUnavailable
    else
      match tree.repositoryRoot repository.stdout.dropLast with
      | none => .error .gitUnavailable
      | some repositoryRoot =>
        if repositoryRoot ≠ canonicalRoot then .error .executionRootNotWorkTreeRoot
        else captureEntries sha256 tree

/-- A snapshot with the time at which it is taken, which is missing when it cannot be
written as a text. -/
def captureWith (now : Option String)
    (settledBy : Option WorkspaceSnapshotSettlementV1) : WorkspaceSnapshotV1 :=
  match captureDigest sha256 tree, now with
  | .ok value, some takenAt =>
    ⟨workspaceSnapshotAlgorithm, some value, some takenAt, none, settledBy⟩
  | .ok _, none => ⟨workspaceSnapshotAlgorithm, none, none, some .ioUnavailable, settledBy⟩
  | .error reason, _ => ⟨workspaceSnapshotAlgorithm, none, none, some reason, settledBy⟩

def captureStartSnapshot (now : Option String) : WorkspaceSnapshotV1 :=
  captureWith sha256 tree now none

def captureSettlementSnapshot (now : Option String)
    (settledBy : WorkspaceSnapshotSettlementV1) : WorkspaceSnapshotV1 :=
  captureWith sha256 tree now (some settledBy)

def isLowercaseHex (value : String) (length : Nat) : Bool :=
  value.utf8ByteSize == length && value.toList.all (fun c => c.isDigit || ('a' ≤ c && c ≤ 'f'))

variable (isCanonicalUtcTimestamp : String → Bool)

def WorkspaceSnapshotV1.validate (snapshot : WorkspaceSnapshotV1) (settlement : Bool) : Bool :=
  let available := snapshot.value.any (isLowercaseHex · 64) &&
    snapshot.takenAt.any isCanonicalUtcTimestamp && snapshot.unavailable.isNone
  let unavailable :=
    snapshot.value.isNone && snapshot.takenAt.isNone && snapshot.unavailable.isSome
  snapshot.algorithm == workspaceSnapshotAlgorithm && (available || unavailable) &&
    snapshot.settledBy.isSome == settlement

def compareContinuationSnapshots (executionRoot priorExecutionRoot : String)
    (start : WorkspaceSnapshotV1) (settlement : Option WorkspaceSnapshotV1) : WorkspaceModifiedV1 :=
  match settlement with
  | none => .unknown
  | some previous =>
    match start.value, previous.value with
    | some current, some prior =>
      if executionRoot = priorExecutionRoot ∧ start.validate isCanonicalUtcTimestamp false ∧
          previous.validate isCanonicalUtcTimestamp true ∧ start.algorithm = previous.algorithm ∧
          previous.settledBy = some .engine then
        .known (current != prior)
      else
        .unknown
    | _, _ => .unknown

/-- The entry of a work tree at a path that Git lists. -/
inductive SnapshotEntry where
  | deleted
  | regular (executable : Bool) (content : Bytes)
  | symlink (target : Bytes)
  deriving DecidableEq

def FileState.entry : FileState → Option SnapshotEntry
  | .missing => some .deleted
  | .regular executable content => some (.regular executable content)
  | .symlink target => some (.symlink target)
  | .unsupported => none

/-- The map from the paths that Git lists to their entries. -/
def WorkTree.entries (tree : WorkTree) (path : Bytes) : Option SnapshotEntry :=
  if path ∈ tree.paths then (tree.file path).toOption.bind FileState.entry else none

namespace SnapshotEntry

def mode : SnapshotEntry → Bytes
  | deleted => deletedMode
  | regular executable _ => regularMode executable
  | symlink _ => symlinkMode

def payload : SnapshotEntry → Bytes
  | deleted => []
  | regular _ content => content
  | symlink target => target

end SnapshotEntry

/-- The entry with a mode and a payload. -/
def SnapshotEntry.decode (mode payload : Bytes) : SnapshotEntry :=
  if mode = deletedMode then .deleted
  else if mode = symlinkMode then .symlink payload
  else .regular (mode = regularMode true) payload

theorem SnapshotEntry.decode_mode (entry : SnapshotEntry) :
    decode entry.mode entry.payload = entry := by
  rcases entry with _ | ⟨_ | _, _⟩ | _ <;> rfl

theorem SnapshotEntry.length_mode (entry : SnapshotEntry) : entry.mode.length = 6 := by
  rcases entry with _ | ⟨_ | _, _⟩ | _ <;> rfl

/-- The bytes that are hashed for an entry. -/
def encodeEntry (entry : Bytes × SnapshotEntry) : Bytes :=
  frame entry.1 ++ frame entry.2.mode ++ frame entry.2.payload

/-- A path and a payload with lengths of 64 bits. -/
def Framed (entry : Bytes × SnapshotEntry) : Prop :=
  entry.1.length < 2 ^ 64 ∧ entry.2.payload.length < 2 ^ 64

theorem encodeEntry_ne_nil (entry : Bytes × SnapshotEntry) : encodeEntry entry ≠ [] := by
  intro h
  have hlength := congrArg List.length h
  simp [encodeEntry, frame] at hlength

theorem encodeEntry_inj {a b : Bytes × SnapshotEntry} {x y : Bytes} (ha : Framed a)
    (hb : Framed b) (h : encodeEntry a ++ x = encodeEntry b ++ y) : a = b ∧ x = y := by
  simp only [encodeEntry, List.append_assoc] at h
  obtain ⟨hpath, h⟩ := frame_append_inj ha.1 hb.1 h
  obtain ⟨hmode, h⟩ := frame_append_inj (by rw [a.2.length_mode]; decide)
    (by rw [b.2.length_mode]; decide) h
  obtain ⟨hpayload, hrest⟩ := frame_append_inj ha.2 hb.2 h
  refine ⟨Prod.ext hpath ?_, hrest⟩
  rw [← a.2.decode_mode, hmode, hpayload, b.2.decode_mode]

theorem lowercaseHex_inj : Function.Injective lowercaseHex := by
  intro left right h
  have hdigit : ∀ m n : Fin 16, m.val.digitChar = n.val.digitChar → m = n := by decide
  refine flatMap_inj (P := fun _ => True) (by simp) ?_ (by simp) (by simp)
    (String.ofList_injective h)
  intro a b x y _ _ hdigits
  simp only [List.cons_append, List.nil_append, List.cons.injEq] at hdigits
  obtain ⟨hhigh, hlow, hrest⟩ := hdigits
  have hdiv := hdigit ⟨a / 16, by omega⟩ ⟨b / 16, by omega⟩ hhigh
  have hmod := hdigit ⟨a % 16, by omega⟩ ⟨b % 16, by omega⟩ hlow
  rw [Fin.mk.injEq] at hdiv hmod
  exact ⟨Fin.ext (by omega), hrest⟩

variable {tree prior : WorkTree} {path : Bytes}

private theorem within {content bytes : Bytes} {contentBytes total : Nat} {answer : Bytes × Nat}
    (h : (if maximumContentBytes < contentBytes + content.length then .error .contentLimitExceeded
      else .ok answer : Snapshot (Bytes × Nat)) = .ok (bytes, total)) :
    content.length < 2 ^ 64 ∧ answer = (bytes, total) := by
  unfold maximumContentBytes at h
  split_ifs at h
  exact ⟨by omega, Except.ok.inj h⟩

theorem hashEntry_ok {tracked : Bool} {contentBytes total : Nat} {bytes : Bytes}
    (h : hashEntry tree path tracked contentBytes = .ok (bytes, total)) :
    ∃ entry, (tree.file path).toOption.bind FileState.entry = some entry ∧
      bytes = encodeEntry (path, entry) ∧ entry.payload.length < 2 ^ 64 := by
  unfold hashEntry at h
  obtain ⟨state, hstate, h⟩ := bind_eq_ok_iff.mp h
  rw [hstate]
  cases state with
  | missing =>
    cases tracked with
    | false => cases h
    | true =>
      cases h
      exact ⟨.deleted, rfl, rfl, by decide⟩
  | unsupported => cases h
  | regular executable content =>
    obtain ⟨hlimit, heq⟩ := within h
    cases heq
    exact ⟨.regular executable content, rfl, rfl, hlimit⟩
  | symlink target =>
    obtain ⟨hlimit, heq⟩ := within h
    cases heq
    exact ⟨.symlink target, rfl, rfl, hlimit⟩

theorem hashEntries_ok {sha256 : Bytes → Bytes} {observed : EntryObservation} {digest : String}
    (h : hashEntries sha256 tree observed = .ok digest) :
    ∃ hashed : List (Bytes × SnapshotEntry), hashed.map Prod.fst = observed.paths ∧
      (∀ entry ∈ hashed, (tree.file entry.1).toOption.bind FileState.entry = some entry.2 ∧
        entry.2.payload.length < 2 ^ 64) ∧
      digest = lowercaseHex (sha256 (snapshotDomain ++ hashed.flatMap encodeEntry)) := by
  obtain ⟨⟨stream, total⟩, hfold, h⟩ := bind_eq_ok_iff.mp h
  cases h
  generalize observed.paths = paths at hfold ⊢
  generalize snapshotDomain = start at hfold ⊢
  generalize 0 = contentBytes at hfold
  induction paths generalizing start contentBytes with
  | nil =>
    cases hfold
    exact ⟨[], rfl, by simp, by simp⟩
  | cons path paths ih =>
    rw [List.foldlM_cons] at hfold
    obtain ⟨next, hnext, hfold⟩ := bind_eq_ok_iff.mp hfold
    obtain ⟨⟨bytes, total⟩, hentry, rfl⟩ := map_eq_ok_iff.mp hnext
    obtain ⟨entry, hfile, rfl, hpayload⟩ := hashEntry_ok hentry
    obtain ⟨hashed, hpaths, hfiles, hdigest⟩ := ih _ _ hfold
    refine ⟨(path, entry) :: hashed, by rw [List.map_cons, hpaths],
      List.forall_mem_cons.mpr ⟨⟨hfile, hpayload⟩, hfiles⟩, ?_⟩
    rw [hdigest, List.flatMap_cons, List.append_assoc]

/-- A listing of paths without the terminator has one reading. -/
theorem nulEntries_terminated {paths : List Bytes} (hnul : ∀ path ∈ paths, 0 ∉ path) :
    nulEntries (paths.flatMap (· ++ [0])) = .ok paths := by
  cases paths with
  | nil => rfl
  | cons first rest =>
    have hlisting (first : Bytes) : (first :: rest).flatMap (· ++ [0]) =
        [0].intercalate (first :: rest) ++ [0] := by
      clear hnul
      induction rest generalizing first with
      | nil => simp
      | cons second rest ih =>
        rw [List.flatMap_cons, ih, List.intercalate_cons_cons]
        simp only [List.append_assoc]
    rw [nulEntries, hlisting, if_neg (by simp), if_neg (by simp), List.dropLast_concat,
      List.splitOn_intercalate 0 hnul (List.cons_ne_nil _ _)]

theorem foldlM_enumeratePath_ok {listed : List Bytes} {paths paths' : BTreeMap Bytes Unit}
    (h : listed.foldlM enumeratePath paths = .ok paths') (path : Bytes) :
    path ∈ paths'.keys ↔ path ∈ paths.keys ∨ path ∈ listed := by
  induction listed generalizing paths with
  | nil =>
    cases h
    simp
  | cons first listed ih =>
    rw [List.foldlM_cons] at h
    obtain ⟨next, hnext, h⟩ := bind_eq_ok_iff.mp h
    obtain ⟨-, -, hnext⟩ := bind_eq_ok_iff.mp hnext
    split_ifs at hnext
    cases hnext
    rw [ih h, List.mem_cons, BTreeMap.mem_keys_iff, BTreeMap.get?_insert, BTreeMap.mem_keys_iff]
    by_cases hpath : path = first
    · simp [hpath]
    · simp [hpath]

/-- The paths that are hashed are those that Git lists, in order. -/
theorem enumeratePaths_ok {paths : List Bytes} (h : enumeratePaths tree = .ok paths) :
    paths.Pairwise (· < ·) ∧ (∀ path, path ∈ paths ↔ path ∈ tree.paths) ∧
      ∀ path ∈ tree.paths, path.length < 2 ^ 64 := by
  obtain ⟨output, houtput, h⟩ := bind_eq_ok_iff.mp h
  cases hlists : tree.lists with
  | none => rw [hlists] at houtput; cases houtput
  | some success =>
    rw [hlists, Option.map_some, runGit] at houtput
    split_ifs at houtput with hlimit
    cases houtput
    cases success with
    | false => cases h
    | true =>
      simp only [if_true] at h
      obtain ⟨listed, hlisted, h⟩ := bind_eq_ok_iff.mp h
      rw [nulEntries_terminated tree.noNul] at hlisted
      cases hlisted
      obtain ⟨set, hset, h⟩ := bind_eq_ok_iff.mp h
      cases h
      refine ⟨List.pairwise_map.mpr set.sorted, fun path => ?_, fun path hpath => ?_⟩
      · rw [foldlM_enumeratePath_ok hset path]
        exact or_iff_right List.not_mem_nil
      · have hsub : (path ++ [0]).Sublist (tree.paths.flatMap (· ++ [0])) :=
          List.sublist_flatten_of_mem (List.mem_map.mpr ⟨path, hpath, rfl⟩)
        have hle := hsub.length_le
        rw [List.length_append] at hle
        simp only [maximumGitOutputBytes] at hlimit
        omega

theorem observeEntries_ok {observed : EntryObservation} (h : observeEntries tree = .ok observed) :
    enumeratePaths tree = .ok observed.paths := by
  obtain ⟨paths, hpaths, h⟩ := bind_eq_ok_iff.mp h
  obtain ⟨staged, -, h⟩ := bind_eq_ok_iff.mp h
  split_ifs at h
  obtain ⟨tracked, -, h⟩ := bind_eq_ok_iff.mp h
  cases h
  exact hpaths

variable {sha256 : Bytes → Bytes} {digest digest' : String}

theorem captureDigest_observed (h : captureDigest sha256 tree = .ok digest) :
    ∃ observed, observeEntries tree = .ok observed ∧
      hashEntries sha256 tree observed = .ok digest := by
  unfold captureDigest at h
  split at h
  · cases h
  obtain ⟨repository, -, h⟩ := bind_eq_ok_iff.mp h
  split_ifs at h
  split at h
  · cases h
  split_ifs at h
  obtain ⟨first, -, h⟩ := bind_eq_ok_iff.mp h
  split_ifs at h
  obtain ⟨firstDigest, -, h⟩ := bind_eq_ok_iff.mp h
  obtain ⟨second, hsecond, h⟩ := bind_eq_ok_iff.mp h
  split_ifs at h
  obtain ⟨secondDigest, hdigest, h⟩ := bind_eq_ok_iff.mp h
  obtain ⟨third, -, h⟩ := bind_eq_ok_iff.mp h
  split_ifs at h
  cases h
  exact ⟨second, hsecond, hdigest⟩

/-- What was captured: an entry for each path that Git lists, in the order of the paths. -/
theorem captureDigest_ok (h : captureDigest sha256 tree = .ok digest) :
    ∃ hashed : List (Bytes × SnapshotEntry), hashed.Pairwise (fun a b => a.1 < b.1) ∧
      (∀ path entry, (path, entry) ∈ hashed ↔ tree.entries path = some entry) ∧
      (∀ entry ∈ hashed, Framed entry) ∧
      digest = lowercaseHex (sha256 (snapshotDomain ++ hashed.flatMap encodeEntry)) := by
  obtain ⟨observed, hobserved, hdigest⟩ := captureDigest_observed h
  obtain ⟨hsorted, hlisted, hlength⟩ := enumeratePaths_ok (observeEntries_ok hobserved)
  obtain ⟨hashed, hpaths, hfiles, hdigest⟩ := hashEntries_ok hdigest
  rw [← hpaths] at hsorted hlisted
  refine ⟨hashed, List.pairwise_map.mp hsorted,
    fun path entry => ⟨fun hentry => ?_, fun hentry => ?_⟩, fun entry hentry => ?_, hdigest⟩
  · rw [WorkTree.entries, if_pos ((hlisted path).mp (List.mem_map_of_mem hentry))]
    exact (hfiles _ hentry).1
  · unfold WorkTree.entries at hentry
    split_ifs at hentry with hpath
    obtain ⟨⟨_, entry'⟩, hmem, rfl⟩ := List.mem_map.mp ((hlisted path).mpr hpath)
    rw [(hfiles _ hmem).1] at hentry
    cases hentry
    exact hmem
  · exact ⟨hlength _ ((hlisted _).mp (List.mem_map_of_mem hentry)), (hfiles entry hentry).2⟩

/-- An injective hash tells apart the maps of two work trees. -/
theorem captureDigest_eq_iff (hsha : Function.Injective sha256)
    (h : captureDigest sha256 tree = .ok digest) (h' : captureDigest sha256 prior = .ok digest') :
    digest = digest' ↔ tree.entries = prior.entries := by
  obtain ⟨hashed, hsorted, hmem, hframed, rfl⟩ := captureDigest_ok h
  obtain ⟨hashed', hsorted', hmem', hframed', rfl⟩ := captureDigest_ok h'
  constructor
  · intro heq
    have hstream := List.append_cancel_left (hsha (lowercaseHex_inj heq))
    have hsame := flatMap_inj encodeEntry_ne_nil (fun _ _ _ _ => encodeEntry_inj) hframed hframed'
      hstream
    funext path
    refine Option.ext fun entry => ?_
    rw [← hmem, ← hmem', hsame]
  · intro heq
    have hnodup {entries : List (Bytes × SnapshotEntry)}
        (hsorted : entries.Pairwise (fun a b => a.1 < b.1)) : entries.Nodup :=
      hsorted.imp fun hab heq => absurd (heq ▸ hab) (lt_irrefl _)
    have hperm := (List.perm_ext_iff_of_nodup (hnodup hsorted) (hnodup hsorted')).mpr
      fun entry => by rw [hmem, hmem', heq]
    rw [hperm.eq_of_pairwise (fun a b _ _ hab hba => absurd (hab.trans hba) (lt_irrefl _))
      hsorted hsorted']

variable {sha256 : Bytes → Bytes} {isCanonicalUtcTimestamp : String → Bool}

theorem captureWith_value {tree : WorkTree} {now : Option String}
    {settledBy : Option WorkspaceSnapshotSettlementV1} {value : String}
    (h : (captureWith sha256 tree now settledBy).value = some value) :
    captureDigest sha256 tree = .ok value := by
  unfold captureWith at h
  split at h
  · cases h
    assumption
  · cases h
  · cases h

theorem compareContinuationSnapshots_known {root priorRoot : String} {start : WorkspaceSnapshotV1}
    {settlement : Option WorkspaceSnapshotV1} {modified : Bool}
    (h : compareContinuationSnapshots isCanonicalUtcTimestamp root priorRoot start settlement =
      .known modified) :
    ∃ previous current prior, settlement = some previous ∧ start.value = some current ∧
      previous.value = some prior ∧ root = priorRoot ∧ previous.settledBy = some .engine ∧
      modified = (current != prior) := by
  unfold compareContinuationSnapshots at h
  split at h
  · cases h
  split at h
  · split_ifs at h with hvalid
    cases h
    exact ⟨_, _, _, rfl, by assumption, by assumption, hvalid.1, hvalid.2.2.2.2, rfl⟩
  · cases h

/-- Equal digests are equal work trees, so that a known answer is the right one, and the answer is
unknown without both snapshots, for a settlement that is not the engine's and for another root. -/
theorem workspaceComparison_exact (hsha : Function.Injective sha256) :
    (∀ tree prior digest digest', captureDigest sha256 tree = .ok digest →
      captureDigest sha256 prior = .ok digest' →
      (digest = digest' ↔ tree.entries = prior.entries)) ∧
    (∀ root priorRoot tree prior now settledAt settledBy modified,
      compareContinuationSnapshots isCanonicalUtcTimestamp root priorRoot
        (captureStartSnapshot sha256 tree now)
        (some (captureSettlementSnapshot sha256 prior settledAt settledBy)) = .known modified →
      (modified = true ↔ tree.entries ≠ prior.entries)) ∧
    ∀ root priorRoot start settlement,
      start.value = none ∨ settlement = none ∨ root ≠ priorRoot ∨
        (∃ previous, settlement = some previous ∧
          (previous.value = none ∨ previous.settledBy ≠ some .engine)) →
      compareContinuationSnapshots isCanonicalUtcTimestamp root priorRoot start settlement =
        .unknown := by
  refine ⟨fun tree prior digest digest' h h' => captureDigest_eq_iff hsha h h', ?_, ?_⟩
  · intro root priorRoot tree prior now settledAt settledBy modified h
    obtain ⟨previous, current, before, hprevious, hcurrent, hbefore, -, -, rfl⟩ :=
      compareContinuationSnapshots_known h
    cases hprevious
    rw [bne_iff_ne, ne_eq, captureDigest_eq_iff hsha (captureWith_value hcurrent)
      (captureWith_value hbefore)]
  · intro root priorRoot start settlement hmissing
    cases hanswer : compareContinuationSnapshots isCanonicalUtcTimestamp root priorRoot start
      settlement with
    | unknown => rfl
    | known =>
      obtain ⟨previous, current, before, rfl, hcurrent, hbefore, hroot, hengine, -⟩ :=
        compareContinuationSnapshots_known hanswer
      simp [hcurrent, hbefore, hroot, hengine] at hmissing

def emptyTree : WorkTree where
  canonicalRoot := some "/work"
  toplevel := some ⟨true, ascii "/work" ++ [10]⟩
  repositoryRoot := fun _ => some "/work"
  staged := some ⟨true, []⟩
  lists := some true
  paths := []
  noNul := by simp
  rootOpens := true
  file := fun _ => .ok .missing

def oneFileTree : WorkTree :=
  { emptyTree with
    paths := [[97]]
    noNul := by simp
    file := fun _ => .ok (.regular false []) }

/-- A hash without collisions that has 32 bytes for the streams of the two trees. -/
def sampleHash : Equiv.Perm Bytes :=
  (Equiv.swap snapshotDomain (List.replicate 32 0)).trans
    (Equiv.swap (snapshotDomain ++ encodeEntry ([97], .regular false [])) (List.replicate 32 1))

def sampleComparison : WorkspaceModifiedV1 :=
  compareContinuationSnapshots (fun _ => true) "/work" "/work"
    (captureStartSnapshot sampleHash oneFileTree (some "2026-01-01T00:00:00Z"))
    (some (captureSettlementSnapshot sampleHash emptyTree (some "2026-01-01T00:00:00Z") .engine))

theorem newFile_isModified :
    sampleComparison = .known true ∧ oneFileTree.entries ≠ emptyTree.entries := by
  have hknown : sampleComparison = .known true := by decide +kernel
  have hexact := (workspaceComparison_exact sampleHash.injective).2.1 _ _ _ _ _ _ _ _ hknown
  exact ⟨hknown, hexact.mp rfl⟩

end ScherzoCloud.Workflow
