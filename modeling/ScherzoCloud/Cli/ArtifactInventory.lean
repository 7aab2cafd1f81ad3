import Mathlib.Algebra.Ring.Nat
import Mathlib.Data.String.Basic
import Mathlib.Order.Interval.Finset.Nat

/-!
# Collecting the inventory of an artifact set

Before it downloads an artifact set, the command line asks a source for the
pages of its inventory, follows their cursors and checks that the pages belong
together.  The source is a remote service and may answer anything: it is a
structure of functions over a state of its own.  `requestPage` is one round of the
loop over the pages.  The first argument of `collectPages` bounds the number of
page requests, and the answer is `none` while the loop is still going;
`pagesFrom` are its variables until then.  The loop makes at most one request for
each member and one for each page without members that it follows.
-/

namespace ScherzoCloud.Cli

structure ArtifactMember where
  path : String
  mediaType : String
  sizeBytes : Nat
  sha256 : List UInt8
  deriving DecidableEq, Repr

structure ArtifactInventoryPage where
  artifactSetId : String
  sealedAt : String
  expiresAt : String
  memberCount : Nat
  totalSizeBytes : Nat
  members : List ArtifactMember
  nextCursor : Option String
  deriving DecidableEq, Repr

structure ArtifactCapabilityMember where
  member : ArtifactMember
  url : String
  deriving DecidableEq, Repr

structure ArtifactCapabilities where
  artifactSetId : String
  expiresAt : String
  capabilityExpiresAt : String
  members : List ArtifactCapabilityMember
  deriving DecidableEq, Repr

structure DownloadedMember where
  sizeBytes : Nat
  sha256 : List UInt8
  deriving DecidableEq, Repr

inductive ArtifactApiError where
  | endpoint
  | invalidAuthorizationHeader
  | invalidInput
  | unauthenticated
  | forbidden
  | notFound
  | gone
  | unreachable
  | capabilityUnavailable
  | localOutput
  | protocol
  deriving DecidableEq, Repr

inductive ArtifactAssemblyError where
  | api (error : ArtifactApiError)
  | invalidInventory
  | integrityMismatch
  | destinationInvalid
  | destinationExists
  | stagingUnavailable
  | commitUnavailable
  deriving DecidableEq, Repr

/-- A source of artifact sets, with the state that its answers depend on.  A download
also yields the bytes that were written to the destination. -/
structure ArtifactSource (σ : Type) where
  inventoryPage : String → String → Nat → Option String → σ →
    Except ArtifactApiError ArtifactInventoryPage × σ
  issueCapabilities : String → String → List String → σ →
    Except ArtifactApiError ArtifactCapabilities × σ
  download : ArtifactCapabilityMember → σ →
    (Except ArtifactApiError DownloadedMember × List UInt8) × σ

def inventoryPageLimit : Nat := 200

/-- The rest of a text after a leading text. -/
def stripPrefix (value leading : String) : Option String :=
  if leading.toList.isPrefixOf value.toList then
    some (String.ofList (value.toList.drop leading.toList.length))
  else
    none

def typedIdByte (c : Char) : Bool :=
  ('0' ≤ c && c ≤ '9') || ('a' ≤ c && c ≤ 'h') || ('j' ≤ c && c ≤ 'k') ||
    ('m' ≤ c && c ≤ 'n') || ('p' ≤ c && c ≤ 't') || ('v' ≤ c && c ≤ 'z')

def validTypedId (value leading : String) : Bool :=
  match stripPrefix value leading with
  | none => false
  | some suffix =>
    suffix.utf8ByteSize == 26 && suffix.toList.head?.any (fun c => '0' ≤ c && c ≤ '7') &&
      suffix.toList.tail.all typedIdByte

def validMember (member : ArtifactMember) : Bool :=
  if member.mediaType.isEmpty then false
  else if member.path = "result.json" then member.mediaType == "application/json"
  else
    match stripPrefix member.path "exports/" with
    | none => false
    | some ordinal =>
      -- a text of four bytes that are digits is one of four digits
      ordinal.toList.length == 4 && ordinal.toList.all Char.isDigit && ordinal != "0000" &&
        decide (ordinal ≤ "4096")

/-- The loop over the members of a page. -/
def validateMembers : Option String → List ArtifactMember → Bool
  | _, [] => true
  | priorPath, member :: rest =>
    validMember member && !priorPath.any (fun path => decide (member.path ≤ path)) &&
      validateMembers (some member.path) rest

/-- The fields on which all pages of an inventory agree. -/
def ArtifactInventoryPage.agrees (page expected : ArtifactInventoryPage) : Bool :=
  page.artifactSetId == expected.artifactSetId && page.sealedAt == expected.sealedAt &&
    page.expiresAt == expected.expiresAt && page.memberCount == expected.memberCount &&
    page.totalSizeBytes == expected.totalSizeBytes

def validatePage (page : ArtifactInventoryPage) (expected : Option ArtifactInventoryPage)
    (previous : Option ArtifactMember) : Except ArtifactAssemblyError Unit :=
  if !validTypedId page.artifactSetId "ats_" || page.memberCount == 0 ||
      decide (4097 < page.memberCount) || decide (inventoryPageLimit < page.members.length) then
    .error .invalidInventory
  else if expected.any (fun expected => !page.agrees expected) then
    .error .invalidInventory
  else if validateMembers (previous.map (·.path)) page.members then .ok ()
  else .error .invalidInventory

/-- The variables of the loop over the pages, with the pages accepted so far. -/
structure Paging where
  expected : Option ArtifactInventoryPage := none
  cursor : Option String := none
  seenCursors : List String := []
  members : List ArtifactMember := []
  pages : List ArtifactInventoryPage := []
  deriving DecidableEq, Repr

def Paging.extend (paging : Paging) (page : ArtifactInventoryPage) : Paging :=
  { paging with
    expected := paging.expected <|> some page
    members := paging.members ++ page.members
    pages := paging.pages ++ [page] }

def Paging.follow (paging : Paging) (next : String) : Paging :=
  { paging with cursor := some next, seenCursors := next :: paging.seenCursors }

structure CompleteInventory where
  artifactSetId : String
  expiresAt : String
  memberCount : Nat
  totalSizeBytes : Nat
  members : List ArtifactMember
  deriving DecidableEq, Repr

/-- The sum of the sizes, unless it exceeds 64 bits. -/
def checkedTotal (members : List ArtifactMember) : Option Nat :=
  members.foldlM (fun total member =>
    if total + member.sizeBytes < 2 ^ 64 then some (total + member.sizeBytes) else none) 0

/-- The checks after the last page. -/
def completeInventory (paging : Paging) : Except ArtifactAssemblyError CompleteInventory :=
  match paging.expected, checkedTotal paging.members with
  | some expected, some total =>
    if paging.members.length != expected.memberCount || total != expected.totalSizeBytes ||
        !paging.members.getLast?.any (fun member => member.path == "result.json") then
      .error .invalidInventory
    else
      .ok ⟨expected.artifactSetId, expected.expiresAt, expected.memberCount,
        expected.totalSizeBytes, paging.members⟩
  | _, _ => .error .invalidInventory

variable {σ : Type} (source : ArtifactSource σ) (organization runId : String)

/-- What the loop makes of an answer: it ends, or goes on with new variables. -/
inductive PageOutcome where
  | done (result : Except ArtifactAssemblyError Paging)
  | next (paging : Paging)

/-- One round of the loop over the pages. -/
def requestPage (paging : Paging) (s : σ) : PageOutcome × σ :=
  match source.inventoryPage organization runId inventoryPageLimit paging.cursor s with
  | (.error error, s) => (.done (.error (.api error)), s)
  | (.ok page, s) =>
    match validatePage page paging.expected paging.members.getLast? with
    | .error error => (.done (.error error), s)
    | .ok () =>
      match page.nextCursor with
      | none => (.done (.ok (paging.extend page)), s)
      | some next =>
        if next.isEmpty || paging.seenCursors.contains next ||
            (paging.extend page).members.isEmpty then
          (.done (.error .invalidInventory), s)
        else (.next ((paging.extend page).follow next), s)

/-- The loop over the pages, with at most a given number of requests. -/
def collectPages : Nat → Paging → σ → Option (Except ArtifactAssemblyError Paging × σ)
  | 0, _, _ => none
  | requests + 1, paging, s =>
    match requestPage source organization runId paging s with
    | (.done result, s) => some (result, s)
    | (.next paging, s) => collectPages requests paging s

/-- The variables of the loop after a number of requests, while it goes on. -/
def pagesFrom : Nat → Paging → σ → Option (Paging × σ)
  | 0, paging, s => some (paging, s)
  | requests + 1, paging, s =>
    match requestPage source organization runId paging s with
    | (.done _, _) => none
    | (.next paging, s) => pagesFrom requests paging s

/-- The inventory with the pages that it comes from. -/
def collectInventory (requests : Nat) (s : σ) :
    Option (Except ArtifactAssemblyError (CompleteInventory × List ArtifactInventoryPage) × σ) :=
  (collectPages source organization runId requests {} s).map fun (paging, s) =>
    (paging.bind fun paging =>
      (completeInventory paging).map fun inventory => (inventory, paging.pages), s)

/-- The value of a text of digits. -/
def ordinalValue (digits : List Char) : Nat :=
  digits.foldl (fun value c => 10 * value + (c.toNat - 48)) 0

/-- The place of a path among the paths of an artifact set. -/
def pathOrdinal (path : String) : Nat :=
  if path = "result.json" then 4097 else ordinalValue (path.toList.drop 8)

private theorem digit_bounds {c : Char} (h : c.isDigit = true) : 48 ≤ c.toNat ∧ c.toNat ≤ 57 := by
  simp only [Char.isDigit, Bool.and_eq_true, decide_eq_true_eq] at h
  exact ⟨UInt32.le_iff_toNat_le.mp h.1, UInt32.le_iff_toNat_le.mp h.2⟩

/-- Texts of four digits are ordered as their values. -/
theorem ordinalValue_bounds {a b c d : Char} (hdigits : ∀ x ∈ [a, b, c, d], x.isDigit = true)
    (hzero : [a, b, c, d] ≠ ['0', '0', '0', '0']) (hle : ¬ ['4', '0', '9', '6'] < [a, b, c, d]) :
    1 ≤ ordinalValue [a, b, c, d] ∧ ordinalValue [a, b, c, d] ≤ 4096 := by
  have ha := digit_bounds (hdigits a (by simp))
  have hb := digit_bounds (hdigits b (by simp))
  have hc := digit_bounds (hdigits c (by simp))
  have hd := digit_bounds (hdigits d (by simp))
  have hsome : ¬ (a.toNat = 48 ∧ b.toNat = 48 ∧ c.toNat = 48 ∧ d.toNat = 48) := by
    rintro ⟨ha, hb, hc, hd⟩
    have hzeroOf (x : Char) (hx : x.toNat = 48) : x = '0' := Char.toNat_inj.mp hx
    rw [hzeroOf a ha, hzeroOf b hb, hzeroOf c hc, hzeroOf d hd] at hzero
    exact hzero rfl
  simp only [List.cons_lt_cons_iff, Char.lt_def, UInt32.lt_iff_toNat_lt, ← Char.toNat_inj,
    List.not_lt_nil] at hle
  have hlex : ¬ (52 < a.toNat ∨ 52 = a.toNat ∧ (48 < b.toNat ∨ 48 = b.toNat ∧
      (57 < c.toNat ∨ 57 = c.toNat ∧ (54 < d.toNat ∨ 54 = d.toNat ∧ False)))) := hle
  simp only [ordinalValue, List.foldl_cons, List.foldl_nil]
  omega

theorem ordinalValue_inj {a b c d a' b' c' d' : Char}
    (h : ∀ x ∈ [a, b, c, d], x.isDigit = true) (h' : ∀ x ∈ [a', b', c', d'], x.isDigit = true)
    (heq : ordinalValue [a, b, c, d] = ordinalValue [a', b', c', d']) :
    [a, b, c, d] = [a', b', c', d'] := by
  simp only [List.forall_mem_cons] at h h'
  obtain ⟨ha, hb, hc, hd, -⟩ := h
  obtain ⟨ha', hb', hc', hd', -⟩ := h'
  have := digit_bounds ha
  have := digit_bounds hb
  have := digit_bounds hc
  have := digit_bounds hd
  have := digit_bounds ha'
  have := digit_bounds hb'
  have := digit_bounds hc'
  have := digit_bounds hd'
  simp only [ordinalValue, List.foldl_cons, List.foldl_nil] at heq
  rw [Char.toNat_inj.mp (show a.toNat = a'.toNat by omega),
    Char.toNat_inj.mp (show b.toNat = b'.toNat by omega),
    Char.toNat_inj.mp (show c.toNat = c'.toNat by omega),
    Char.toNat_inj.mp (show d.toNat = d'.toNat by omega)]

/-- The path of a valid member other than the result. -/
theorem validMember_export {member : ArtifactMember} (h : validMember member = true)
    (hne : member.path ≠ "result.json") :
    ∃ a b c d : Char, member.path.toList = "exports/".toList ++ [a, b, c, d] ∧
      (∀ x ∈ [a, b, c, d], x.isDigit = true) ∧
      1 ≤ ordinalValue [a, b, c, d] ∧ ordinalValue [a, b, c, d] ≤ 4096 := by
  unfold validMember at h
  split at h
  · cases h
  unfold stripPrefix at h
  split at h
  · cases h
  rename_i ordinal hordinal
  split_ifs at hordinal with hleading
  cases hordinal
  obtain ⟨rest, hrest⟩ := List.isPrefixOf_iff_prefix.mp hleading
  simp only [← hrest, List.drop_left, String.toList_ofList, Bool.and_eq_true, beq_iff_eq,
    List.all_eq_true, bne_iff_ne, ne_eq, decide_eq_true_eq] at h
  obtain ⟨⟨⟨hlength, hdigits⟩, hzero⟩, hle⟩ := h
  obtain ⟨a, b, c, d, rfl⟩ : ∃ a b c d, rest = [a, b, c, d] := by
    match rest, hlength with
    | [a, b, c, d], _ => exact ⟨a, b, c, d, rfl⟩
  refine ⟨a, b, c, d, hrest.symm, hdigits, ordinalValue_bounds hdigits ?_ ?_⟩
  · intro hzeros
    exact hzero (by rw [hzeros])
  · intro hlt
    exact hle (String.lt_iff_toList_lt.mpr (by simpa using hlt))

theorem pathOrdinal_lt {member : ArtifactMember} (h : validMember member = true) :
    pathOrdinal member.path ∈ Finset.Ico 1 4098 := by
  rw [Finset.mem_Ico]
  unfold pathOrdinal
  split_ifs with hresult
  · decide
  · obtain ⟨a, b, c, d, hpath, -, hpos, hle⟩ := validMember_export h hresult
    rw [hpath, List.drop_left' (by rfl)]
    omega

theorem pathOrdinal_inj {first second : ArtifactMember} (hfirst : validMember first = true)
    (hsecond : validMember second = true)
    (h : pathOrdinal first.path = pathOrdinal second.path) : first.path = second.path := by
  unfold pathOrdinal at h
  split_ifs at h with hf hs hs
  · rw [hf, hs]
  · obtain ⟨a, b, c, d, hpath, -, -, hle⟩ := validMember_export hsecond hs
    rw [hpath, List.drop_left' (by rfl)] at h
    omega
  · obtain ⟨a, b, c, d, hpath, -, -, hle⟩ := validMember_export hfirst hf
    rw [hpath, List.drop_left' (by rfl)] at h
    omega
  · obtain ⟨a, b, c, d, hpath, hdigits, -, -⟩ := validMember_export hfirst hf
    obtain ⟨a', b', c', d', hpath', hdigits', -, -⟩ := validMember_export hsecond hs
    rw [hpath, hpath', List.drop_left' (by rfl), List.drop_left' (by rfl)] at h
    refine String.toList_inj.mp ?_
    rw [hpath, hpath', ordinalValue_inj hdigits hdigits' h]

/-- Members with valid and strictly increasing paths. -/
structure MembersOrdered (members : List ArtifactMember) : Prop where
  valid : ∀ member ∈ members, validMember member = true
  increasing : (members.map (·.path)).Pairwise (· < ·)

/-- An artifact set has at most 4097 members. -/
theorem MembersOrdered.length_le {members : List ArtifactMember} (h : MembersOrdered members) :
    members.length ≤ 4097 := by
  have hnodup : (members.map fun member => pathOrdinal member.path).Nodup := by
    refine List.pairwise_map.mpr (List.Pairwise.imp_of_mem ?_ (List.pairwise_map.mp h.increasing))
    intro first second hfirst hsecond hlt heq
    exact hlt.ne (pathOrdinal_inj (h.valid first hfirst) (h.valid second hsecond) heq)
  have hsub : (members.map fun member => pathOrdinal member.path).toFinset ⊆ Finset.Ico 1 4098 := by
    intro ordinal hordinal
    rw [List.mem_toFinset, List.mem_map] at hordinal
    obtain ⟨member, hmember, rfl⟩ := hordinal
    exact pathOrdinal_lt (h.valid member hmember)
  have hcard := Finset.card_le_card hsub
  rwa [List.toFinset_card_of_nodup hnodup, List.length_map, Nat.card_Ico] at hcard

theorem MembersOrdered.le_getLast {members : List ArtifactMember} (h : MembersOrdered members)
    {member : ArtifactMember} (hmember : member ∈ members) :
    ∃ last ∈ members.getLast?, member.path ≤ last.path := by
  obtain rfl | ⟨init, last, rfl⟩ := List.eq_nil_or_concat members
  · cases hmember
  · refine ⟨last, by simp, ?_⟩
    have hincreasing := h.increasing
    simp only [List.concat_eq_append, List.map_append, List.pairwise_append] at hincreasing
    rcases List.mem_append.mp (List.concat_eq_append ▸ hmember) with hinit | hlast
    · exact (hincreasing.2.2 _ (List.mem_map_of_mem hinit) _ (List.mem_singleton.mpr rfl)).le
    · rw [List.mem_singleton.mp hlast]

theorem validateMembers_ordered {previous : Option ArtifactMember} {members : List ArtifactMember}
    (h : validateMembers (previous.map (·.path)) members = true) :
    MembersOrdered members ∧ ∀ prior ∈ previous, ∀ member ∈ members, prior.path < member.path := by
  induction members generalizing previous with
  | nil => exact ⟨⟨by simp, List.Pairwise.nil⟩, by simp⟩
  | cons member rest ih =>
    simp only [validateMembers, Bool.and_eq_true, Bool.not_eq_true', Option.any_eq_false,
      decide_eq_false_iff_not, not_le] at h
    obtain ⟨⟨hvalid, hprior⟩, hrest⟩ := h
    obtain ⟨hordered, hafter⟩ := @ih (some member) hrest
    have hlt := hafter member rfl
    refine ⟨⟨List.forall_mem_cons.mpr ⟨hvalid, hordered.valid⟩, ?_⟩, ?_⟩
    · rw [List.map_cons, List.pairwise_cons, List.forall_mem_map]
      exact ⟨hlt, hordered.increasing⟩
    · rintro prior rfl
      have hfirst : prior.path < member.path := hprior prior.path rfl
      exact List.forall_mem_cons.mpr ⟨hfirst, fun later hlater => hfirst.trans (hlt later hlater)⟩

/-- The pages accepted so far belong together. -/
structure Paging.Consistent (paging : Paging) : Prop where
  expected : paging.expected = paging.pages.head?
  members : paging.members = paging.pages.flatMap (·.members)
  agrees : ∀ first ∈ paging.expected, ∀ page ∈ paging.pages, page.agrees first = true
  ordered : MembersOrdered paging.members

namespace Paging

theorem consistent_nil : Consistent {} :=
  ⟨rfl, rfl, by simp, ⟨by simp, List.Pairwise.nil⟩⟩

variable {paging : Paging}

theorem Consistent.follow (h : paging.Consistent) (next : String) :
    (paging.follow next).Consistent :=
  ⟨h.expected, h.members, h.agrees, h.ordered⟩

theorem Consistent.extend {page : ArtifactInventoryPage} (h : paging.Consistent)
    (hpage : validatePage page paging.expected paging.members.getLast? = .ok ()) :
    (paging.extend page).Consistent := by
  unfold validatePage at hpage
  split_ifs at hpage with _ hdiffers hmembers
  have hagrees : ∀ first ∈ paging.expected, page.agrees first = true := by
    rintro first hfirst
    rw [hfirst] at hdiffers
    simpa using hdiffers
  obtain ⟨hordered, hafter⟩ := validateMembers_ordered hmembers
  refine ⟨?_, by simp [Paging.extend, h.members], ?_, ?_⟩
  · simp [Paging.extend, h.expected, List.head?_append]
  · rintro first hfirst other hother
    rcases List.mem_append.mp hother with hold | hnew
    · cases hexpected : paging.expected with
      | none =>
        rw [h.expected, List.head?_eq_none_iff] at hexpected
        simp [hexpected] at hold
      | some =>
        simp only [Paging.extend, hexpected] at hfirst
        exact h.agrees first (hexpected ▸ hfirst) other hold
    · cases List.mem_singleton.mp hnew
      cases hexpected : paging.expected with
      | none =>
        simp only [Paging.extend, hexpected] at hfirst
        cases hfirst
        simp [ArtifactInventoryPage.agrees]
      | some =>
        simp only [Paging.extend, hexpected] at hfirst
        exact hagrees first (hexpected ▸ hfirst)
  · refine ⟨fun member hmember => ?_, ?_⟩
    · exact (List.mem_append.mp hmember).elim (h.ordered.valid member) (hordered.valid member)
    · simp only [Paging.extend, List.map_append, List.pairwise_append, List.forall_mem_map]
      refine ⟨h.ordered.increasing, hordered.increasing, fun early hearly late hlate => ?_⟩
      -- the last member so far stands between the two
      obtain ⟨last, hlast, hle⟩ := h.ordered.le_getLast hearly
      exact hle.trans_lt (hafter last hlast late hlate)

end Paging

variable {σ : Type} {source : ArtifactSource σ} {organization runId : String}

theorem pagesFrom_add (n m : Nat) (paging : Paging) (s : σ) :
    pagesFrom source organization runId (n + m) paging s =
      (pagesFrom source organization runId n paging s).bind fun following =>
        pagesFrom source organization runId m following.1 following.2 := by
  induction n generalizing paging s with
  | zero => simp [pagesFrom]
  | succ n ih =>
    rw [Nat.succ_add, pagesFrom, pagesFrom]
    split
    · rfl
    · exact ih ..

/-- A page that the loop follows. -/
theorem requestPage_next {paging following : Paging} {s s' : σ}
    (h : requestPage source organization runId paging s = (.next following, s')) :
    ∃ page next, source.inventoryPage organization runId inventoryPageLimit paging.cursor s =
        (.ok page, s') ∧
      validatePage page paging.expected paging.members.getLast? = .ok () ∧
      page.nextCursor = some next ∧ following = (paging.extend page).follow next := by
  unfold requestPage at h
  split at h
  · cases h
  · split at h
    · cases h
    · rename_i hanswer _ hpage
      split at h
      · cases h
      · rename_i hnext
        split_ifs at h
        · cases h
        · cases h
          exact ⟨_, _, hanswer, hpage, hnext, rfl⟩

/-- The page with which the loop ends. -/
theorem requestPage_done {paging last : Paging} {s s' : σ}
    (h : requestPage source organization runId paging s = (.done (.ok last), s')) :
    ∃ page, source.inventoryPage organization runId inventoryPageLimit paging.cursor s =
        (.ok page, s') ∧
      validatePage page paging.expected paging.members.getLast? = .ok () ∧
      page.nextCursor = none ∧ last = paging.extend page := by
  unfold requestPage at h
  split at h
  · cases h
  · split at h
    · cases h
    · rename_i hanswer _ hpage
      split at h
      · rename_i hnext
        cases h
        exact ⟨_, hanswer, hpage, hnext, rfl⟩
      · split_ifs at h
        · cases h
        · cases h

/-- The pages that a source answers, each of them asked for with the cursor of the one before. -/
inductive Answered (source : ArtifactSource σ) (organization runId : String) :
    Option String → σ → List ArtifactInventoryPage → σ → Prop
  | last {cursor page s s'} :
    source.inventoryPage organization runId inventoryPageLimit cursor s = (.ok page, s') →
    page.nextCursor = none → Answered source organization runId cursor s [page] s'
  | next {cursor page next s s₁ pages s'} :
    source.inventoryPage organization runId inventoryPageLimit cursor s = (.ok page, s₁) →
    page.nextCursor = some next → Answered source organization runId (some next) s₁ pages s' →
    Answered source organization runId cursor s (page :: pages) s'

/-- The loop collects pages that belong together, and that the source answers. -/
theorem collectPages_ok {requests : Nat} {paging last : Paging} {s s' : σ}
    (hpaging : paging.Consistent)
    (h : collectPages source organization runId requests paging s = some (.ok last, s')) :
    last.Consistent ∧ ∃ pages, last.pages = paging.pages ++ pages ∧
      Answered source organization runId paging.cursor s pages s' := by
  induction requests generalizing paging s with
  | zero => cases h
  | succ requests ih =>
    rw [collectPages] at h
    split at h
    · rename_i hround
      cases h
      obtain ⟨page, hanswer, hpage, hnext, rfl⟩ := requestPage_done hround
      exact ⟨hpaging.extend hpage, [page], rfl, .last hanswer hnext⟩
    · rename_i hround
      obtain ⟨page, next, hanswer, hpage, hnext, rfl⟩ := requestPage_next hround
      obtain ⟨hlast, pages, heq, hanswered⟩ := ih ((hpaging.extend hpage).follow next) h
      refine ⟨hlast, page :: pages, ?_, .next hanswer hnext hanswered⟩
      rw [heq]
      exact List.append_assoc ..

/-- The number of accepted pages that hold no member. -/
def Paging.emptyPages (paging : Paging) : Nat :=
  paging.pages.countP (·.members.isEmpty)

/-- A followed page holds a member or counts as empty. -/
theorem Paging.length_follow_extend (paging : Paging) (page : ArtifactInventoryPage)
    (next : String) :
    paging.members.length + paging.emptyPages <
        ((paging.extend page).follow next).members.length +
          ((paging.extend page).follow next).emptyPages ∧
      ((paging.extend page).follow next).emptyPages ≤ paging.emptyPages + 1 := by
  simp only [Paging.follow, Paging.extend, Paging.emptyPages, List.length_append,
    List.countP_append, List.countP_singleton]
  cases page.members with
  | nil => simp
  | cons => simp

/-- At most `k` of the pages that the loop follows hold no member. -/
def EmptyPagesAtMost (source : ArtifactSource σ) (organization runId : String) (s : σ) (k : Nat) :
    Prop :=
  ∀ requests paging s', pagesFrom source organization runId requests {} s = some (paging, s') →
    paging.emptyPages ≤ k

theorem collectPages_returns {k requests : Nat} {paging : Paging} {s : σ}
    (hpaging : paging.Consistent)
    (hempty : ∀ n following s', pagesFrom source organization runId n paging s =
      some (following, s') → following.emptyPages ≤ k)
    (hroom : 4097 + k < paging.members.length + paging.emptyPages + requests) :
    ∃ answer, collectPages source organization runId requests paging s = some answer := by
  induction requests generalizing paging s with
  | zero =>
    have hmembers := hpaging.ordered.length_le
    have hpages := hempty 0 paging s rfl
    omega
  | succ requests ih =>
    rw [collectPages]
    split
    · exact ⟨_, rfl⟩
    · rename_i hround
      obtain ⟨page, next, -, hpage, -, rfl⟩ := requestPage_next hround
      refine ih ((hpaging.extend hpage).follow next) (fun n following s' hfollowing => ?_) ?_
      · exact hempty (n + 1) following s' (by rw [pagesFrom, hround]; exact hfollowing)
      · have hgrows := (paging.length_follow_extend page next).1
        omega

theorem emptyPages_le_of_returns {n requests : Nat} {paging following : Paging} {s s' : σ}
    {answer : Except ArtifactAssemblyError Paging × σ}
    (h : collectPages source organization runId requests paging s = some answer)
    (hfollowing : pagesFrom source organization runId n paging s = some (following, s')) :
    following.emptyPages ≤ paging.emptyPages + requests := by
  induction requests generalizing n paging s with
  | zero => cases h
  | succ requests ih =>
    cases n with
    | zero =>
      cases hfollowing
      omega
    | succ n =>
      rw [collectPages] at h
      rw [pagesFrom] at hfollowing
      split at hfollowing
      · cases hfollowing
      · rename_i hround
        rw [hround] at h
        obtain ⟨page, next, -, -, -, rfl⟩ := requestPage_next hround
        have hrest := ih h hfollowing
        have hpage := (paging.length_follow_extend page next).2
        omega

/-- The requests are bounded by the limit of members just as far as the empty pages are: with at
most `k` of them there are at most `4098 + k` requests, and each of them is a request. -/
theorem collectInventory_returns_iff (source : ArtifactSource σ) (organization runId : String)
    (s : σ) :
    (∀ k, EmptyPagesAtMost source organization runId s k →
      ∃ answer, collectInventory source organization runId (4098 + k) s = some answer) ∧
    ∀ requests answer, collectInventory source organization runId requests s = some answer →
      EmptyPagesAtMost source organization runId s requests := by
  refine ⟨fun k hempty => ?_, fun requests answer h => ?_⟩
  · have hpages : ∃ answer, collectPages source organization runId (4098 + k) {} s = some answer :=
      collectPages_returns Paging.consistent_nil hempty (by simp [Paging.emptyPages])
    obtain ⟨answer, h⟩ := hpages
    simp [collectInventory, h]
  · intro n paging s' hpaging
    obtain ⟨answer, hpages, -⟩ := Option.map_eq_some_iff.mp h
    simpa [Paging.emptyPages] using emptyPages_le_of_returns hpages hpaging

/-- The files of a set, with a digest to tell their contents apart. -/
def pagedFiles : List (String × List UInt8) :=
  [("exports/0001", [1, 2]), ("exports/0002", [3]), ("exports/0003", [4, 5, 6]),
    ("result.json", [123, 125])]

def checksum (bytes : List UInt8) : List UInt8 := bytes.reverse

def pagedMembers : List ArtifactMember :=
  pagedFiles.map fun file => ⟨file.1, "application/json", file.2.length, checksum file.2⟩

/-- A page of a set with the given number and sizes of members. -/
def setPage (memberCount totalSizeBytes : Nat) (members : List ArtifactMember)
    (nextCursor : Option String) : ArtifactInventoryPage :=
  ⟨"ats_00000000000000000000000000", "2026-09-17T12:00:00Z", "2026-10-17T12:00:00Z", memberCount,
    totalSizeBytes, members, nextCursor⟩

/-- A source of three pages, of which the second is empty.  Its state is the time, and its first
capabilities expire at time 2. -/
def pagedSource : ArtifactSource Nat where
  inventoryPage _ _ _ cursor time :=
    (.ok (match cursor with
      | none => setPage 4 8 (pagedMembers.take 2) (some "second")
      | some "second" => setPage 4 8 [] (some "third")
      | some _ => setPage 4 8 (pagedMembers.drop 2) none), time)
  issueCapabilities _ _ paths time :=
    (.ok ⟨"ats_00000000000000000000000000", "2026-10-17T12:00:00Z",
      if time < 2 then "2026-09-17T12:02:00Z" else "2026-09-17T13:00:00Z",
      (pagedMembers.filter fun member => paths.contains member.path).map
        (⟨·, "https://fixture.invalid/exact"⟩)⟩, time)
  download capability time :=
    let bytes := (pagedFiles.lookup capability.member.path).getD []
    ((.ok ⟨bytes.length, checksum bytes⟩, bytes), time)

theorem pagedSource_returns : EmptyPagesAtMost pagedSource "org" "run" 0 1 ∧
    ∃ answer, collectInventory pagedSource "org" "run" 4099 0 = some answer := by
  have hend : pagesFrom pagedSource "org" "run" 3 {} 0 = none := by decide +kernel
  have hpages : ∀ n < 3, (pagesFrom pagedSource "org" "run" n {} 0).all
      (fun following => decide (following.1.emptyPages ≤ 1)) = true := by decide +kernel
  have h : EmptyPagesAtMost pagedSource "org" "run" 0 1 := by
    intro n paging time hpaging
    rcases Nat.lt_or_ge n 3 with hlt | hge
    · simpa [hpaging] using hpages n hlt
    · obtain ⟨more, rfl⟩ := Nat.exists_eq_add_of_le hge
      rw [pagesFrom_add, hend] at hpaging
      cases hpaging
  exact ⟨h, (collectInventory_returns_iff pagedSource "org" "run" 0).1 1 h⟩

def resultMember : ArtifactMember :=
  ⟨"result.json", "application/json", 2, []⟩

def freshCursor (asked : Nat) : String :=
  String.ofList (List.replicate (asked + 1) 'c')

/-- A source that sends its only member on the first page and then a fresh cursor with
every page. -/
def stallingSource : ArtifactSource Nat where
  inventoryPage _ _ _ _ asked :=
    (.ok (setPage 1 2 (if asked = 0 then [resultMember] else []) (some (freshCursor asked))),
      asked + 1)
  issueCapabilities _ _ _ asked := (.error .notFound, asked)
  download _ asked := ((.error .notFound, []), asked)

private theorem stallingSource_stalls {requests asked : Nat} {paging : Paging} (hasked : 0 < asked)
    (hexpected : paging.expected = some (setPage 1 2 [resultMember] (some "c")))
    (hmembers : paging.members = [resultMember])
    (hseen : ∀ cursor ∈ paging.seenCursors, cursor.toList.length ≤ asked) :
    collectPages stallingSource "org" "run" requests paging asked = none := by
  induction requests generalizing asked paging with
  | zero => rfl
  | succ requests ih =>
    have hid : validTypedId "ats_00000000000000000000000000" "ats_" = true := by decide
    have hpage (next : Option String) : validatePage (setPage 1 2 [] next)
        (some (setPage 1 2 [resultMember] (some "c"))) (some resultMember) = .ok () := by
      simp [validatePage, setPage, hid, ArtifactInventoryPage.agrees, validateMembers,
        inventoryPageLimit]
    have hfresh : freshCursor asked ∉ paging.seenCursors := by
      intro hmem
      have := hseen _ hmem
      simp [freshCursor] at this
    have hanswer (cursor : Option String) : stallingSource.inventoryPage "org" "run"
        inventoryPageLimit cursor asked =
          (.ok (setPage 1 2 [] (some (freshCursor asked))), asked + 1) := by
      simp only [stallingSource, if_neg hasked.ne']
    have hnonempty : freshCursor asked ≠ "" := by simp [freshCursor]
    have hnext : (setPage 1 2 [] (some (freshCursor asked))).nextCursor =
        some (freshCursor asked) := rfl
    rw [collectPages, requestPage, hanswer]
    simp only [hexpected, hmembers, List.getLast?_singleton, hpage, hnext]
    rw [if_neg (by simp [hfresh, Paging.extend, hmembers, hnonempty])]
    refine ih (Nat.succ_pos _) ?_ ?_ ?_
    · simp [Paging.follow, Paging.extend, hexpected, setPage]
    · simp [Paging.follow, Paging.extend, hmembers, setPage]
    · refine List.forall_mem_cons.mpr ⟨by simp [freshCursor], fun cursor hcursor => ?_⟩
      exact (hseen cursor hcursor).trans (Nat.le_succ asked)

theorem stallingSource_never_ends :
    ¬ ∃ requests answer, collectInventory stallingSource "org" "run" requests 0 = some answer := by
  rintro ⟨requests, answer, hanswer⟩
  cases requests with
  | zero => cases hanswer
  | succ requests =>
    have h : collectPages stallingSource "org" "run" requests
        ((Paging.extend {} (setPage 1 2 [resultMember] (some "c"))).follow "c") 1 = none :=
      stallingSource_stalls Nat.one_pos rfl rfl (by decide)
    change (collectPages stallingSource "org" "run" requests
      ((Paging.extend {} (setPage 1 2 [resultMember] (some "c"))).follow "c") 1).map _ = _ at hanswer
    rw [h] at hanswer
    cases hanswer

end ScherzoCloud.Cli
