import Mathlib.Data.String.Basic
import ScherzoCloud.Collections.Iteration

/-!
# Paths of workflow sources

The host paths below a source root.  A file system gives the node at each canonical
path; `canonicalize` follows the symbolic links of a path as the host does, while
`lexicalNormalize` looks at the spelling only.  Sources are named by the text of their
path relative to the root.
-/

namespace ScherzoCloud.Workflow

variable {text : String}

def isFileName (text : String) : Bool :=
  text ≠ "" && text ≠ "." && text ≠ ".." && !text.toList.contains '/'

/-- A name of a directory entry that is text. -/
structure FileName where
  text : String
  valid : isFileName text = true
  deriving DecidableEq

/-- A name of a directory entry.  Names that are not UTF-8 have no text. -/
inductive OsName where
  | utf8 (name : FileName)
  | raw (bytes : List UInt8)
  deriving DecidableEq

def OsName.toStr : OsName → Option String
  | utf8 name => some name.text
  | raw _ => none

/-- An absolute path without links and dots: the names from the root on. -/
abbrev HostPath := List OsName

/-- A piece of a path between separators.  An empty piece and a single dot stay where
they are. -/
inductive Segment where
  | stay
  | parent
  | name (name : OsName)
  deriving DecidableEq

structure RawPath where
  absolute : Bool
  segments : List Segment
  deriving DecidableEq

def Segment.ofStr (text : String) : Segment :=
  if h : isFileName text = true then .name (.utf8 ⟨text, h⟩)
  else if text = ".." then .parent
  else .stay

def RawPath.ofStr (text : String) : RawPath where
  absolute := text.toList.head? = some '/'
  segments := (text.toList.splitOn '/').map fun chars => Segment.ofStr (String.ofList chars)

/-- `Path::join` with an absolute base, as the pieces of an absolute path. -/
def HostPath.join (directory : HostPath) (path : RawPath) : List Segment :=
  if path.absolute then path.segments else directory.map .name ++ path.segments

theorem FileName.ne_nil (name : FileName) : name.text.toList ≠ [] := by
  have h := name.valid
  unfold isFileName at h
  intro hnil
  have htext : name.text = "" := String.toList_eq_nil_iff.mp hnil
  simp [htext] at h

theorem FileName.separator_notMem (name : FileName) : '/' ∉ name.text.toList := by
  have h := name.valid
  unfold isFileName at h
  simp only [Bool.and_eq_true, Bool.not_eq_true', List.contains_eq_mem,
    decide_eq_false_iff_not] at h
  exact h.2

theorem Segment.ofStr_text (name : FileName) : Segment.ofStr name.text = .name (.utf8 name) := by
  unfold Segment.ofStr
  rw [dif_pos name.valid]

inductive FileNode where
  | directory
  | file (content : List UInt8)
  | symlink (target : RawPath)
  -- a device or a named pipe
  | special
  -- a socket, or a file that cannot be opened
  | unreadable
  deriving DecidableEq

/-- What is at each canonical path. -/
abbrev FileSystem := HostPath → Option FileNode

def maximumSymbolicLinks : Nat := 40

/-- Walk along the pieces of a path; `follow` goes on behind a symbolic link. -/
def descend (fs : FileSystem) (follow : HostPath → List Segment → Option HostPath) :
    HostPath → List Segment → Option HostPath
  | current, [] => some current
  | current, segment :: rest =>
    if fs current ≠ some .directory then none
    else
      match segment with
      | .stay => descend fs follow current rest
      | .parent => descend fs follow current.dropLast rest
      | .name name =>
        match fs (current ++ [name]) with
        | none => none
        | some (.symlink target) =>
          follow (if target.absolute then [] else current) (target.segments ++ rest)
        | some _ => descend fs follow (current ++ [name]) rest

/-- Walk with at most the given number of links. -/
def walk (fs : FileSystem) : Nat → HostPath → List Segment → Option HostPath
  | 0 => descend fs fun _ _ => none
  | links + 1 => descend fs (walk fs links)

/-- `fs::canonicalize` of an absolute path. -/
def canonicalize (fs : FileSystem) (path : List Segment) : Option HostPath :=
  walk fs maximumSymbolicLinks [] path

def normalizeFrom : HostPath → List Segment → Option HostPath
  | current, [] => some current
  | current, .stay :: rest => normalizeFrom current rest
  | current, .parent :: rest =>
    if current = [] then none else normalizeFrom current.dropLast rest
  | current, .name name :: rest => normalizeFrom (current ++ [name]) rest

/-- The normal form of an absolute path by its spelling. -/
def lexicalNormalize (path : List Segment) : Option HostPath :=
  normalizeFrom [] path

def lexicallyWithin (root : HostPath) (candidate : List Segment) : Bool :=
  (lexicalNormalize candidate).any fun normalized => root.isPrefixOf normalized

def canonicalRelativePath (root canonicalPath : HostPath) : Option String :=
  if root.isPrefixOf canonicalPath then
    match (canonicalPath.drop root.length).mapM OsName.toStr with
    | none | some [] => none
    | some parts => some ("/".intercalate parts)
  else none

theorem normalizeFrom_names (current names : HostPath) :
    normalizeFrom current (names.map .name) = some (current ++ names) := by
  induction names generalizing current with
  | nil => simp [normalizeFrom]
  | cons name names ih =>
    rw [List.map_cons, normalizeFrom, ih]
    simp

theorem mapM_toStr_eq_some_iff {path : HostPath} {parts : List String} :
    path.mapM OsName.toStr = some parts ↔
      ∃ names : List FileName, path = names.map .utf8 ∧ parts = names.map FileName.text := by
  induction path generalizing parts with
  | nil =>
    constructor
    · intro h
      cases h
      exact ⟨[], rfl, rfl⟩
    · rintro ⟨names, hnames, rfl⟩
      cases List.map_eq_nil_iff.mp hnames.symm
      rfl
  | cons name path ih =>
    rw [List.mapM_cons]
    simp only [bind, pure, Option.bind_eq_some_iff, Option.some.injEq]
    constructor
    · rintro ⟨text, htext, rest, hrest, rfl⟩
      cases name with
      | raw => cases htext
      | utf8 name =>
        cases htext
        obtain ⟨names, rfl, rfl⟩ := ih.mp hrest
        exact ⟨name :: names, rfl, rfl⟩
    · rintro ⟨names, hnames, rfl⟩
      obtain ⟨first, names, rfl, rfl, rfl⟩ := List.map_eq_cons_iff.mp hnames.symm
      exact ⟨first.text, rfl, names.map FileName.text, ih.mpr ⟨names, rfl, rfl⟩, rfl⟩

theorem canonicalRelativePath_eq_some_iff {root path : HostPath} :
    canonicalRelativePath root path = some text ↔
      ∃ names : List FileName, names ≠ [] ∧ path = root ++ names.map .utf8 ∧
        text = "/".intercalate (names.map FileName.text) := by
  unfold canonicalRelativePath
  constructor
  · intro h
    split_ifs at h with hleading
    obtain ⟨rest, rfl⟩ := List.isPrefixOf_iff_prefix.mp hleading
    rw [List.drop_left] at h
    split at h
    · cases h
    · cases h
    · rename_i parts hempty hparts
      obtain ⟨names, rfl, rfl⟩ := mapM_toStr_eq_some_iff.mp hparts
      refine ⟨names, ?_, rfl, (Option.some.inj h).symm⟩
      rintro rfl
      exact hempty rfl
  · rintro ⟨names, hne, rfl, rfl⟩
    rw [if_pos (List.isPrefixOf_iff_prefix.mpr (List.prefix_append _ _)), List.drop_left,
      mapM_toStr_eq_some_iff.mpr ⟨names, rfl, rfl⟩]
    cases names with
    | nil => exact absurd rfl hne
    | cons name names => rfl

theorem splitOn_intercalate_text {names : List FileName} (hne : names ≠ []) :
    ("/".intercalate (names.map FileName.text)).toList.splitOn '/' =
      names.map fun name => name.text.toList := by
  rw [String.toList_intercalate, List.map_map]
  refine List.splitOn_intercalate '/' ?_ (by simpa using hne)
  intro part hpart
  obtain ⟨name, _, rfl⟩ := List.mem_map.mp hpart
  exact name.separator_notMem

/-- Reading the text of a path gives its names again. -/
theorem RawPath.ofStr_intercalate {names : List FileName} (hne : names ≠ []) :
    RawPath.ofStr ("/".intercalate (names.map FileName.text)) =
      ⟨false, names.map fun name => .name (.utf8 name)⟩ := by
  unfold RawPath.ofStr
  rw [splitOn_intercalate_text hne, List.map_map]
  congr 1
  · -- the first name is not empty and does not begin with a separator
    obtain ⟨first, rest, rfl⟩ := List.exists_cons_of_ne_nil hne
    rw [decide_eq_false_iff_not, String.toList_intercalate, List.map_map]
    obtain ⟨c, chars, hchars⟩ := List.exists_cons_of_ne_nil first.ne_nil
    have hsep := first.separator_notMem
    rw [hchars, List.mem_cons, not_or] at hsep
    cases rest with
    | nil => simpa [hchars] using fun h => hsep.1 h.symm
    | cons second rest => simpa [List.intercalate, hchars] using fun h => hsep.1 h.symm
  · refine List.map_congr_left ?_
    intro name _
    simp [Segment.ofStr_text]

/-- The text of a path below the root determines the path. -/
theorem canonicalRelativePath_inj {root left right : HostPath}
    (hleft : canonicalRelativePath root left = some text)
    (hright : canonicalRelativePath root right = some text) : left = right := by
  obtain ⟨names, hne, rfl, rfl⟩ := canonicalRelativePath_eq_some_iff.mp hleft
  obtain ⟨names', hne', rfl, htext⟩ := canonicalRelativePath_eq_some_iff.mp hright
  have hread := (RawPath.ofStr_intercalate hne).symm.trans
    ((congrArg RawPath.ofStr htext).trans (RawPath.ofStr_intercalate hne'))
  have hnames : names = names' := by
    have hsegments := congrArg RawPath.segments hread
    refine List.map_injective_iff.mpr ?_ hsegments
    intro first second h
    cases h
    rfl
  rw [hnames]

end ScherzoCloud.Workflow
