import ScherzoCloud.Workflow.StaticReferences
import ScherzoCloud.Workflow.DefinitionFacts

/-!
# Retained source closures

A run keeps the source closure of its workflow, and a retry, a continuation or a
viewer resolves the workflow from it again.  The live resolution names a source by its
canonical path, where links have been followed; the retained one looks it up by the
lexical normal form of its spelling.
-/

namespace ScherzoCloud.Workflow

open RawPath (ofStr)
open SourceResolver (load loadRetained openSourceFile pathFromRoot)
open Collections

variable {Schema : Type} {formats : SourceFormats Schema} {sources : SourceResolver}
  {s s' : Resolution Schema} {loaded source : LoadedSource} {fs : FileSystem}
  {root host directory : HostPath} {path : String} {content : List UInt8}
  {reference : StaticReference} {closure : BTreeMap String (List UInt8)}
  {resolved : ResolvedWorkflow Schema} {selected : RawPath} {definition : ValidatedWorkflow}

section Loading

variable {candidate : List Segment} {location : ResolutionLocation}

/-- A source of a file system below the root. -/
structure LiveSource (fs : FileSystem) (root : HostPath) (candidate : List Segment)
    (loaded : LoadedSource) : Prop where
  within : lexicallyWithin root candidate = true
  canonical : canonicalize fs candidate = some loaded.canonicalHostPath
  file : fs loaded.canonicalHostPath = some (.file loaded.bytes)
  path : canonicalRelativePath root loaded.canonicalHostPath = some loaded.canonicalPath

/-- A source of a closure. -/
structure RetainedSource (closure : BTreeMap String (List UInt8)) (root : HostPath)
    (candidate : List Segment) (loaded : LoadedSource) : Prop where
  within : lexicallyWithin root candidate = true
  normal : lexicalNormalize candidate = some loaded.canonicalHostPath
  path : canonicalRelativePath root loaded.canonicalHostPath = some loaded.canonicalPath
  bytes : closure.get? loaded.canonicalPath = some loaded.bytes

/-- The closure holds files below the root, and its size is bounded. -/
structure ClosureOf (fs : FileSystem) (root : HostPath) (s : Resolution Schema) : Prop where
  files : ∀ path content, s.closure.get? path = some content →
    ∃ host, canonicalRelativePath root host = some path ∧ fs host = some (.file content)
  size : s.retainedBytes = closureBytes s.closure
  bounded : s.retainedBytes ≤ maximumSourceClosureBytes

theorem ClosureOf.insert (h : ClosureOf fs root s)
    (hpath : canonicalRelativePath root host = some path) (hfile : fs host = some (.file content))
    (hfresh : s.closure.get? path = none)
    (hbound : ¬ maximumSourceClosureBytes < s.retainedBytes + content.length) :
    ClosureOf fs root { s with
      closure := s.closure.insert path content
      retainedBytes := s.retainedBytes + content.length } := by
  refine ⟨?_, ?_, Nat.not_lt.mp hbound⟩
  · intro path' content' hget
    rw [BTreeMap.get?_insert] at hget
    split_ifs at hget with heq
    · cases hget
      exact ⟨host, heq ▸ hpath, hfile⟩
    · exact h.files path' content' hget
  · dsimp only
    rw [h.size, closureBytes, closureBytes, BTreeMap.sum_values_insert hfresh]

theorem openSourceFile_ok (h : openSourceFile fs host location = .ok content) :
    fs host = some (.file content) := by
  unfold openSourceFile at h
  split at h
  · rename_i hfile
    cases h
    exact hfile
  all_goals cases h

/-- A live load finds a file, in the closure or for the first time. -/
theorem load_live_cases (horigin : sources.origin = .live fs)
    (h : sources.load candidate location s = .ok (loaded, s')) :
    lexicallyWithin sources.canonicalRoot candidate = true ∧
      canonicalize fs candidate = some loaded.canonicalHostPath ∧
      canonicalRelativePath sources.canonicalRoot loaded.canonicalHostPath =
        some loaded.canonicalPath ∧
      (s.closure.get? loaded.canonicalPath = some loaded.bytes ∧ s' = s ∨
        s.closure.get? loaded.canonicalPath = none ∧
          fs loaded.canonicalHostPath = some (.file loaded.bytes) ∧
          ¬ maximumSourceClosureBytes < s.retainedBytes + loaded.bytes.length ∧
          s' = { s with
            closure := s.closure.insert loaded.canonicalPath loaded.bytes
            retainedBytes := s.retainedBytes + loaded.bytes.length }) := by
  unfold load at h
  rw [horigin] at h
  split_ifs at h with hwithin
  swap
  · cases h
  dsimp only [SourceResolver.loadLive] at h
  split at h
  · cases h
  rename_i host hcanonical
  split_ifs at h
  obtain ⟨content, hopen, h⟩ := bind_eq_ok_iff.mp h
  split at h
  · cases h
  rename_i path hpath
  split at h
  · rename_i bytes hget
    cases h
    exact ⟨hwithin, hcanonical, hpath, Or.inl ⟨hget, rfl⟩⟩
  · rename_i hfresh
    split_ifs at h with hbound
    cases h
    exact ⟨hwithin, hcanonical, hpath, Or.inr ⟨hfresh, openSourceFile_ok hopen, hbound, rfl⟩⟩

theorem load_live_spec (horigin : sources.origin = .live fs)
    (hkept : ClosureOf fs sources.canonicalRoot s)
    (h : sources.load candidate location s = .ok (loaded, s')) :
    LiveSource fs sources.canonicalRoot candidate loaded ∧
      ClosureOf fs sources.canonicalRoot s' ∧
      s'.closure.get? loaded.canonicalPath = some loaded.bytes ∧
      ∀ path content, s.closure.get? path = some content → s'.closure.get? path = some content := by
  obtain ⟨hwithin, hcanonical, hpath, hcases⟩ := load_live_cases horigin h
  rcases hcases with ⟨hget, rfl⟩ | ⟨hfresh, hfile, hbound, rfl⟩
  · obtain ⟨host, hpath', hfile⟩ := hkept.files _ _ hget
    rw [← canonicalRelativePath_inj hpath hpath'] at hfile
    exact ⟨⟨hwithin, hcanonical, hfile, hpath⟩, hkept, hget, fun _ _ hget => hget⟩
  · refine ⟨⟨hwithin, hcanonical, hfile, hpath⟩, hkept.insert hpath hfile hfresh hbound, ?_, ?_⟩
    · simp [BTreeMap.get?_insert]
    · intro path content hget
      dsimp only
      rw [BTreeMap.get?_insert, if_neg]
      · exact hget
      · rintro rfl
        rw [hfresh] at hget
        cases hget

theorem load_retained_iff (horigin : sources.origin = .retained) :
    sources.load candidate location s = .ok (loaded, s') ↔
      s' = s ∧ RetainedSource s.closure sources.canonicalRoot candidate loaded := by
  unfold load
  rw [horigin]
  constructor
  · intro h
    split_ifs at h with hwithin
    swap
    · cases h
    dsimp only [loadRetained] at h
    split at h
    · cases h
    rename_i host hnormal
    split at h
    · cases h
    rename_i path hpath
    split at h
    · cases h
    rename_i bytes hget
    cases h
    exact ⟨rfl, hwithin, hnormal, hpath, hget⟩
  · rintro ⟨rfl, h⟩
    rw [if_neg (not_not.mpr h.within)]
    simp only [loadRetained, h.normal, h.path, h.bytes]

end Loading

namespace StaticReference

/-- The path at which a reference of a workflow file in `directory` is looked for. -/
def candidate (directory : HostPath) (reference : StaticReference) : List Segment :=
  directory.join (ofStr reference.path)

def location (reference : StaticReference) : ResolutionLocation :=
  match reference.use with
  | .text location | .binary location => location
  | .inputSchema input => .inputSchema input
  | .resultSchema nodeName role outputName => resultSchemaLocation nodeName outputName role

/-- The content can be used as the reference wants to. -/
def accepts (formats : SourceFormats Schema) (reference : StaticReference)
    (content : List UInt8) : Bool :=
  match reference.use with
  | .text _ => formats.isUtf8 content
  | .binary _ => true
  | .inputSchema _ | .resultSchema .. =>
    formats.isUtf8 content && (formats.compileSchema content).isOk

end StaticReference

theorem loadUtf8StaticSource_ok_iff {location : ResolutionLocation}
    {failure : ResolutionFailureKind} :
    loadUtf8StaticSource formats sources directory path location failure s = .ok (loaded, s') ↔
      loadStaticSource sources directory path location s = .ok (loaded, s') ∧
        formats.isUtf8 loaded.bytes = true := by
  unfold loadUtf8StaticSource
  rw [stateT_bind_eq_ok_iff]
  constructor
  · rintro ⟨loaded', t, hload, h⟩
    split_ifs at h with hutf8
    · cases h
      exact ⟨hload, hutf8⟩
    · cases h
  · rintro ⟨hload, hutf8⟩
    exact ⟨loaded, s', hload, by rw [if_pos hutf8]; rfl⟩

theorem resolveJsonSchema_ok_iff {location : ResolutionLocation} {canonical : String}
    {schema : Schema} :
    resolveJsonSchema formats sources directory path location s = .ok ((canonical, schema), s') ↔
      ∃ loaded, loadStaticSource sources directory path location s = .ok (loaded, s') ∧
        canonical = loaded.canonicalPath ∧ formats.isUtf8 loaded.bytes = true ∧
        formats.compileSchema loaded.bytes = .ok schema := by
  unfold resolveJsonSchema
  rw [stateT_bind_eq_ok_iff]
  simp only [loadUtf8StaticSource_ok_iff]
  constructor
  · rintro ⟨loaded, t, ⟨hload, hutf8⟩, h⟩
    cases hcompile : formats.compileSchema loaded.bytes with
    | error =>
      rw [hcompile] at h
      cases h
    | ok =>
      rw [hcompile] at h
      cases h
      exact ⟨loaded, hload, rfl, hutf8, hcompile⟩
  · rintro ⟨loaded, hload, rfl, hutf8, hcompile⟩
    refine ⟨loaded, s', ⟨hload, hutf8⟩, ?_⟩
    rw [hcompile]
    rfl

/-- A reference is resolved by loading its source and accepting its content. -/
theorem resolveReference_ok (h : resolveReference formats sources directory reference s =
      .ok (path, s')) :
    ∃ loaded t, sources.load (reference.candidate directory) reference.location s =
        .ok (loaded, t) ∧ reference.accepts formats loaded.bytes = true ∧
      path = loaded.canonicalPath ∧ s'.closure = t.closure ∧
      s'.retainedBytes = t.retainedBytes := by
  obtain ⟨use, source⟩ := reference
  cases use with
  | text =>
    obtain ⟨loaded, t, hload, h⟩ := stateT_bind_eq_ok_iff.mp h
    obtain ⟨hload, hutf8⟩ := loadUtf8StaticSource_ok_iff.mp hload
    cases h
    exact ⟨loaded, s', hload, hutf8, rfl, rfl, rfl⟩
  | binary =>
    obtain ⟨loaded, t, hload, h⟩ := stateT_bind_eq_ok_iff.mp h
    cases h
    exact ⟨loaded, s', hload, rfl, rfl, rfl, rfl⟩
  | inputSchema | resultSchema =>
    obtain ⟨⟨canonical, schema⟩, t, hschema, h⟩ := stateT_bind_eq_ok_iff.mp h
    obtain ⟨loaded, hload, rfl, hutf8, hcompile⟩ := resolveJsonSchema_ok_iff.mp hschema
    cases h
    refine ⟨loaded, t, hload, ?_, rfl, rfl, rfl⟩
    simp [StaticReference.accepts, hutf8, hcompile, Except.isOk, Except.toBool]

theorem resolveReference_of_accepts {t : Resolution Schema}
    (hload : sources.load (reference.candidate directory) reference.location s = .ok (loaded, t))
    (haccepts : reference.accepts formats loaded.bytes = true) :
    ∃ s', resolveReference formats sources directory reference s =
      .ok (loaded.canonicalPath, s') := by
  obtain ⟨use, source⟩ := reference
  have hschema {location : ResolutionLocation}
      (hload : loadStaticSource sources directory source location s = .ok (loaded, t))
      (haccepts : formats.isUtf8 loaded.bytes && (formats.compileSchema loaded.bytes).isOk) :
      ∃ schema, resolveJsonSchema formats sources directory source location s =
        .ok ((loaded.canonicalPath, schema), t) := by
    rw [Bool.and_eq_true] at haccepts
    cases hcompile : formats.compileSchema loaded.bytes with
    | error => simp [hcompile, Except.isOk, Except.toBool] at haccepts
    | ok schema =>
      exact ⟨schema, resolveJsonSchema_ok_iff.mpr ⟨loaded, hload, rfl, haccepts.1, hcompile⟩⟩
  cases use with
  | text =>
    exact ⟨t, stateT_bind_eq_ok_iff.mpr
      ⟨loaded, t, loadUtf8StaticSource_ok_iff.mpr ⟨hload, haccepts⟩, rfl⟩⟩
  | binary => exact ⟨t, stateT_bind_eq_ok_iff.mpr ⟨loaded, t, hload, rfl⟩⟩
  | inputSchema | resultSchema =>
    obtain ⟨schema, hresolve⟩ := hschema hload haccepts
    exact ⟨_, stateT_bind_eq_ok_iff.mpr ⟨_, t, hresolve, rfl⟩⟩

/-- The text of a path that may not have one. -/
def pathText (root : HostPath) (path : Option HostPath) : String :=
  (path.bind (canonicalRelativePath root)).getD ""

def livePath (fs : FileSystem) (root directory : HostPath) (path : String) : String :=
  pathText root (canonicalize fs (directory.join (ofStr path)))

def retainedPath (root directory : HostPath) (path : String) : String :=
  pathText root (lexicalNormalize (directory.join (ofStr path)))

theorem pathText_eq {text : String} {path : Option HostPath} (hhost : path = some host)
    (htext : canonicalRelativePath root host = some text) : pathText root path = text := by
  simp [pathText, hhost, htext]

theorem replacesBy_live (horigin : sources.origin = .live fs) :
    ReplacesBy formats sources directory (livePath fs sources.canonicalRoot directory) := by
  intro reference s path s' h
  obtain ⟨loaded, t, hload, _, rfl, _⟩ := resolveReference_ok h
  obtain ⟨_, hcanonical, hpath, _⟩ := load_live_cases horigin hload
  exact (pathText_eq hcanonical hpath).symm

theorem replacesBy_retained (horigin : sources.origin = .retained) :
    ReplacesBy formats sources directory (retainedPath sources.canonicalRoot directory) := by
  intro reference s path s' h
  obtain ⟨loaded, t, hload, _, rfl, _⟩ := resolveReference_ok h
  obtain ⟨_, hsource⟩ := (load_retained_iff horigin).mp hload
  exact (pathText_eq hsource.normal hsource.path).symm

/-- A reference of a live resolution whose source is in the closure. -/
def LiveReference (formats : SourceFormats Schema) (fs : FileSystem) (root directory : HostPath)
    (reference : StaticReference) (s : Resolution Schema) : Prop :=
  ∃ loaded, LiveSource fs root (reference.candidate directory) loaded ∧
    reference.accepts formats loaded.bytes = true ∧
    s.closure.get? loaded.canonicalPath = some loaded.bytes

/-- A reference that a retained resolution finds. -/
def RetainedReference (formats : SourceFormats Schema) (closure : BTreeMap String (List UInt8))
    (root directory : HostPath) (reference : StaticReference) : Prop :=
  ∃ loaded, RetainedSource closure root (reference.candidate directory) loaded ∧
    reference.accepts formats loaded.bytes = true

theorem takeReference_live (horigin : sources.origin = .live fs) (reference : StaticReference)
    (hkept : ClosureOf fs sources.canonicalRoot s)
    (h : takeReference formats sources directory s reference = .ok s') :
    ClosureOf fs sources.canonicalRoot s' ∧
      LiveReference formats fs sources.canonicalRoot directory reference s' ∧
      ∀ path content, s.closure.get? path = some content → s'.closure.get? path = some content := by
  unfold takeReference at h
  cases hresolve : resolveReference formats sources directory reference s with
  | error =>
    rw [hresolve] at h
    cases h
  | ok =>
    rw [hresolve] at h
    cases h
    obtain ⟨loaded, t, hload, haccepts, _, hclosure, hbytes⟩ := resolveReference_ok hresolve
    obtain ⟨hsource, hkept, hget, hkeeps⟩ := load_live_spec horigin hkept hload
    rw [← hclosure] at hget hkeeps
    refine ⟨⟨?_, ?_, ?_⟩, ⟨loaded, hsource, haccepts, hget⟩, hkeeps⟩
    · rw [hclosure]
      exact hkept.files
    · rw [hclosure, hbytes]
      exact hkept.size
    · rw [hbytes]
      exact hkept.bounded

theorem takeReference_retained (horigin : sources.origin = .retained) (reference : StaticReference)
    (hs : s.closure = closure) :
    ((∃ s', takeReference formats sources directory s reference = .ok s') ↔
        RetainedReference formats closure sources.canonicalRoot directory reference) ∧
      ∀ s', takeReference formats sources directory s reference = .ok s' →
        s'.closure = closure := by
  subst hs
  unfold takeReference
  constructor
  · constructor
    · rintro ⟨s', h⟩
      cases hresolve : resolveReference formats sources directory reference s with
      | error =>
        rw [hresolve] at h
        cases h
      | ok =>
        obtain ⟨loaded, t, hload, haccepts, _⟩ := resolveReference_ok hresolve
        obtain ⟨_, hsource⟩ := (load_retained_iff horigin).mp hload
        exact ⟨loaded, hsource, haccepts⟩
    · rintro ⟨loaded, hsource, haccepts⟩
      obtain ⟨s', hresolve⟩ := resolveReference_of_accepts
        ((load_retained_iff horigin).mpr ⟨rfl, hsource⟩) haccepts
      exact ⟨s', by rw [hresolve]; rfl⟩
  · intro s' h
    cases hresolve : resolveReference formats sources directory reference s with
    | error =>
      rw [hresolve] at h
      cases h
    | ok =>
      rw [hresolve] at h
      cases h
      obtain ⟨loaded, t, hload, _, _, hclosure, _⟩ := resolveReference_ok hresolve
      obtain ⟨rfl, _⟩ := (load_retained_iff horigin).mp hload
      exact hclosure

theorem resolveWithSources_ok_iff {initial : Resolution Schema} :
    resolveWithSources formats sources initial selected = .ok resolved ↔
      ∃ loaded s definition resolvedDefinition t,
        sources.load (sources.pathFromRoot selected) .workflow initial = .ok (loaded, s) ∧
        loadDefinition formats loaded.bytes = .ok definition ∧
        loaded.canonicalHostPath ≠ [] ∧
        resolveStaticSources formats sources loaded.canonicalHostPath.dropLast definition s =
          .ok (resolvedDefinition, t) ∧
        finishResolution formats sources loaded.canonicalPath resolvedDefinition t =
          .ok resolved := by
  unfold resolveWithSources
  rw [bind_eq_ok_iff]
  simp only [mapError_eq_ok_iff]
  constructor
  · rintro ⟨⟨loaded, s⟩, hload, h⟩
    obtain ⟨definition, hdefinition, h⟩ := bind_eq_ok_iff.mp h
    split_ifs at h with hparent
    obtain ⟨⟨resolvedDefinition, t⟩, hstatic, h⟩ := bind_eq_ok_iff.mp h
    exact ⟨loaded, s, definition, resolvedDefinition, t, hload, hdefinition, hparent, hstatic, h⟩
  · rintro ⟨loaded, s, definition, resolvedDefinition, t, hload, hdefinition, hparent, hstatic, h⟩
    refine ⟨(loaded, s), hload, bind_eq_ok_iff.mpr ⟨definition, hdefinition, ?_⟩⟩
    rw [if_neg hparent]
    exact bind_eq_ok_iff.mpr ⟨(resolvedDefinition, t), hstatic, h⟩

variable {workflowPath : String}

theorem finishResolution_ok
    (h : finishResolution formats sources workflowPath definition s = .ok resolved) :
    resolved.definition = definition ∧ resolved.sourceClosure = s.closure ∧
      resolved.source = ⟨sources.canonicalRoot, workflowPath⟩ := by
  obtain ⟨digest, _, h⟩ := bind_eq_ok_iff.mp h
  split_ifs at h
  obtain ⟨capacity, _, h⟩ := bind_eq_ok_iff.mp h
  cases h
  exact ⟨rfl, rfl, rfl⟩

/-- The digest and the capacity depend on the closure and the definition only. -/
theorem finishResolution_again {sources' : SourceResolver} {workflowPath' : String}
    (hclosure : s'.closure = s.closure)
    (h : finishResolution formats sources workflowPath definition s = .ok resolved) :
    ∃ again, finishResolution formats sources' workflowPath' definition s' = .ok again ∧
      again.definition = resolved.definition ∧
      again.contentDigest = resolved.contentDigest ∧ again.capacity = resolved.capacity := by
  obtain ⟨digest, hdigest, h⟩ := bind_eq_ok_iff.mp h
  split_ifs at h with hsize
  obtain ⟨capacity, hcapacity, h⟩ := bind_eq_ok_iff.mp h
  cases h
  rw [← hclosure] at hdigest hsize hcapacity
  refine ⟨⟨definition, s'.closure, s'.outputSchemas, s'.inputSchemas,
    ⟨sources'.canonicalRoot, workflowPath'⟩, digest, capacity⟩, ?_, rfl, rfl, rfl⟩
  refine bind_eq_ok_iff.mpr ⟨digest, hdigest, ?_⟩
  rw [if_neg hsize]
  exact bind_eq_ok_iff.mpr ⟨capacity, hcapacity, rfl⟩

/-- The root has a text, and no reference of the workflow goes through a link. -/
def LexicallyCanonical (formats : SourceFormats Schema) (fs : FileSystem)
    (sourceRoot : List Segment) (selectedWorkflow : RawPath) : Prop :=
  ∀ sources host content definition, SourceResolver.new fs sourceRoot = .ok sources →
    canonicalize fs (sources.pathFromRoot selectedWorkflow) = some host →
    fs host = some (.file content) → loadDefinition formats content = .ok definition →
      (sources.canonicalRoot.mapM OsName.toStr).isSome = true ∧
        ∀ reference ∈ definition.staticReferences,
          lexicalNormalize (reference.candidate host.dropLast) =
            canonicalize fs (reference.candidate host.dropLast)

/-- What a successful live resolution has found. -/
structure LiveResolution (formats : SourceFormats Schema) (fs : FileSystem) (root : HostPath)
    (loaded : LoadedSource) (definition : ValidatedWorkflow)
    (resolved : ResolvedWorkflow Schema) : Prop where
  definition_eq : loadDefinition formats loaded.bytes = .ok definition
  parent : loaded.canonicalHostPath ≠ []
  path : canonicalRelativePath root loaded.canonicalHostPath = some loaded.canonicalPath
  kept : resolved.sourceClosure.get? loaded.canonicalPath = some loaded.bytes
  bounded : closureBytes resolved.sourceClosure ≤ maximumSourceClosureBytes
  references : ∀ reference ∈ definition.staticReferences, ∃ source,
    LiveSource fs root (reference.candidate loaded.canonicalHostPath.dropLast) source ∧
      reference.accepts formats source.bytes = true ∧
      resolved.sourceClosure.get? source.canonicalPath = some source.bytes
  resolved_eq : resolved.definition = definition.mapSources
    (livePath fs root loaded.canonicalHostPath.dropLast)
  finished : ∃ sources s, s.closure = resolved.sourceClosure ∧
    finishResolution formats sources loaded.canonicalPath resolved.definition s = .ok resolved
  source_eq : resolved.source = ⟨root, loaded.canonicalPath⟩

theorem resolve_ok {sourceRoot : List Segment}
    (h : resolve formats fs sourceRoot selected = .ok resolved) :
    ∃ sources loaded definition, SourceResolver.new fs sourceRoot = .ok sources ∧
      canonicalize fs (sources.pathFromRoot selected) = some loaded.canonicalHostPath ∧
      fs loaded.canonicalHostPath = some (.file loaded.bytes) ∧
      LiveResolution formats fs sources.canonicalRoot loaded definition resolved := by
  obtain ⟨sources, hnew, h⟩ := bind_eq_ok_iff.mp h
  have horigin : sources.origin = .live fs := by
    unfold SourceResolver.new at hnew
    split at hnew
    · cases hnew
    · split_ifs at hnew
      cases hnew
      rfl
  obtain ⟨loaded, s, definition, resolvedDefinition, t, hload, hdefinition, hparent, hstatic,
    hfinish⟩ := resolveWithSources_ok_iff.mp h
  obtain ⟨hsource, hkept, hget, _⟩ :=
    load_live_spec horigin ⟨by rintro _ _ ⟨⟩, rfl, Nat.zero_le _⟩ hload
  rw [resolveStaticSources_gathers (replacesBy_live horigin) definition s] at hstatic
  cases hloop : definition.staticReferences.foldlM
      (takeReference formats sources loaded.canonicalHostPath.dropLast) s with
  | error =>
    rw [hloop] at hstatic
    cases hstatic
  | ok =>
    rw [hloop] at hstatic
    cases hstatic
    obtain ⟨hdef, hclosure, hprovenance⟩ := finishResolution_ok hfinish
    -- the closure keeps the workflow file and the sources of the references so far
    obtain ⟨⟨hkept, hget⟩, hreferences, _⟩ := foldlM_invariant
      (I := fun s => ClosureOf fs sources.canonicalRoot s ∧
        s.closure.get? loaded.canonicalPath = some loaded.bytes)
      (P := LiveReference formats fs sources.canonicalRoot loaded.canonicalHostPath.dropLast)
      (fun _ reference _ hs hstep => by
        obtain ⟨hkept, hreference, hkeeps⟩ := takeReference_live horigin reference hs.1 hstep
        exact ⟨⟨hkept, hkeeps _ _ hs.2⟩, hreference,
          fun _ ⟨loaded, hsource, haccepts, hget⟩ => ⟨loaded, hsource, haccepts, hkeeps _ _ hget⟩⟩)
      ⟨hkept, hget⟩ hloop
    refine ⟨sources, loaded, definition, hnew, hsource.canonical, hsource.file, hdefinition,
      hparent, hsource.path, ?_, ?_, ?_, hdef, ⟨sources, t, hclosure.symm, ?_⟩, hprovenance⟩
    · rw [hclosure]
      exact hget
    · rw [hclosure, ← hkept.size]
      exact hkept.bounded
    · rw [hclosure]
      exact hreferences
    · rw [hdef]
      exact hfinish

/-- The resolver of a closure, and where it starts. -/
def retainedSources (root : HostPath) : SourceResolver := ⟨root, root.map .name, .retained⟩

def retainedStart (closure : BTreeMap String (List UInt8)) : Resolution Schema :=
  ⟨closure, closureBytes closure, .empty, .empty⟩

theorem lexicalNormalize_names (path : HostPath) :
    lexicalNormalize (path.map .name) = some path :=
  normalizeFrom_names [] path

theorem fromRetained_ok_iff (hbounded : closureBytes closure ≤ maximumSourceClosureBytes)
    {result : SourceResolver × Resolution Schema} : fromRetained root closure = .ok result ↔
      (root.mapM OsName.toStr).isSome = true ∧
        result = (retainedSources root, retainedStart closure) := by
  unfold fromRetained
  rw [if_neg (Nat.not_lt.mpr hbounded)]
  constructor
  · intro h
    split_ifs at h with hroot
    cases h
    obtain ⟨htext, _⟩ := not_or.mp hroot
    exact ⟨by simpa [Option.isSome_iff_ne_none] using htext, rfl⟩
  · rintro ⟨htext, rfl⟩
    rw [if_neg]
    · rfl
    · rw [not_or, not_not, lexicalNormalize_names]
      exact ⟨by simpa [Option.isSome_iff_ne_none] using htext, rfl⟩

/-- The workflow file is found again under the path that was kept. -/
theorem LiveResolution.workflow_retained
    (h : LiveResolution formats fs root loaded definition resolved) :
    (retainedSources root).load ((retainedSources root).pathFromRoot
        (ofStr loaded.canonicalPath)) .workflow
        (retainedStart resolved.sourceClosure : Resolution Schema) =
      .ok (loaded, retainedStart resolved.sourceClosure) := by
  obtain ⟨names, hne, hhost, htext⟩ := canonicalRelativePath_eq_some_iff.mp h.path
  have hcandidate : (retainedSources root).pathFromRoot (ofStr loaded.canonicalPath) =
      loaded.canonicalHostPath.map .name := by
    rw [htext, RawPath.ofStr_intercalate hne, hhost]
    simp [pathFromRoot, retainedSources, HostPath.join, Function.comp_def]
  rw [hcandidate]
  refine (load_retained_iff rfl).mpr ⟨rfl, ?_, lexicalNormalize_names _, h.path, h.kept⟩
  unfold lexicallyWithin
  rw [lexicalNormalize_names, Option.any_some, hhost]
  exact List.isPrefixOf_iff_prefix.mpr (List.prefix_append _ _)

theorem resolveStaticSources_retained (s : Resolution Schema) :
    resolveStaticSources formats (retainedSources root) directory definition s =
      (definition.staticReferences.foldlM
        (takeReference formats (retainedSources root) directory) s).map
          fun t => (definition.mapSources (retainedPath root directory), t) :=
  resolveStaticSources_gathers (replacesBy_retained rfl) definition s

/-- A reference that is found again under the path of its source has no links on its
way. -/
theorem RetainedReference.lexical (h : RetainedReference formats closure root directory reference)
    (hsource : LiveSource fs root (reference.candidate directory) source)
    (hpath : retainedPath root directory reference.path = livePath fs root directory
      reference.path) : lexicalNormalize (reference.candidate directory) =
      canonicalize fs (reference.candidate directory) := by
  obtain ⟨found, hfound, _⟩ := h
  have htext : found.canonicalPath = source.canonicalPath :=
    calc found.canonicalPath = retainedPath root directory reference.path :=
          (pathText_eq hfound.normal hfound.path).symm
      _ = livePath fs root directory reference.path := hpath
      _ = source.canonicalPath := pathText_eq hsource.canonical hsource.path
  have hhost := canonicalRelativePath_inj (htext ▸ hfound.path) hsource.path
  rw [hfound.normal, hsource.canonical, hhost]

/-- The retained closure is resolved like the sources it was taken from, when and only
when no reference goes through a symbolic link. -/
theorem LiveResolution.agrees_iff (h : LiveResolution formats fs root loaded definition resolved) :
    (∃ again, resolveRetained formats resolved.source.sourceRoot resolved.source.workflowPath
        resolved.sourceClosure = .ok again ∧
      again.definition = resolved.definition ∧
      again.contentDigest = resolved.contentDigest ∧ again.capacity = resolved.capacity) ↔
    (root.mapM OsName.toStr).isSome = true ∧
      ∀ reference ∈ definition.staticReferences,
        lexicalNormalize (reference.candidate loaded.canonicalHostPath.dropLast) =
          canonicalize fs (reference.candidate loaded.canonicalHostPath.dropLast) := by
  obtain ⟨hloop, hclosure⟩ := foldlM_succeeds_iff
    (I := fun t : Resolution Schema => t.closure = resolved.sourceClosure)
    (A := RetainedReference formats resolved.sourceClosure root loaded.canonicalHostPath.dropLast)
    (fun _ => takeReference_retained (rfl : (retainedSources root).origin = _))
    definition.staticReferences (s := retainedStart resolved.sourceClosure) rfl
  rw [h.source_eq]
  constructor
  · rintro ⟨again, hagain, hdefinition, _⟩
    obtain ⟨⟨sources, initial⟩, hretained, hagain⟩ := bind_eq_ok_iff.mp hagain
    obtain ⟨htext, hinitial⟩ := (fromRetained_ok_iff h.bounded).mp hretained
    cases hinitial
    refine ⟨htext, ?_⟩
    obtain ⟨loaded', s, definition', resolvedDefinition, t, hload, hdef, _, hstatic, hfinish⟩ :=
      resolveWithSources_ok_iff.mp hagain
    rw [h.workflow_retained] at hload
    cases hload
    rw [h.definition_eq] at hdef
    cases hdef
    rw [resolveStaticSources_retained] at hstatic
    obtain ⟨state, hstate, hstatic⟩ := map_eq_ok_iff.mp hstatic
    cases hstatic
    rw [(finishResolution_ok hfinish).1, h.resolved_eq,
      ValidatedWorkflow.mapSources_eq_iff] at hdefinition
    intro reference hmem
    obtain ⟨source, hsource, _⟩ := h.references reference hmem
    exact (hloop.mp ⟨_, hstate⟩ reference hmem).lexical hsource (hdefinition reference hmem)
  · rintro ⟨htext, hlexical⟩
    obtain ⟨state, hstate⟩ := hloop.mpr fun reference hmem => by
      obtain ⟨source, hsource, haccepts, hkept⟩ := h.references reference hmem
      -- a reference without links on its way is found again
      exact ⟨source, ⟨hsource.within, (hlexical reference hmem).trans hsource.canonical,
        hsource.path, hkept⟩, haccepts⟩
    have hsame : definition.mapSources (retainedPath root loaded.canonicalHostPath.dropLast) =
        resolved.definition := by
      rw [h.resolved_eq, ValidatedWorkflow.mapSources_eq_iff]
      intro reference hmem
      exact congrArg (pathText root) (hlexical reference hmem)
    obtain ⟨sources, s, hs, hfinished⟩ := h.finished
    obtain ⟨again, hfinish, hagain⟩ := finishResolution_again
      ((hclosure state hstate).trans hs.symm) hfinished
    refine ⟨again, ?_, hagain⟩
    refine bind_eq_ok_iff.mpr ⟨_, (fromRetained_ok_iff h.bounded).mpr ⟨htext, rfl⟩, ?_⟩
    refine resolveWithSources_ok_iff.mpr ⟨loaded, _, definition, _, state, h.workflow_retained,
      h.definition_eq, h.parent, ?_, hfinish⟩
    rw [resolveStaticSources_retained, hstate, hsame]
    rfl

/-- A resolved workflow is resolved from its retained closure to the same definition,
digest and capacity, when and only when its root has a text and no reference goes
through a symbolic link. -/
theorem resolveRetained_agrees_iff {sourceRoot : List Segment} {selected : RawPath}
    (h : resolve formats fs sourceRoot selected = .ok resolved) :
    (∃ again, resolveRetained formats resolved.source.sourceRoot resolved.source.workflowPath
        resolved.sourceClosure = .ok again ∧
      again.definition = resolved.definition ∧
      again.contentDigest = resolved.contentDigest ∧ again.capacity = resolved.capacity) ↔
    LexicallyCanonical formats fs sourceRoot selected := by
  obtain ⟨sources, loaded, definition, hnew, hcanonical, hfile, hlive⟩ := resolve_ok h
  rw [hlive.agrees_iff]
  constructor
  · intro hcondition sources' host content definition' hnew' hcanonical' hfile' hdefinition'
    rw [hnew] at hnew'
    cases hnew'
    rw [hcanonical] at hcanonical'
    cases hcanonical'
    rw [hfile] at hfile'
    cases hfile'
    rw [hlive.definition_eq] at hdefinition'
    cases hdefinition'
    exact hcondition
  · intro hcondition
    exact hcondition sources _ _ definition hnew hcanonical hfile hlive.definition_eq

/-- The nodes of a file system by the texts of their paths. -/
def treeOf (nodes : List (List String × FileNode)) : FileSystem := fun path =>
  (path.mapM OsName.toStr).bind fun texts => nodes.lookup texts

/-- A workflow with one input, whose schema is named by a path. -/
def schemaDocument : WorkflowDocument :=
  commandDocument [("plan", .json (some "schemas/plan.json"))]
    [("build", ⟨textCommand .required none [] ["log"], [], none⟩)] [] []

def schemaDecoded : DecodedDocument where
  document := schemaDocument
  structural := by decide

def schemaFormats : SourceFormats Unit where
  decode := fun _ => .ok schemaDecoded
  isUtf8 := fun _ => true
  compileSchema := fun _ => .ok ()
  sha256Hex := fun bytes => String.ofList (bytes.map fun byte => Char.ofNat byte.toNat)

/-- A source root with a workflow file and a schema at `schemas/plan.json`. -/
def schemaTree (schema : FileNode) : FileSystem :=
  treeOf [([], .directory), (["src"], .directory), (["src", "workflow.yaml"], .file [1]),
    (["src", "schemas"], .directory), (["src", "schemas", "plan.json"], schema),
    (["src", "schemas", "plan-v1.json"], .file [2, 3])]

def schemaRoot : List Segment := (ofStr "/src").segments

def schemaWorkflow : RawPath := ofStr "workflow.yaml"

theorem schemaFile_canonical :
    LexicallyCanonical schemaFormats (schemaTree (.file [2, 3])) schemaRoot schemaWorkflow := by
  intro sources host content definition hnew hcanonical _ hdefinition
  cases hdefinition.symm.trans (rfl : _ = Except.ok (acceptedWorkflow schemaDocument))
  cases hnew
  have hhost : canonicalize (schemaTree (.file [2, 3])) (pathFromRoot
      ⟨[.utf8 ⟨"src", by decide⟩], schemaRoot, .live (schemaTree (.file [2, 3]))⟩
      schemaWorkflow) = some [.utf8 ⟨"src", by decide⟩, .utf8 ⟨"workflow.yaml", by decide⟩] := by
    decide +kernel
  cases hhost.symm.trans hcanonical
  exact ⟨by decide, by decide +kernel⟩

theorem schemaFile_agrees : ∃ resolved again,
    resolve schemaFormats (schemaTree (.file [2, 3])) schemaRoot schemaWorkflow = .ok resolved ∧
      resolveRetained schemaFormats resolved.source.sourceRoot resolved.source.workflowPath
        resolved.sourceClosure = .ok again ∧ again.definition = resolved.definition := by
  have hok : (resolve schemaFormats (schemaTree (.file [2, 3])) schemaRoot
    schemaWorkflow).isOk = true := by decide +kernel
  cases hresolve : resolve schemaFormats (schemaTree (.file [2, 3])) schemaRoot schemaWorkflow with
  | error =>
    rw [hresolve] at hok
    cases hok
  | ok resolved =>
    obtain ⟨again, hagain, hdefinition, _⟩ :=
      (resolveRetained_agrees_iff hresolve).mpr schemaFile_canonical
    exact ⟨resolved, again, rfl, hagain, hdefinition⟩

/-- Whether a workflow is resolved, and then again from its closure. -/
def reloads (formats : SourceFormats Schema) (fs : FileSystem) (sourceRoot : List Segment)
    (selected : RawPath) : Option Bool :=
  (resolve formats fs sourceRoot selected).toOption.map fun resolved =>
    (resolveRetained formats resolved.source.sourceRoot resolved.source.workflowPath
      resolved.sourceClosure).isOk

/-- A schema behind a symbolic link inside the root is not found in the closure. -/
theorem linkedSource_lost :
    reloads schemaFormats (schemaTree (.symlink (RawPath.ofStr "plan-v1.json"))) schemaRoot
      schemaWorkflow = some false := by
  decide +kernel

end ScherzoCloud.Workflow
