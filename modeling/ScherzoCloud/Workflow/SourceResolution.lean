import ScherzoCloud.Collections.Gathering
import ScherzoCloud.Workflow.Capacity
import ScherzoCloud.Workflow.SourcePaths
import ScherzoCloud.Workflow.Validation

/-!
# Resolution of workflow sources

A workflow file names other files: schemas, prompts, message texts and attachments.
`resolve` reads the workflow file and everything it names below a source root, and
keeps the bytes of what it has read as the source closure (`resolution.rs`).
`resolveRetained` does the same from a closure that was kept, without a file system.

The formats of the files are parameters: how a workflow document is decoded, which
bytes are UTF-8, and how a JSON schema is compiled.  So is the hash of the content
digest.  The file system does not change while it is read, so the second look at
every candidate, which detects a change, finds the same file and is left out.
-/

namespace ScherzoCloud.Workflow

open Collections

variable {Schema : Type}

inductive DecodeFailureKind where
  | malformedYaml
  | forbiddenYaml
  | structuralContract
  deriving DecidableEq

inductive ResolutionFailureKind where
  | sourceRootUnavailable
  | sourceRootNotDirectory
  | lexicalSourceEscape
  | sourceUnavailable
  | symbolicLinkEscape
  | sourceNotRegularFile
  | invalidCanonicalPath
  | invalidWorkflowDocument (kind : DecodeFailureKind)
  | invalidWorkflowDefinition (kind : ValidationFailureKind)
  | invalidTextEncoding
  | invalidInputSchemaEncoding
  | invalidInputSchemaJson
  | invalidInputSchemaDialect
  | invalidInputSchemaReference
  | invalidInputSchema
  | invalidResultSchemaEncoding
  | invalidResultSchemaJson
  | invalidResultSchemaDialect
  | invalidResultSchemaReference
  | invalidResultSchema
  | digestInputTooLarge
  | capacityArithmeticOverflow
  | generalTransitionCapacityExceeded
  | cloudTransitionCapacityExceeded

inductive ResolutionLocation where
  | sourceRoot
  | workflow
  | semantic (location : ValidationLocation)
  | systemPrompt (step : String)
  | messageText (step : String) (index : Nat)
  | messageAttachment (step : String) (index : Nat)
  | inputSchema (input : String)
  | resultSchema (step output : String)
  | finalizerSystemPrompt (finalizer : String)
  | finalizerMessageText (finalizer : String) (index : Nat)
  | finalizerMessageAttachment (finalizer : String) (index : Nat)
  | finalizerResultSchema (finalizer output : String)
  | recoveryPrompt (step : String)
  | contentDigest
  | capacity

structure ResolutionFailure where
  kind : ResolutionFailureKind
  location : ResolutionLocation
  workflowPath : Option String := none
  sourcePath : Option HostPath := none

inductive SchemaFailure where
  | json
  | dialect
  | reference
  | schema
  deriving DecidableEq

/-- How the bytes of the sources are understood. -/
structure SourceFormats (Schema : Type) where
  decode : List UInt8 → Except DecodeFailureKind DecodedDocument
  isUtf8 : List UInt8 → Bool
  compileSchema : List UInt8 → Except SchemaFailure Schema
  sha256Hex : List UInt8 → String

structure LoadedSource where
  canonicalHostPath : HostPath
  canonicalPath : String
  bytes : List UInt8

/-- Sources are read from a file system, or only from a closure that was kept. -/
inductive SourceOrigin where
  | live (fs : FileSystem)
  | retained

structure SourceResolver where
  canonicalRoot : HostPath
  suppliedRoot : List Segment
  origin : SourceOrigin

/-- What a resolution changes: the closure, its size and the schemas found. -/
structure Resolution (Schema : Type) where
  closure : BTreeMap String (List UInt8)
  retainedBytes : Nat
  inputSchemas : BTreeMap String Schema
  outputSchemas : BTreeMap (String ×ₗ String) Schema

abbrev Resolving (Schema : Type) := StateT (Resolution Schema) (Except ResolutionFailure)

def sourceClosureTooLarge (location : ResolutionLocation) : ResolutionFailure :=
  { kind := .digestInputTooLarge, location }

namespace SourceResolver

def new (fs : FileSystem) (suppliedRoot : List Segment) : Except ResolutionFailure SourceResolver :=
  match canonicalize fs suppliedRoot with
  | none => .error { kind := .sourceRootUnavailable, location := .sourceRoot }
  | some canonicalRoot =>
    if fs canonicalRoot ≠ some .directory then
      .error { kind := .sourceRootNotDirectory, location := .sourceRoot }
    else .ok { canonicalRoot, suppliedRoot, origin := .live fs }

/-- The pieces of a path without those that stay where they are. -/
def components (path : List Segment) : List Segment :=
  path.filter (· ≠ .stay)

def pathFromRoot (sources : SourceResolver) (path : RawPath) : List Segment :=
  if ¬ path.absolute then sources.canonicalRoot.join path
  else if (components sources.suppliedRoot).isPrefixOf (components path.segments) then
    sources.canonicalRoot.map .name ++
      (components path.segments).drop (components sources.suppliedRoot).length
  else path.segments

def loadRetained (sources : SourceResolver) (candidate : List Segment)
    (location : ResolutionLocation) : Resolving Schema LoadedSource := fun state =>
  match lexicalNormalize candidate with
  | none => .error { kind := .invalidCanonicalPath, location }
  | some canonicalHostPath =>
    match canonicalRelativePath sources.canonicalRoot canonicalHostPath with
    | none => .error { kind := .invalidCanonicalPath, location }
    | some canonicalPath =>
      match state.closure.get? canonicalPath with
      | none =>
        .error { kind := .sourceUnavailable, location, sourcePath := canonicalHostPath }
      | some bytes => .ok (⟨canonicalHostPath, canonicalPath, bytes⟩, state)

/-- Open a canonical path without following a link, and require a regular file. -/
def openSourceFile (fs : FileSystem) (canonicalHostPath : HostPath)
    (location : ResolutionLocation) : Except ResolutionFailure (List UInt8) :=
  match fs canonicalHostPath with
  | some (.file content) => .ok content
  | some .directory | some .special =>
    .error { kind := .sourceNotRegularFile, location, sourcePath := canonicalHostPath }
  | some (.symlink _) | some .unreadable | none =>
    .error { kind := .sourceUnavailable, location, sourcePath := canonicalHostPath }

def loadLive (fs : FileSystem) (sources : SourceResolver) (candidate : List Segment)
    (location : ResolutionLocation) : Resolving Schema LoadedSource := fun state =>
  match canonicalize fs candidate with
  | none =>
    .error { kind := .sourceUnavailable, location, sourcePath := lexicalNormalize candidate }
  | some canonicalHostPath =>
    if ¬ sources.canonicalRoot.isPrefixOf canonicalHostPath then
      .error { kind := .symbolicLinkEscape, location }
    else do
      let content ← openSourceFile fs canonicalHostPath location
      match canonicalRelativePath sources.canonicalRoot canonicalHostPath with
      | none => .error { kind := .invalidCanonicalPath, location }
      | some canonicalPath =>
        match state.closure.get? canonicalPath with
        | some bytes => .ok (⟨canonicalHostPath, canonicalPath, bytes⟩, state)
        | none =>
          if maximumSourceClosureBytes < state.retainedBytes + content.length then
            .error (sourceClosureTooLarge location)
          else
            .ok (⟨canonicalHostPath, canonicalPath, content⟩,
              { state with
                closure := state.closure.insert canonicalPath content
                retainedBytes := state.retainedBytes + content.length })

def load (sources : SourceResolver) (candidate : List Segment) (location : ResolutionLocation) :
    Resolving Schema LoadedSource :=
  if ¬ lexicallyWithin sources.canonicalRoot candidate then
    throw { kind := .lexicalSourceEscape, location }
  else
    match sources.origin with
    | .retained => sources.loadRetained candidate location
    | .live fs => sources.loadLive fs candidate location

end SourceResolver

variable (formats : SourceFormats Schema) (sources : SourceResolver) (workflowDirectory : HostPath)

variable (sourcePath : String)

def loadStaticSource (location : ResolutionLocation) : Resolving Schema LoadedSource :=
  sources.load (workflowDirectory.join (RawPath.ofStr sourcePath)) location

def loadUtf8StaticSource (location : ResolutionLocation)
    (encodingFailure : ResolutionFailureKind) : Resolving Schema LoadedSource := do
  let loaded ← loadStaticSource sources workflowDirectory sourcePath location
  if formats.isUtf8 loaded.bytes then return loaded
  else throw { kind := encodingFailure, location }

def resolveTextSource (location : ResolutionLocation) :
    Resolving Schema String := do
  let loaded ← loadUtf8StaticSource formats sources workflowDirectory sourcePath location
    .invalidTextEncoding
  return loaded.canonicalPath

def resolveBinarySource (location : ResolutionLocation) :
    Resolving Schema String := do
  let loaded ← loadStaticSource sources workflowDirectory sourcePath location
  return loaded.canonicalPath

def isInputSchema : ResolutionLocation → Bool
  | .inputSchema _ => true
  | _ => false

def schemaEncodingFailure (inputSchema : Bool) : ResolutionFailureKind :=
  if inputSchema then .invalidInputSchemaEncoding else .invalidResultSchemaEncoding

def schemaFailure : Bool → SchemaFailure → ResolutionFailureKind
  | true, .json => .invalidInputSchemaJson
  | false, .json => .invalidResultSchemaJson
  | true, .dialect => .invalidInputSchemaDialect
  | true, .reference => .invalidInputSchemaReference
  | true, .schema => .invalidInputSchema
  | false, .dialect => .invalidResultSchemaDialect
  | false, .reference => .invalidResultSchemaReference
  | false, .schema => .invalidResultSchema

def resolveJsonSchema (location : ResolutionLocation) :
    Resolving Schema (String × Schema) := do
  let loaded ← loadUtf8StaticSource formats sources workflowDirectory sourcePath location
    (schemaEncodingFailure (isInputSchema location))
  match formats.compileSchema loaded.bytes with
  | .error failure => throw { kind := schemaFailure (isInputSchema location) failure, location }
  | .ok schema => return (loaded.canonicalPath, schema)

/-- The body of the loop over the input schemas. -/
def resolveInputSchema (input schema : String) : Resolving Schema String := do
  let (canonicalPath, retained) ←
    resolveJsonSchema formats sources workflowDirectory schema (.inputSchema input)
  modify fun state => { state with inputSchemas := state.inputSchemas.insert input retained }
  return canonicalPath

def systemPromptLocation (nodeName : String) : WorkflowNodeRole → ResolutionLocation
  | .step => .systemPrompt nodeName
  | .finalizer => .finalizerSystemPrompt nodeName

def resultSchemaLocation (nodeName outputName : String) : WorkflowNodeRole → ResolutionLocation
  | .step => .resultSchema nodeName outputName
  | .finalizer => .finalizerResultSchema nodeName outputName

inductive MessageFileKind where
  | text
  | attachment
  deriving DecidableEq

def messageLocation (nodeName : String) (index : Nat) :
    WorkflowNodeRole → MessageFileKind → ResolutionLocation
  | .step, .text => .messageText nodeName index
  | .step, .attachment => .messageAttachment nodeName index
  | .finalizer, .text => .finalizerMessageText nodeName index
  | .finalizer, .attachment => .finalizerMessageAttachment nodeName index

def resolveMessageFile (kind : MessageFileKind) (path : String)
    (location : ResolutionLocation) : Resolving Schema String :=
  match kind with
  | .text => resolveTextSource formats sources workflowDirectory path location
  | .attachment => resolveBinarySource sources workflowDirectory path location

variable (nodeName : String) (role : WorkflowNodeRole)

def resolveMessageFiles (kind : MessageFileKind) :
    List ValidatedMessageSource → Nat → Resolving Schema (List ValidatedMessageSource)
  | [], _ => return []
  | .reference source valueType :: rest, index => do
    let rest ← resolveMessageFiles kind rest (index + 1)
    return .reference source valueType :: rest
  | .file path :: rest, index => do
    let path ← resolveMessageFile formats sources workflowDirectory kind path
      (messageLocation nodeName index role kind)
    let rest ← resolveMessageFiles kind rest (index + 1)
    return .file path :: rest

def resolveAgentSources (agent : ValidatedAgent) : Resolving Schema ValidatedAgent := do
  let systemPrompt ← resolveTextSource formats sources workflowDirectory agent.systemPrompt
    (systemPromptLocation nodeName role)
  let text ← resolveMessageFiles formats sources workflowDirectory nodeName role .text
    agent.message.text 0
  let attachments ← resolveMessageFiles formats sources workflowDirectory nodeName role
    .attachment agent.message.attachments 0
  return { agent with systemPrompt, message := ⟨text, attachments⟩ }

/-- The body of the loop over the outputs of a node, for one with a schema. -/
def resolveResultSchema (outputName schema : String) : Resolving Schema String := do
  let (canonicalPath, retained) ← resolveJsonSchema formats sources workflowDirectory schema
    (resultSchemaLocation nodeName outputName role)
  modify fun state => { state with
    outputSchemas := state.outputSchemas.insert (toLex (nodeName, outputName)) retained }
  return canonicalPath

def resolveOutput (outputName : String) (output : ValidatedOutput) :
    Resolving Schema ValidatedOutput :=
  match output.definition with
  | .jsonPath path schema => do
    let schema ← resolveResultSchema formats sources workflowDirectory nodeName role
      outputName schema
    return { output with definition := .jsonPath path schema }
  | .jsonAgentResult schema => do
    let schema ← resolveResultSchema formats sources workflowDirectory nodeName role
      outputName schema
    return { output with definition := .jsonAgentResult schema }
  | _ => return output

def resolveCommonSources (common : ValidatedCommonStep) : Resolving Schema ValidatedCommonStep := do
  let outputs ← common.outputs.traverseM
    (resolveOutput formats sources workflowDirectory nodeName role)
  return { common with outputs }

def resolveNodeStaticSources : ValidatedStep → Resolving Schema ValidatedStep
  | .command command => do
    let common ← resolveCommonSources formats sources workflowDirectory nodeName role command.common
    return .command { command with common }
  | .agent node => do
    let agent ← resolveAgentSources formats sources workflowDirectory nodeName role node.agent
    let common ← resolveCommonSources formats sources workflowDirectory nodeName role node.common
    return .agent ⟨common, agent⟩

/-- What `recoveries.get_mut` finds for a step, with the prompt of an agent resolved. -/
def resolveRecovery :
    Option (Option ValidatedStepRecovery) → Resolving Schema (Option (Option ValidatedStepRecovery))
  | some (some ⟨retries, some (.agent profile prompt cwd harness)⟩) => do
    let prompt ← resolveTextSource formats sources workflowDirectory prompt
      (.recoveryPrompt nodeName)
    return some (some ⟨retries, some (.agent profile prompt cwd harness)⟩)
  | recovery => return recovery

/-- Put the recoveries that were found for the steps back into their map. -/
def replaceRecoveries (recoveries : BTreeMap String (Option ValidatedStepRecovery))
    (resolved : BTreeMap String (Option (Option ValidatedStepRecovery) × ValidatedStep)) :
    BTreeMap String (Option ValidatedStepRecovery) :=
  recoveries.mapWithKey fun name recovery =>
    ((resolved.get? name).bind Prod.fst).getD recovery

/-- The body of the loop over the steps. -/
def resolveStepSources (recoveries : BTreeMap String (Option ValidatedStepRecovery))
    (step : ValidatedStep) :
    Resolving Schema (Option (Option ValidatedStepRecovery) × ValidatedStep) := do
  let recovery ← resolveRecovery formats sources workflowDirectory nodeName
    (recoveries.get? nodeName)
  let step ← resolveNodeStaticSources formats sources workflowDirectory nodeName .step step
  return (recovery, step)

def resolveStaticSources (definition : ValidatedWorkflow) :
    Resolving Schema ValidatedWorkflow := do
  let inputJsonSchemaPaths ← definition.inputJsonSchemaPaths.traverseM
    (resolveInputSchema formats sources workflowDirectory)
  let steps ← definition.steps.traverseM fun nodeName step =>
    resolveStepSources formats sources workflowDirectory nodeName definition.recoveries step
  let finalizers ← definition.finalizers.traverseM fun nodeName finalizer => do
    let body ← resolveNodeStaticSources formats sources workflowDirectory nodeName .finalizer
      finalizer.body
    return { finalizer with body }
  return { definition with
    inputJsonSchemaPaths
    steps := steps.mapWithKey fun _ resolved => resolved.2
    recoveries := replaceRecoveries definition.recoveries steps
    finalizers }

variable (formats : SourceFormats Schema)

/-- `u64::to_be_bytes`. -/
def lengthBytes (length : Nat) : List UInt8 :=
  (List.range 8).map fun index => UInt8.ofNat (length / 256 ^ (7 - index))

def lengthPrefixed (bytes : List UInt8) : List UInt8 :=
  lengthBytes bytes.length ++ bytes

def contentClosureDomain : String := "scherzo.workflow.content-closure.v1\x00"

variable (closure : BTreeMap String (List UInt8))

/-- The bytes that are hashed for the content digest. -/
def framedClosure : List UInt8 :=
  contentClosureDomain.toUTF8.toList ++ lengthBytes closure.size ++
    closure.entries.flatMap fun entry =>
      lengthPrefixed entry.1.toUTF8.toList ++ lengthPrefixed entry.2

def digestSourceClosure : Except ResolutionFailure WorkflowContentDigest :=
  if (framedClosure closure).length ≤ maximumSourceClosureBytes then
    .ok ⟨.sha256, formats.sha256Hex (framedClosure closure)⟩
  else .error (sourceClosureTooLarge .contentDigest)

def closureBytes : Nat :=
  (closure.values.map List.length).sum

def capacityFailureKind : CapacityCalculationFailure → ResolutionFailureKind
  | .arithmeticOverflow => .capacityArithmeticOverflow
  | .generalTransitionCapacityExceeded => .generalTransitionCapacityExceeded
  | .cloudTransitionCapacityExceeded => .cloudTransitionCapacityExceeded
  | .conditionEvidenceCapacityExceeded => .cloudTransitionCapacityExceeded

structure WorkflowSourceProvenance where
  sourceRoot : HostPath
  workflowPath : String
  deriving DecidableEq

structure ResolvedWorkflow (Schema : Type) where
  definition : ValidatedWorkflow
  sourceClosure : BTreeMap String (List UInt8)
  jsonSchemas : BTreeMap (String ×ₗ String) Schema
  inputJsonSchemas : BTreeMap String Schema
  source : WorkflowSourceProvenance
  contentDigest : WorkflowContentDigest
  capacity : WorkflowCapacity

/-- The end of a resolution: the closure is digested and the capacity computed. -/
def finishResolution (sources : SourceResolver) (workflowPath : String)
    (definition : ValidatedWorkflow) (state : Resolution Schema) :
    Except ResolutionFailure (ResolvedWorkflow Schema) := do
  let contentDigest ← digestSourceClosure formats state.closure
  if 2 ^ 64 ≤ closureBytes state.closure then
    .error (sourceClosureTooLarge .capacity)
  else
    let capacity ← (resolveWorkflowCapacity definition contentDigest
      (closureBytes state.closure)).mapError fun failure =>
        { kind := capacityFailureKind failure, location := .capacity }
    .ok {
      definition
      sourceClosure := state.closure
      jsonSchemas := state.outputSchemas
      inputJsonSchemas := state.inputSchemas
      source := ⟨sources.canonicalRoot, workflowPath⟩
      contentDigest
      capacity }

/-- Decode and validate the bytes of a workflow file. -/
def loadDefinition (bytes : List UInt8) : Except ResolutionFailure ValidatedWorkflow :=
  match formats.decode bytes with
  | .error kind => .error { kind := .invalidWorkflowDocument kind, location := .workflow }
  | .ok document =>
    (validate document.document).mapError fun failure =>
      { kind := .invalidWorkflowDefinition failure.kind, location := .semantic failure.location }

def resolveLoadedWorkflow (sources : SourceResolver) (workflowSource : LoadedSource)
    (state : Resolution Schema) : Except ResolutionFailure (ResolvedWorkflow Schema) := do
  let definition ← loadDefinition formats workflowSource.bytes
  -- only the root of the host has no parent
  if workflowSource.canonicalHostPath = [] then
    .error { kind := .invalidCanonicalPath, location := .workflow }
  else
    let (definition, state) ← resolveStaticSources formats sources
      workflowSource.canonicalHostPath.dropLast definition state
    finishResolution formats sources workflowSource.canonicalPath definition state

def resolveWithSources (sources : SourceResolver) (initial : Resolution Schema)
    (selectedWorkflow : RawPath) : Except ResolutionFailure (ResolvedWorkflow Schema) := do
  let (workflowSource, state) ←
    sources.load (sources.pathFromRoot selectedWorkflow) .workflow initial
  (resolveLoadedWorkflow formats sources workflowSource state).mapError fun failure =>
    { failure with workflowPath := workflowSource.canonicalPath }

/-- Resolve a workflow below an absolute source root. -/
def resolve (fs : FileSystem) (sourceRoot : List Segment) (selectedWorkflow : RawPath) :
    Except ResolutionFailure (ResolvedWorkflow Schema) := do
  let sources ← SourceResolver.new fs sourceRoot
  resolveWithSources formats sources ⟨.empty, 0, .empty, .empty⟩ selectedWorkflow

def fromRetained (canonicalRoot : HostPath) (closure : BTreeMap String (List UInt8)) :
    Except ResolutionFailure (SourceResolver × Resolution Schema) :=
  if (canonicalRoot.mapM OsName.toStr).isNone ∨
      lexicalNormalize (canonicalRoot.map .name) ≠ some canonicalRoot then
    .error { kind := .invalidCanonicalPath, location := .sourceRoot }
  else if maximumSourceClosureBytes < closureBytes closure then
    .error (sourceClosureTooLarge .contentDigest)
  else
    .ok (⟨canonicalRoot, canonicalRoot.map .name, .retained⟩,
      ⟨closure, closureBytes closure, .empty, .empty⟩)

def resolveRetained (sourceRoot : HostPath) (workflowPath : String)
    (sourceClosure : BTreeMap String (List UInt8)) :
    Except ResolutionFailure (ResolvedWorkflow Schema) := do
  let (sources, initial) ← fromRetained sourceRoot sourceClosure
  resolveWithSources formats sources initial (RawPath.ofStr workflowPath)

end ScherzoCloud.Workflow
