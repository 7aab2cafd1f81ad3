import ScherzoCloud.Workflow.SourceResolution

/-!
# The static references of a workflow

Which files a validated workflow names, in the order in which their resolution takes
them.  The path that a reference is replaced by depends on the reference only, so the
resolution of a workflow is a loop over its references, beside a map of its paths.
-/

namespace ScherzoCloud.Workflow

open Collections

variable {g : String → String}

inductive SourceUse where
  | text (location : ResolutionLocation)
  | binary (location : ResolutionLocation)
  | inputSchema (input : String)
  | resultSchema (nodeName : String) (role : WorkflowNodeRole) (outputName : String)

structure StaticReference where
  use : SourceUse
  path : String

variable (nodeName : String) (role : WorkflowNodeRole)

def MessageFileKind.use : MessageFileKind → ResolutionLocation → SourceUse
  | text, location => .text location
  | attachment, location => .binary location

def messageReferences (kind : MessageFileKind) :
    List ValidatedMessageSource → Nat → List StaticReference
  | [], _ => []
  | .reference _ _ :: rest, index => messageReferences kind rest (index + 1)
  | .file path :: rest, index =>
    ⟨kind.use (messageLocation nodeName index role kind), path⟩ ::
      messageReferences kind rest (index + 1)

def agentReferences (agent : ValidatedAgent) : List StaticReference :=
  ⟨.text (systemPromptLocation nodeName role), agent.systemPrompt⟩ ::
    (messageReferences nodeName role .text agent.message.text 0 ++
      messageReferences nodeName role .attachment agent.message.attachments 0)

def outputReferences (outputName : String) (output : ValidatedOutput) : List StaticReference :=
  match output.definition with
  | .jsonPath _ schema | .jsonAgentResult schema =>
    [⟨.resultSchema nodeName role outputName, schema⟩]
  | _ => []

def commonReferences (common : ValidatedCommonStep) : List StaticReference :=
  common.outputs.entries.flatMap fun entry => outputReferences nodeName role entry.1 entry.2

def nodeReferences : ValidatedStep → List StaticReference
  | .command command => commonReferences nodeName role command.common
  | .agent node =>
    agentReferences nodeName role node.agent ++ commonReferences nodeName role node.common

def recoveryReferences : Option (Option ValidatedStepRecovery) → List StaticReference
  | some (some ⟨_, some (.agent _ prompt _ _)⟩) => [⟨.text (.recoveryPrompt nodeName), prompt⟩]
  | _ => []

def ValidatedWorkflow.staticReferences (definition : ValidatedWorkflow) : List StaticReference :=
  (definition.inputJsonSchemaPaths.entries.flatMap fun entry =>
    [⟨.inputSchema entry.1, entry.2⟩]) ++
    ((definition.steps.entries.flatMap fun entry =>
      recoveryReferences entry.1 (definition.recoveries.get? entry.1) ++
        nodeReferences entry.1 .step entry.2) ++
    definition.finalizers.entries.flatMap fun entry =>
      nodeReferences entry.1 .finalizer entry.2.body)

/-- Replace the paths of the references. -/
def mapMessageSources (g : String → String) (sources : List ValidatedMessageSource) :
    List ValidatedMessageSource :=
  sources.map fun source =>
    match source with
    | .file path => .file (g path)
    | .reference value valueType => .reference value valueType

def mapAgent (g : String → String) (agent : ValidatedAgent) : ValidatedAgent :=
  { agent with
    systemPrompt := g agent.systemPrompt
    message :=
      ⟨mapMessageSources g agent.message.text, mapMessageSources g agent.message.attachments⟩ }

def mapOutput (g : String → String) (output : ValidatedOutput) : ValidatedOutput :=
  match output.definition with
  | .jsonPath path schema => { output with definition := .jsonPath path (g schema) }
  | .jsonAgentResult schema => { output with definition := .jsonAgentResult (g schema) }
  | _ => output

def mapCommon (g : String → String) (common : ValidatedCommonStep) : ValidatedCommonStep :=
  { common with outputs := common.outputs.mapWithKey fun _ output => mapOutput g output }

def mapNode (g : String → String) : ValidatedStep → ValidatedStep
  | .command command => .command { command with common := mapCommon g command.common }
  | .agent node => .agent ⟨mapCommon g node.common, mapAgent g node.agent⟩

def mapRecovery (g : String → String) :
    Option (Option ValidatedStepRecovery) → Option (Option ValidatedStepRecovery)
  | some (some ⟨retries, some (.agent profile prompt cwd harness)⟩) =>
    some (some ⟨retries, some (.agent profile (g prompt) cwd harness)⟩)
  | recovery => recovery

def ValidatedWorkflow.mapStep (g : String → String) (definition : ValidatedWorkflow)
    (nodeName : String) (step : ValidatedStep) :
    Option (Option ValidatedStepRecovery) × ValidatedStep :=
  (mapRecovery g (definition.recoveries.get? nodeName), mapNode g step)

def mapFinalizer (g : String → String) (finalizer : ValidatedFinalizer) : ValidatedFinalizer :=
  { finalizer with body := mapNode g finalizer.body }

def ValidatedWorkflow.mapSources (g : String → String) (definition : ValidatedWorkflow) :
    ValidatedWorkflow :=
  let steps := definition.steps.mapWithKey (definition.mapStep g)
  { definition with
    inputJsonSchemaPaths := definition.inputJsonSchemaPaths.mapWithKey fun _ path => g path
    steps := steps.mapWithKey fun _ resolved => resolved.2
    recoveries := replaceRecoveries definition.recoveries steps
    finalizers := definition.finalizers.mapWithKey fun _ finalizer => mapFinalizer g finalizer }

section Gathering

variable {Schema : Type} {formats : SourceFormats Schema} {sources : SourceResolver}
  {workflowDirectory : HostPath}

def resolveReference (formats : SourceFormats Schema) (sources : SourceResolver)
    (workflowDirectory : HostPath) (reference : StaticReference) : Resolving Schema String :=
  match reference.use with
  | .text location =>
    resolveTextSource formats sources workflowDirectory reference.path location
  | .binary location => resolveBinarySource sources workflowDirectory reference.path location
  | .inputSchema input =>
    resolveInputSchema formats sources workflowDirectory input reference.path
  | .resultSchema nodeName role outputName =>
    resolveResultSchema formats sources workflowDirectory nodeName role outputName reference.path

/-- Resolve a reference for what it changes. -/
def takeReference (formats : SourceFormats Schema) (sources : SourceResolver)
    (workflowDirectory : HostPath) (state : Resolution Schema) (reference : StaticReference) :
    Except ResolutionFailure (Resolution Schema) :=
  (resolveReference formats sources workflowDirectory reference state).map Prod.snd

/-- Every reference that can be resolved is replaced by `g` of its path. -/
def ReplacesBy (formats : SourceFormats Schema) (sources : SourceResolver)
    (workflowDirectory : HostPath) (g : String → String) : Prop :=
  ∀ reference state path state',
    resolveReference formats sources workflowDirectory reference state = .ok (path, state') →
      path = g reference.path

theorem resolveReference_gathers (hg : ReplacesBy formats sources workflowDirectory g)
    (reference : StaticReference) : Gathers (takeReference formats sources workflowDirectory)
      (resolveReference formats sources workflowDirectory reference) (g reference.path)
      [reference] := by
  intro state
  rw [List.foldlM_cons, takeReference]
  cases hresolve : resolveReference formats sources workflowDirectory reference state with
  | error => rfl
  | ok result =>
    obtain ⟨path, state'⟩ := result
    rw [← hg reference state path state' hresolve]
    rfl

variable (nodeName : String) (role : WorkflowNodeRole)

variable (hg : ReplacesBy formats sources workflowDirectory g)
include hg

theorem resolveMessageFiles_gathers
    (kind : MessageFileKind) (messageSources : List ValidatedMessageSource) (index : Nat) :
    Gathers (takeReference formats sources workflowDirectory)
      (resolveMessageFiles formats sources workflowDirectory nodeName role kind messageSources
        index) (mapMessageSources g messageSources)
      (messageReferences nodeName role kind messageSources index) := by
  induction messageSources generalizing index with
  | nil => exact Gathers.pure _
  | cons source rest ih =>
    cases source with
    | reference => exact (ih (index + 1)).map _
    | file path =>
      have hrest := (ih (index + 1)).map (.file (g path) :: ·)
      cases kind with
      | text => exact (resolveReference_gathers hg ⟨.text _, path⟩).bind hrest
      | attachment => exact (resolveReference_gathers hg ⟨.binary _, path⟩).bind hrest

theorem resolveAgentSources_gathers (agent : ValidatedAgent) :
    Gathers (takeReference formats sources workflowDirectory)
      (resolveAgentSources formats sources workflowDirectory nodeName role agent)
      (mapAgent g agent) (agentReferences nodeName role agent) := by
  have hprompt := resolveReference_gathers hg
    ⟨.text (systemPromptLocation nodeName role), agent.systemPrompt⟩
  have htext := resolveMessageFiles_gathers nodeName role hg .text agent.message.text 0
  have hattachments := resolveMessageFiles_gathers nodeName role hg .attachment
    agent.message.attachments 0
  exact hprompt.bind (htext.bind (hattachments.map _))

theorem resolveOutput_gathers (outputName : String) (output : ValidatedOutput) :
    Gathers (takeReference formats sources workflowDirectory)
      (resolveOutput formats sources workflowDirectory nodeName role outputName output)
      (mapOutput g output) (outputReferences nodeName role outputName output) := by
  have hschema (schema : String) := resolveReference_gathers hg
    ⟨.resultSchema nodeName role outputName, schema⟩
  obtain ⟨definition, valueType⟩ := output
  cases definition with
  | jsonPath _ schema | jsonAgentResult schema => exact (hschema schema).map _
  | textPath | textAgentResponse | filePath | gitBranchWorkspace =>
    exact Gathers.pure _

theorem resolveCommonSources_gathers (common : ValidatedCommonStep) :
    Gathers (takeReference formats sources workflowDirectory)
      (resolveCommonSources formats sources workflowDirectory nodeName role common)
      (mapCommon g common) (commonReferences nodeName role common) :=
  (Gathers.traverseM common.outputs (resolveOutput_gathers nodeName role hg)).map _

theorem resolveNodeStaticSources_gathers (node : ValidatedStep) :
    Gathers (takeReference formats sources workflowDirectory)
      (resolveNodeStaticSources formats sources workflowDirectory nodeName role node)
      (mapNode g node) (nodeReferences nodeName role node) := by
  cases node with
  | command command => exact (resolveCommonSources_gathers nodeName role hg command.common).map _
  | agent node =>
    exact (resolveAgentSources_gathers nodeName role hg node.agent).bind
      ((resolveCommonSources_gathers nodeName role hg node.common).map _)

theorem resolveRecovery_gathers (recovery : Option (Option ValidatedStepRecovery)) :
    Gathers (takeReference formats sources workflowDirectory)
      (resolveRecovery formats sources workflowDirectory nodeName recovery)
      (mapRecovery g recovery) (recoveryReferences nodeName recovery) := by
  match recovery with
  | some (some ⟨retries, some (.agent profile prompt cwd harness)⟩) =>
    exact (resolveReference_gathers hg ⟨.text (.recoveryPrompt nodeName), prompt⟩).map _
  | some (some ⟨retries, some (.command argv cwd)⟩) => exact Gathers.pure _
  | some (some ⟨retries, none⟩) => exact Gathers.pure _
  | some none => exact Gathers.pure _
  | none => exact Gathers.pure _

/-- The resolution of a workflow takes its references one by one. -/
theorem resolveStaticSources_gathers (definition : ValidatedWorkflow) :
    Gathers (takeReference formats sources workflowDirectory)
      (resolveStaticSources formats sources workflowDirectory definition)
      (definition.mapSources g) definition.staticReferences := by
  have hinputs := Gathers.traverseM definition.inputJsonSchemaPaths
    fun input path => resolveReference_gathers hg ⟨.inputSchema input, path⟩
  have hsteps := Gathers.traverseM definition.steps
    (f := fun name =>
      resolveStepSources formats sources workflowDirectory name definition.recoveries)
    fun name step => (resolveRecovery_gathers name hg (definition.recoveries.get? name)).bind
      ((resolveNodeStaticSources_gathers name .step hg step).map _)
  have hfinalizers := Gathers.traverseM definition.finalizers fun name finalizer =>
    (resolveNodeStaticSources_gathers name .finalizer hg finalizer.body).map fun body =>
      { finalizer with body }
  exact hinputs.bind (hsteps.bind (hfinalizers.map _))

end Gathering

variable {h : String → String} {nodeName : String} {role : WorkflowNodeRole}

theorem mapMessageSources_eq_iff {kind : MessageFileKind} {sources : List ValidatedMessageSource}
    {index : Nat} : mapMessageSources g sources = mapMessageSources h sources ↔
      ∀ r ∈ messageReferences nodeName role kind sources index, g r.path = h r.path := by
  induction sources generalizing index with
  | nil => simp [mapMessageSources, messageReferences]
  | cons source rest ih =>
    have ih := @ih (index + 1)
    unfold mapMessageSources at ih ⊢
    cases source with
    | reference =>
      simp only [List.map_cons, List.cons.injEq, true_and, messageReferences, ih]
    | file =>
      simp only [List.map_cons, List.cons.injEq, ValidatedMessageSource.file.injEq,
        messageReferences, List.forall_mem_cons, ih]

theorem mapAgent_eq_iff {agent : ValidatedAgent} : mapAgent g agent = mapAgent h agent ↔
    ∀ r ∈ agentReferences nodeName role agent, g r.path = h r.path := by
  unfold mapAgent agentReferences
  simp only [ValidatedAgent.mk.injEq, ValidatedAgentMessage.mk.injEq, true_and, and_true,
    List.forall_mem_cons, List.forall_mem_append]
  rw [mapMessageSources_eq_iff, mapMessageSources_eq_iff]

theorem mapCommon_eq_iff {common : ValidatedCommonStep} : mapCommon g common = mapCommon h common ↔
    ∀ r ∈ commonReferences nodeName role common, g r.path = h r.path := by
  have houtputs : mapCommon g common = mapCommon h common ↔
      ∀ e ∈ common.outputs.entries, mapOutput g e.2 = mapOutput h e.2 := by
    unfold mapCommon
    simp only [ValidatedCommonStep.mk.injEq, true_and, BTreeMap.mapWithKey_eq_iff]
  rw [houtputs]
  unfold commonReferences
  simp only [List.forall_mem_flatMap]
  refine forall₂_congr ?_
  rintro ⟨name, definition, valueType⟩ _
  cases definition <;> simp [mapOutput, outputReferences]

theorem mapNode_eq_iff {node : ValidatedStep} : mapNode g node = mapNode h node ↔
    ∀ r ∈ nodeReferences nodeName role node, g r.path = h r.path := by
  cases node with
  | command command =>
    unfold mapNode nodeReferences
    simp only [ValidatedStep.command.injEq, ValidatedCommandStep.mk.injEq, and_true]
    exact mapCommon_eq_iff
  | agent =>
    unfold mapNode nodeReferences
    simp only [ValidatedStep.agent.injEq, ValidatedAgentStep.mk.injEq, List.forall_mem_append]
    rw [and_comm, mapAgent_eq_iff, mapCommon_eq_iff]

theorem mapRecovery_eq_iff {recovery : Option (Option ValidatedStepRecovery)} :
    mapRecovery g recovery = mapRecovery h recovery ↔
      ∀ r ∈ recoveryReferences nodeName recovery, g r.path = h r.path := by
  match recovery with
  | some (some ⟨retries, some (.agent profile prompt cwd harness)⟩) =>
    simp [mapRecovery, recoveryReferences]
  | some (some ⟨retries, some (.command argv cwd)⟩) => simp [mapRecovery, recoveryReferences]
  | some (some ⟨retries, none⟩) => simp [mapRecovery, recoveryReferences]
  | some none => simp [mapRecovery, recoveryReferences]
  | none => simp [mapRecovery, recoveryReferences]

namespace ValidatedWorkflow

variable {definition : ValidatedWorkflow}

theorem mapSources_recovery {f : String → String} {entry : String × ValidatedStep}
    (hentry : entry ∈ definition.steps.entries) {recovery : Option ValidatedStepRecovery}
    (hrecovery : definition.recoveries.get? entry.1 = some recovery) :
    (definition.mapSources f).recoveries.get? entry.1 = mapRecovery f (some recovery) := by
  have hstep : definition.steps.get? entry.1 = some entry.2 := BTreeMap.get?_eq_some_iff.mpr hentry
  simp only [mapSources, replaceRecoveries, BTreeMap.get?_mapWithKey, hrecovery, hstep,
    Option.map_some, mapStep, Option.bind_some]
  match recovery with
  | some ⟨retries, some (.agent profile prompt cwd harness)⟩ => rfl
  | some ⟨retries, some (.command argv cwd)⟩ => rfl
  | some ⟨retries, none⟩ => rfl
  | none => rfl

/-- Two replacements of the paths give the same definition when they agree on every
reference. -/
theorem mapSources_eq_iff : definition.mapSources g = definition.mapSources h ↔
    ∀ r ∈ definition.staticReferences, g r.path = h r.path := by
  unfold staticReferences
  simp only [List.forall_mem_append, List.forall_mem_flatMap]
  constructor
  · intro heq
    have hinputs := congrArg inputJsonSchemaPaths heq
    have hsteps := congrArg steps heq
    have hfinalizers := congrArg finalizers heq
    simp only [mapSources, BTreeMap.mapWithKey_eq_iff] at hinputs hfinalizers
    refine ⟨?_, ?_, ?_⟩
    · intro entry hentry r hr
      cases List.mem_singleton.mp hr
      exact hinputs entry hentry
    · intro entry hentry
      have hstep : definition.steps.get? entry.1 = some entry.2 :=
        BTreeMap.get?_eq_some_iff.mpr hentry
      constructor
      · rw [← mapRecovery_eq_iff]
        cases hrecovery : definition.recoveries.get? entry.1 with
        | none => rfl
        | some =>
          rw [← mapSources_recovery hentry hrecovery, heq, mapSources_recovery hentry hrecovery]
      · rw [← mapNode_eq_iff]
        have hget := congrArg (fun m => m.get? entry.1) hsteps
        simpa [mapSources, hstep, mapStep] using hget
    · intro entry hentry
      have hbody := congrArg ValidatedFinalizer.body (hfinalizers entry hentry)
      exact mapNode_eq_iff.mp hbody
  · rintro ⟨hinputs, hsteps, hfinalizers⟩
    have hinputs : definition.inputJsonSchemaPaths.mapWithKey (fun _ path => g path) =
        definition.inputJsonSchemaPaths.mapWithKey (fun _ path => h path) :=
      BTreeMap.mapWithKey_eq_iff.mpr fun entry hentry =>
        hinputs entry hentry _ (List.mem_singleton_self _)
    have hsteps : definition.steps.mapWithKey (definition.mapStep g) =
        definition.steps.mapWithKey (definition.mapStep h) := by
      refine BTreeMap.mapWithKey_eq_iff.mpr fun entry hentry => ?_
      rw [mapStep, mapStep, Prod.mk.injEq, mapRecovery_eq_iff, mapNode_eq_iff]
      exact hsteps entry hentry
    have hfinalizers : definition.finalizers.mapWithKey (fun _ f => mapFinalizer g f) =
        definition.finalizers.mapWithKey (fun _ f => mapFinalizer h f) := by
      refine BTreeMap.mapWithKey_eq_iff.mpr fun entry hentry => ?_
      unfold mapFinalizer
      rw [mapNode_eq_iff.mpr (hfinalizers entry hentry)]
    unfold mapSources
    rw [hinputs, hsteps, hfinalizers]

end ValidatedWorkflow

end ScherzoCloud.Workflow
