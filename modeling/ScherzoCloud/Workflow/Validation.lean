import ScherzoCloud.Workflow.ValidationGraph

/-!
# Semantic validation: outputs, conditions, bodies and exports

The second half of `validation.rs` and the entry point `validate`.  The source
passes `required_inputs` mutably but only reads it, so it is a plain parameter
here; the values a condition reads are collected in `condition_values` while
the condition is resolved.
-/

namespace ScherzoCloud.Workflow

open Collections

def outputPath : Output → Option String
  | .textPath path | .jsonPath path _ | .filePath path _ => some path
  | .textAgentResponse | .jsonAgentResult _ | .gitBranchWorkspace => none

def outputValueType : Output → WorkflowValueType
  | .textPath _ | .textAgentResponse => .text
  | .jsonPath _ _ | .jsonAgentResult _ => .json
  | .filePath _ _ => .file
  | .gitBranchWorkspace => .gitBranch

variable (name : String) (role : WorkflowNodeRole)

/-- Paths are distinct and there is at most one workspace output. -/
def validateOutputPaths :
    List (String × Output) → List String → Nat → Validated Unit
  | [], _, _ => .ok ()
  | (outputName, output) :: outputs, paths, workspaceCount =>
    let duplicate := match outputPath output with
      | some path => decide (path ∈ paths)
      | none => false
    let workspaceCount := if output = .gitBranchWorkspace then workspaceCount + 1
      else workspaceCount
    if duplicate then
      reject .duplicateOutputPath (nodeOutputLocation name role outputName)
    else if output = .gitBranchWorkspace ∧ 1 < workspaceCount then
      reject .excessWorkspaceOutput (nodeOutputLocation name role outputName)
    else
      validateOutputPaths outputs ((outputPath output).toList ++ paths) workspaceCount

/-- Commands have no agent values. -/
def validateCommandOutputs : List (String × Output) → Validated Unit
  | [] => .ok ()
  | (outputName, output) :: outputs =>
    match output with
    | .textAgentResponse | .jsonAgentResult _ =>
      reject .illegalCommandOutput (nodeOutputLocation name role outputName)
    | _ => validateCommandOutputs outputs

/-- Agents have at most one response or result, and not both. -/
def validateAgentOutputs : List (String × Output) → Nat → Nat → Validated Unit
  | [], _, _ => .ok ()
  | (outputName, output) :: outputs, responses, results =>
    let location := nodeOutputLocation name role outputName
    match output with
    | .textAgentResponse =>
      if 0 < responses then reject .excessAgentResponseOutput location
      else if 0 < results then reject .conflictingAgentValueOutputs location
      else validateAgentOutputs outputs (responses + 1) results
    | .jsonAgentResult _ =>
      if 0 < results then reject .excessAgentResultOutput location
      else if 0 < responses then reject .conflictingAgentValueOutputs location
      else validateAgentOutputs outputs responses (results + 1)
    | _ => validateAgentOutputs outputs responses results

def validateNodeOutputs (body : NodeBody) : Validated Unit := do
  let outputs := (commonNode body).outputs.entries
  validateOutputPaths name role outputs [] 0
  match body with
  | .command _ => validateCommandOutputs name role outputs
  | .agent _ => validateAgentOutputs name role outputs 0 0

def validateOutputRules (document : WorkflowDocument) : Validated Unit := do
  document.steps.entries.forM (fun e => validateNodeOutputs e.1 .step e.2.body)
  document.finalizers.entries.forM (fun e => validateNodeOutputs e.1 .finalizer e.2.body)

def resolveHarness : HarnessDefinition → Option ValidatedHarness
  | .pi config => (PiConfig.resolve config).map .pi
  | .claudeCode config => (ClaudeCodeConfig.resolve config).map .claudeCode
  | .codex config => (CodexConfig.resolve config).map .codex

def validateAgentProfiles (document : WorkflowDocument) :
    Validated (BTreeMap String ValidatedHarness) :=
  document.agentProfiles.traverse (fun name profile =>
    match resolveHarness profile.harness with
    | some harness => .ok harness
    | none => reject .invalidAgentProfileConfig (.agentProfile name))

variable (agentProfiles : BTreeMap String ValidatedHarness)

def resolveAgentProfile (nodeName : String) (role : WorkflowNodeRole) (agent : Agent) :
    Validated ValidatedHarness :=
  match agentProfiles.get? agent.profile with
  | some harness => .ok harness
  | none => reject .unknownAgentProfile
      (match role with
        | .step => .agentProfileReference nodeName
        | .finalizer => .finalizerAgentProfileReference nodeName)

def validateRecoveryHandler (stepName : String) :
    RecoveryHandler → Validated ValidatedRecoveryHandler
  | .command argv cwd => .ok (.command argv cwd)
  | .agent profile prompt cwd =>
    match agentProfiles.get? profile with
    | some harness => .ok (.agent profile prompt cwd harness)
    | none => reject .unknownAgentProfile (.recoveryAgentProfileReference stepName)

def validateRecovery (stepName : String) :
    Option StepRecovery → Validated (Option ValidatedStepRecovery)
  | none => .ok none
  | some recovery =>
    match recovery.handler with
    | none => .ok (some ⟨recovery.retries, none⟩)
    | some handler => do
      let handler ← validateRecoveryHandler agentProfiles stepName handler
      .ok (some ⟨recovery.retries, some handler⟩)

section References

variable (document : WorkflowDocument) (requiredInputs : RequiredInputs)

def resolveValueReference (reference : ValueReference) (location : ValidationLocation)
    (contextAllowed : Bool) : Validated ResolvedValueReference :=
  match reference with
  | .input name =>
    match requiredInputs.get? name with
    | none => reject .unknownInput location
    | some valueType => .ok ⟨.input name, valueType⟩
  | .output reference => do
    let (role, _, output) ← declaredOutput document reference location
    let valueType := outputValueType output
    .ok ⟨.output ⟨⟨reference.node, role⟩, reference.output, valueType⟩, valueType⟩
  | .finalizationContext =>
    if contextAllowed then .ok ⟨.finalizationContext, .json⟩
    else reject .invalidFinalizationContext location

variable (nodeName : String) (role : WorkflowNodeRole)

def validateCommandInputs (inputs : BTreeMap String ValueReference) :
    Validated (BTreeMap String ResolvedValueReference) :=
  inputs.traverse (fun inputName reference =>
    resolveValueReference document requiredInputs reference
      (nodeInputLocation nodeName role inputName) (role = .finalizer))

/-- Whether a value of this type fits where the message uses it. -/
def messageCompatible (attachment : Bool) (valueType : WorkflowValueType) : Bool :=
  if attachment then
    valueType = .attachmentCollection || valueType = .json || valueType = .file
  else valueType = .text

def validateMessageSource (attachment : Bool) (index : Nat) (source : MessageSource) :
    Validated ValidatedMessageSource :=
  let location := nodeMessageLocation nodeName role index attachment
  match source with
  | .file path => .ok (.file path)
  | .reference reference => do
    let value ← resolveValueReference document requiredInputs reference location
      (role = .finalizer && attachment)
    if messageCompatible attachment value.valueType then
      .ok (.reference value.source value.valueType)
    else reject .messageTypeMismatch location

def validateMessageSources (attachment : Bool) :
    List MessageSource → Nat → Validated (List ValidatedMessageSource)
  | [], _ => .ok []
  | source :: sources, index => do
    let validated ← validateMessageSource document requiredInputs nodeName role attachment
      index source
    let rest ← validateMessageSources attachment sources (index + 1)
    .ok (validated :: rest)

def validateAgent (agent : Agent) (harness : ValidatedHarness) : Validated ValidatedAgent := do
  let text ← validateMessageSources document requiredInputs nodeName role false agent.message.text 0
  let attachments ← validateMessageSources document requiredInputs nodeName role true
    agent.message.attachments 0
  .ok ⟨agent.profile, agent.systemPrompt, ⟨text, attachments⟩, harness⟩

/-- The canonical text under which a condition refers to a value. -/
def canonicalReference : ResolvedValueSource → String
  | .input name => "inputs." ++ name
  | .output source => source.reference
  | .finalizationContext => "finalization.context"

def resolveConditionReference (reference : ValueReference) :
    Validated (String × ResolvedValueSource × ConditionValueKind) := do
  let resolved ← resolveValueReference document requiredInputs reference
    (conditionLocation nodeName role) (role = .finalizer)
  match resolved.valueType with
  | .text => .ok (canonicalReference resolved.source, resolved.source, .text)
  | .json => .ok (canonicalReference resolved.source, resolved.source, .json)
  | .attachmentCollection | .file | .gitBranch =>
    reject .invalidConditionType (conditionLocation nodeName role)

/-- A resolved reference operand of `equals`. -/
structure ReferenceResolution where
  canonical : String
  source : ResolvedValueSource
  kind : ConditionValueKind
  pointer : Option JsonPointer

/-- Resolve the reference of an operand; a literal has none. -/
def resolveOperandReference : ConditionOperand → Validated (Option ReferenceResolution)
  | .literal _ => .ok none
  | .reference reference pointer => do
    let (canonical, source, kind) ←
      resolveConditionReference document requiredInputs nodeName role reference
    if kind = .text ∧ pointer.isSome then
      reject .invalidConditionType (conditionLocation nodeName role)
    else match pointer with
      | none => .ok (some ⟨canonical, source, kind, none⟩)
      | some pointer =>
        match JsonPointer.parse pointer with
        | .ok pointer => .ok (some ⟨canonical, source, kind, some pointer⟩)
        | .error _ => reject .invalidJsonPointer (conditionLocation nodeName role)

/-- The operand in its resolved form; literals take the kind of the comparison. -/
def resolveOperandValue (kind : ConditionValueKind) (operand : ConditionOperand)
    (reference : Option ReferenceResolution)
    (conditionValues : BTreeMap String ResolvedValueSource) :
    Validated (ResolvedOperand × BTreeMap String ResolvedValueSource) :=
  match operand with
  | .reference _ _ =>
    match reference with
    | none => reject .invalidConditionReference (conditionLocation nodeName role)
    | some reference =>
      let operand := match reference.kind with
        | .text => ResolvedOperand.textReference reference.canonical
        | .json => ResolvedOperand.jsonReference reference.canonical reference.pointer
      .ok (operand, conditionValues.insert reference.canonical reference.source)
  | .literal value =>
    match kind, value with
    | .text, .string value => .ok (ResolvedOperand.textLiteral value, conditionValues)
    | .text, _ => reject .invalidConditionType (conditionLocation nodeName role)
    | .json, value => .ok (ResolvedOperand.jsonLiteral value, conditionValues)

def resolveConditionEquals (left right : ConditionOperand)
    (conditionValues : BTreeMap String ResolvedValueSource) :
    Validated (ResolvedPredicate × BTreeMap String ResolvedValueSource) := do
  let leftReference ← resolveOperandReference document requiredInputs nodeName role left
  let rightReference ← resolveOperandReference document requiredInputs nodeName role right
  let kind ← match leftReference, rightReference with
    | none, none => reject .invalidCondition (conditionLocation nodeName role)
    | some leftReference, some rightReference =>
      if leftReference.kind ≠ rightReference.kind then
        reject .invalidConditionType (conditionLocation nodeName role)
      else .ok leftReference.kind
    | some reference, none => .ok reference.kind
    | none, some reference => .ok reference.kind
  let (left, conditionValues) ←
    resolveOperandValue nodeName role kind left leftReference conditionValues
  let (right, conditionValues) ←
    resolveOperandValue nodeName role kind right rightReference conditionValues
  .ok (.equals left right, conditionValues)

mutual

def resolveConditionPredicate :
    ConditionPredicate → BTreeMap String ResolvedValueSource →
      Validated (ResolvedPredicate × BTreeMap String ResolvedValueSource)
  | .all children, conditionValues => do
    let (children, conditionValues) ← resolveConditionChildren children conditionValues
    .ok (.all children, conditionValues)
  | .any children, conditionValues => do
    let (children, conditionValues) ← resolveConditionChildren children conditionValues
    .ok (.any children, conditionValues)
  | .not child, conditionValues => do
    let (child, conditionValues) ← resolveConditionPredicate child conditionValues
    .ok (.not child, conditionValues)
  | .equals left right, conditionValues =>
    resolveConditionEquals document requiredInputs nodeName role left right conditionValues
  | .exists selector, conditionValues => do
    let (canonical, source, kind) ←
      resolveConditionReference document requiredInputs nodeName role selector.reference
    if kind ≠ .json then reject .invalidConditionType (conditionLocation nodeName role)
    else match JsonPointer.parse selector.pointer with
      | .error _ => reject .invalidJsonPointer (conditionLocation nodeName role)
      | .ok pointer =>
        .ok (.exists ⟨canonical, pointer⟩, conditionValues.insert canonical source)
  | .disposition node is, conditionValues => do
    let targetRole ← conditionTargetRole document node (conditionLocation nodeName role)
    .ok (.disposition ⟨node, targetRole⟩ is, conditionValues)
  termination_by structural predicate => predicate

def resolveConditionChildren :
    List ConditionPredicate → BTreeMap String ResolvedValueSource →
      Validated (List ResolvedPredicate × BTreeMap String ResolvedValueSource)
  | [], conditionValues => .ok ([], conditionValues)
  | child :: children, conditionValues => do
    let (child, conditionValues) ← resolveConditionPredicate child conditionValues
    let (children, conditionValues) ← resolveConditionChildren children conditionValues
    .ok (child :: children, conditionValues)
  termination_by structural children => children

end

end References

/-- The descriptor of an output reference, when it can be evidence. -/
def referenceDescriptor (descriptor : String → Except EvidenceError Prerequisite) :
    ValueReference → List Prerequisite
  | .output output =>
    (descriptor (outputReferenceText output.node output.output)).toOption.toList
  | .input _ | .finalizationContext => []

def operandDescriptors : ConditionOperand → List Prerequisite
  | .reference reference _ => referenceDescriptor Prerequisite.mkCondition reference
  | .literal _ => []

mutual

def conditionDescriptors : ConditionPredicate → List Prerequisite
  | .all children => childrenDescriptors children
  | .any children => childrenDescriptors children
  | .not child => conditionDescriptors child
  | .equals left right => operandDescriptors left ++ operandDescriptors right
  | .exists selector => referenceDescriptor Prerequisite.mkCondition selector.reference
  | .disposition node _ => (Prerequisite.mkControl node).toOption.toList
  termination_by structural predicate => predicate

def childrenDescriptors : List ConditionPredicate → List Prerequisite
  | [] => []
  | child :: children => conditionDescriptors child ++ childrenDescriptors children
  termination_by structural children => children

end

/-- The reference of a message source that is one. -/
def MessageSource.reference? : MessageSource → Option ValueReference
  | .reference value => some value
  | .file _ => none

/-- The value references a body makes, in source order. -/
def bodyReferences : NodeBody → List ValueReference
  | .command command => command.inputs.values
  | .agent agent =>
    (agent.agent.message.text ++ agent.agent.message.attachments).filterMap MessageSource.reference?

def evidencePrerequisites (body : NodeBody) (direct : List ResolvedDirectPrerequisite) :
    Validated (List Prerequisite) :=
  let control := (direct.filter ResolvedDirectPrerequisite.control).flatMap (fun prerequisite =>
    (Prerequisite.mkControl prerequisite.producer).toOption.toList)
  let condition := ((commonNode body).condition.map conditionDescriptors).getD []
  let references :=
    (bodyReferences body).flatMap (referenceDescriptor Prerequisite.mkBody)
  let descriptors := Prerequisite.sortDedup (control ++ condition ++ references)
  if maximumPrerequisites < descriptors.length then
    reject .tooManyPrerequisites .workflowGraph
  else .ok descriptors

section Bodies

def validateCommon (common : CommonNode) (condition : Option ResolvedPredicate)
    (conditionValues : BTreeMap String ResolvedValueSource)
    (prerequisites : List ResolvedDirectPrerequisite)
    (evidencePrerequisites : List Prerequisite) : ValidatedCommonStep where
  failurePolicy := common.failurePolicy
  condition := condition
  conditionValues := conditionValues
  prerequisites := prerequisites
  evidencePrerequisites := evidencePrerequisites
  cwd := common.cwd
  outputs := common.outputs.mapWithKey (fun _ output => ⟨output, outputValueType output⟩)

variable (document : WorkflowDocument) (agentProfiles : BTreeMap String ValidatedHarness)
  (requiredInputs : RequiredInputs)

/-- The condition of a body with the values it reads. -/
def resolveBodyCondition (nodeName : String) (role : WorkflowNodeRole) (body : NodeBody) :
    Validated (Option ResolvedPredicate × BTreeMap String ResolvedValueSource) :=
  match (commonNode body).condition with
  | none => .ok (none, .empty)
  | some condition => do
    let (condition, conditionValues) ←
      resolveConditionPredicate document requiredInputs nodeName role condition .empty
    .ok (some condition, conditionValues)

def validateBody (nodeName : String) (role : WorkflowNodeRole) (body : NodeBody)
    (prerequisites : List ResolvedDirectPrerequisite) : Validated ValidatedStep := do
  let (condition, conditionValues) ← resolveBodyCondition document requiredInputs nodeName role body
  let evidence ← evidencePrerequisites body prerequisites
  let common :=
    validateCommon (commonNode body) condition conditionValues prerequisites evidence
  match body with
  | .command command => do
    let inputs ← validateCommandInputs document requiredInputs nodeName role command.inputs
    .ok (.command ⟨common, inputs, command.argv⟩)
  | .agent agent => do
    let harness ← resolveAgentProfile agentProfiles nodeName role agent.agent
    let validated ← validateAgent document requiredInputs nodeName role agent.agent harness
    .ok (.agent ⟨common, validated⟩)

end Bodies

def resolveExport (document : WorkflowDocument) (name : String) (reference : OutputReference) :
    Validated ResolvedOutputSource :=
  match nodeBody document reference.node with
  | none => reject .invalidExportTarget (.export name)
  | some (role, body) =>
    match (commonNode body).outputs.get? reference.output with
    | none => reject .invalidExportTarget (.export name)
    | some output =>
      if (commonNode body).failurePolicy = .advisory then
        reject .advisoryExportTarget (.export name)
      else if role = .finalizer ∧ .succeeded ∉ finalizerWhen document reference.node then
        reject .finalizerExportTrigger (.export name)
      else .ok ⟨⟨reference.node, role⟩, reference.output, outputValueType output⟩

def InputDeclaration.valueType : InputDeclaration → WorkflowValueType
  | .text => .text
  | .json _ => .json
  | .file _ => .file
  | .attachments => .attachmentCollection

def requiredInputs (document : WorkflowDocument) : RequiredInputs :=
  document.inputs.mapWithKey (fun _ declaration => declaration.valueType)

/-- The prerequisites of a node in its validated graph. -/
def ValidatedGraph.prerequisitesOf (graph : ValidatedGraph) (name : String) :
    List ResolvedDirectPrerequisite :=
  (graph.directPrerequisites.get? name).getD []

/-- Semantic validation of a decoded workflow. -/
def validate (document : WorkflowDocument) : Validated ValidatedWorkflow := do
  validateNodeNamespace document
  validateWorkflowConditionBounds document
  let agentProfiles ← validateAgentProfiles document
  let stepGraph ← validateStepGraph document
  let finalizerGraph ← validateFinalizerGraph document
  validateOutputRules document
  let steps ← document.steps.traverse (fun stepName step => do
    let body ← validateBody document agentProfiles (requiredInputs document) stepName .step
      step.body (stepGraph.prerequisitesOf stepName)
    let recovery ← validateRecovery agentProfiles stepName step.recovery
    .ok (body, recovery))
  let finalizers ← document.finalizers.traverse (fun finalizerName finalizer => do
    let body ← validateBody document agentProfiles (requiredInputs document) finalizerName
      .finalizer finalizer.body (finalizerGraph.prerequisitesOf finalizerName)
    .ok { body := body, when := finalizer.when : ValidatedFinalizer })
  let exports ← document.exports.traverse (resolveExport document)
  .ok {
    steps := steps.mapWithKey (fun _ validated => validated.1)
    recoveries := steps.mapWithKey (fun _ validated => validated.2)
    sourceOrder := document.stepOrder
    presentationOrder := stepGraph.presentationOrder
    finalizers := finalizers
    finalizerSourceOrder := document.finalizerOrder
    finalizerPresentationOrder := finalizerGraph.presentationOrder
    exports := exports
    requiredInputs := requiredInputs document
    inputJsonSchemaPaths := document.inputs.filterMap (fun _ declaration =>
      match declaration with
      | .json schema => schema
      | _ => none)
    inputFileMediaTypes := document.inputs.filterMap (fun _ declaration =>
      match declaration with
      | .file mediaType => mediaType
      | _ => none) }

end ScherzoCloud.Workflow
