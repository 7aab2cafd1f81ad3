import ScherzoCloud.Collections.TopologicalOrder
import ScherzoCloud.Workflow.Validated

/-!
# Semantic validation: namespace, condition bounds and dependency graphs

The first half of `validation.rs`.  Steps and finalizers share one namespace;
each phase has its own dependency graph, whose edges come from control
dependencies, from the conditions and from the bodies of the nodes.  A producer
is entered once per consumer, with a flag for each reason.

Look-ups that the source writes as indexing (`document.finalizers[name]`) are
total here; they are only reached for names that exist.
-/

namespace ScherzoCloud.Workflow

open Collections

inductive ValidationFailureKind where
  | missingDependency
  | selfDependency
  | duplicateDependency
  | dependencyCycle
  | invalidAgentProfileConfig
  | unknownAgentProfile
  | unknownInput
  | unknownOutputStep
  | unknownOutput
  | messageTypeMismatch
  | terminalOutputReference
  | illegalCommandOutput
  | excessAgentResponseOutput
  | excessAgentResultOutput
  | conflictingAgentValueOutputs
  | excessWorkspaceOutput
  | duplicateOutputPath
  | advisoryDataDependency
  | invalidExportTarget
  | advisoryExportTarget
  | tooManyNodes
  | duplicateNodeId
  | invalidSourceOrder
  | crossPhaseOutputReference
  | invalidFinalizerAfterTarget
  | invalidFinalizerTrigger
  | incompatibleFinalizerTriggers
  | invalidFinalizationContext
  | finalizerExportTrigger
  | tooManyPrerequisites
  | invalidCondition
  | invalidConditionReference
  | invalidConditionType
  | invalidJsonPointer
  | conditionDepthExceeded
  | conditionNodeLimitExceeded
  | conditionChildLimitExceeded
  | workflowConditionNodeLimitExceeded
  deriving DecidableEq

inductive ValidationLocation where
  | workflowGraph
  | workflowNamespace
  | agentProfile (profile : String)
  | agentProfileReference (step : String)
  | recoveryAgentProfileReference (step : String)
  | finalizerAgentProfileReference (finalizer : String)
  | stepDependency (step : String) (index : Nat)
  | stepInput (step input : String)
  | messageText (step : String) (index : Nat)
  | messageAttachment (step : String) (index : Nat)
  | stepOutput (step output : String)
  | stepCondition (step : String)
  | finalizerAfter (finalizer : String) (index : Nat)
  | finalizerInput (finalizer input : String)
  | finalizerMessageText (finalizer : String) (index : Nat)
  | finalizerMessageAttachment (finalizer : String) (index : Nat)
  | finalizerOutput (finalizer output : String)
  | finalizerCondition (finalizer : String)
  | export (name : String)
  deriving DecidableEq

structure ValidationFailure where
  kind : ValidationFailureKind
  location : ValidationLocation
  deriving DecidableEq

/-- The result of a validation step. -/
abbrev Validated := Except ValidationFailure

/-- Fail at a location. -/
def reject {α : Type} (kind : ValidationFailureKind) (location : ValidationLocation) :
    Validated α :=
  .error ⟨kind, location⟩

def conditionLocation (name : String) : WorkflowNodeRole → ValidationLocation
  | .step => .stepCondition name
  | .finalizer => .finalizerCondition name

def nodeInputLocation (name : String) (role : WorkflowNodeRole) (input : String) :
    ValidationLocation :=
  match role with
  | .step => .stepInput name input
  | .finalizer => .finalizerInput name input

def nodeMessageLocation (name : String) (role : WorkflowNodeRole) (index : Nat)
    (attachment : Bool) : ValidationLocation :=
  match role, attachment with
  | .step, false => .messageText name index
  | .step, true => .messageAttachment name index
  | .finalizer, false => .finalizerMessageText name index
  | .finalizer, true => .finalizerMessageAttachment name index

def nodeOutputLocation (name : String) (role : WorkflowNodeRole) (output : String) :
    ValidationLocation :=
  match role with
  | .step => .stepOutput name output
  | .finalizer => .finalizerOutput name output

variable (document : WorkflowDocument)

def nodeBody (name : String) : Option (WorkflowNodeRole × NodeBody) :=
  match document.steps.get? name with
  | some step => some (.step, step.body)
  | none => (document.finalizers.get? name).map (fun finalizer => (.finalizer, finalizer.body))

def nodeCommon (name : String) : WorkflowNodeRole → Option CommonNode
  | .step => (document.steps.get? name).map (fun step => commonNode step.body)
  | .finalizer => (document.finalizers.get? name).map (fun finalizer => commonNode finalizer.body)

/-- The triggers of a finalizer. -/
def finalizerWhen (name : String) : Finset FinalizationTrigger :=
  ((document.finalizers.get? name).map FinalizerDefinition.when).getD ∅

def declaredOutput (reference : OutputReference) (location : ValidationLocation) :
    Validated (WorkflowNodeRole × NodeBody × Output) :=
  match nodeBody document reference.node with
  | none => reject .unknownOutputStep location
  | some (role, body) =>
    match (commonNode body).outputs.get? reference.output with
    | none => reject .unknownOutput location
    | some output => .ok (role, body, output)

def conditionTargetRole (node : String) (location : ValidationLocation) :
    Validated WorkflowNodeRole :=
  if document.steps.contains node then .ok .step
  else if document.finalizers.contains node then .ok .finalizer
  else reject .invalidConditionReference location

def maximumWorkflowNodes : Nat := 256

/-- A source order lists every node once and nothing else. -/
def validateSourceOrder {α : Type} (nodes : BTreeMap String α) (sourceOrder : List String) :
    Validated Unit :=
  if sourceOrder.length ≠ nodes.size
      ∨ ¬ sourceOrder.Nodup
      ∨ sourceOrder.any (fun id => !nodes.contains id) then
    reject .invalidSourceOrder .workflowNamespace
  else .ok ()

def validateNodeNamespace (document : WorkflowDocument) : Validated Unit := do
  if maximumWorkflowNodes < document.steps.size + document.finalizers.size then
    reject .tooManyNodes .workflowNamespace
  else if document.steps.keys.any (fun id => document.finalizers.contains id) then
    reject .duplicateNodeId .workflowNamespace
  else
    validateSourceOrder document.steps document.stepOrder
    validateSourceOrder document.finalizers document.finalizerOrder

def maximumConditionDepth : Nat := 16
def maximumConditionNodes : Nat := 256
def maximumConditionChildren : Nat := 64
def maximumWorkflowConditionNodes : Nat := 4096

mutual

/-- Number of predicates of a condition within all its limits. -/
def conditionNodeCount (location : ValidationLocation) :
    ConditionPredicate → Nat → Validated Nat
  | predicate, depth =>
    if maximumConditionDepth < depth then reject .conditionDepthExceeded location
    else match predicate with
      | .all children | .any children =>
        if children.isEmpty ∨ maximumConditionChildren < children.length then
          reject .conditionChildLimitExceeded location
        else conditionChildrenCount location children depth 1
      | .not child => do
        let count ← conditionNodeCount location child (depth + 1)
        if maximumConditionNodes < 1 + count then
          reject .conditionNodeLimitExceeded location
        else .ok (1 + count)
      | .equals _ _ | .exists _ | .disposition _ _ => .ok 1
  termination_by structural predicate => predicate

/-- Add the counts of children to a running count. -/
def conditionChildrenCount (location : ValidationLocation) :
    List ConditionPredicate → Nat → Nat → Validated Nat
  | [], _, count => .ok count
  | child :: children, depth, count => do
    let added ← conditionNodeCount location child (depth + 1)
    if maximumConditionNodes < count + added then
      reject .conditionNodeLimitExceeded location
    else conditionChildrenCount location children depth (count + added)
  termination_by structural children => children

end

/-- Every node with its role and condition, steps before finalizers. -/
def nodeConditions (document : WorkflowDocument) :
    List (String × WorkflowNodeRole × Option ConditionPredicate) :=
  document.steps.entries.map
      (fun e => (e.1, .step, (commonNode e.2.body).condition)) ++
    document.finalizers.entries.map (fun e => (e.1, .finalizer, (commonNode e.2.body).condition))

def validateWorkflowConditionBounds (document : WorkflowDocument) : Validated Unit := do
  let _ ← (nodeConditions document).foldlM (fun (total : Nat) node =>
    match node.2.2 with
    | none => .ok total
    | some condition => do
      let count ← conditionNodeCount (conditionLocation node.1 node.2.1) condition 1
      if maximumWorkflowConditionNodes < total + count then
        reject .workflowConditionNodeLimitExceeded .workflowGraph
      else .ok (total + count)) 0
  .ok ()

/-- The direct prerequisites found so far, by producer. -/
abbrev PrerequisiteMap := BTreeMap String ResolvedDirectPrerequisite

/-- Enter a control dependency of a node. -/
def insertControlPrerequisite (consumer dependency : String) (seen : List String)
    (prerequisites : PrerequisiteMap) (targetExists : Bool)
    (missingKind : ValidationFailureKind) (location : ValidationLocation) :
    Validated PrerequisiteMap :=
  if dependency = consumer then reject .selfDependency location
  else if dependency ∈ seen then reject .duplicateDependency location
  else if !targetExists then reject missingKind location
  else .ok (prerequisites.insert dependency ⟨dependency, true, false, false, false⟩)

/-- Enter the control dependencies of a node from an index on. -/
def insertControlPrerequisites (consumer : String) (targetExists : String → Bool)
    (missingKind : ValidationFailureKind) (location : Nat → ValidationLocation) :
    List String → Nat → List String → PrerequisiteMap → Validated PrerequisiteMap
  | [], _, _, prerequisites => .ok prerequisites
  | dependency :: dependencies, index, seen, prerequisites => do
    let prerequisites ← insertControlPrerequisite consumer dependency seen prerequisites
      (targetExists dependency) missingKind (location index)
    insertControlPrerequisites consumer targetExists missingKind location dependencies
      (index + 1) (dependency :: seen) prerequisites

/-- Enter a producer whose value is read by the body or by the condition. -/
def markDataPrerequisite (prerequisites : PrerequisiteMap) (producer : String)
    (conditionData : Bool) : PrerequisiteMap :=
  match prerequisites.get? producer with
  | some prerequisite =>
    prerequisites.insert producer
      { prerequisite with
        data := true
        conditionData := prerequisite.conditionData || conditionData }
  | none => prerequisites.insert producer ⟨producer, false, false, true, conditionData⟩

/-- Enter a producer whose disposition the condition tests. -/
def markDispositionPrerequisite (prerequisites : PrerequisiteMap) (producer : String) :
    PrerequisiteMap :=
  match prerequisites.get? producer with
  | some prerequisite =>
    prerequisites.insert producer { prerequisite with dispositionControl := true }
  | none => prerequisites.insert producer ⟨producer, false, true, false, false⟩

variable (document : WorkflowDocument) (consumerName : String) (consumerRole : WorkflowNodeRole)

/-- A finalizer may only read finalizers that run whenever it runs. -/
def validateFinalizerTriggerCompatibility (producerName : String)
    (producerRole : WorkflowNodeRole) (location : ValidationLocation) : Validated Unit :=
  if consumerRole = .finalizer ∧ producerRole = .finalizer
      ∧ ¬ finalizerWhen document consumerName ⊆ finalizerWhen document producerName then
    reject .incompatibleFinalizerTriggers location
  else .ok ()

/-- A required node may not read the outputs of an advisory one. -/
def validateDataDependencyAuthority (producerName : String) (producerRole : WorkflowNodeRole)
    (producerPolicy : FailurePolicy) (location : ValidationLocation) : Validated Unit :=
  if producerPolicy = .advisory
      ∧ (nodeCommon document consumerName consumerRole).map CommonNode.failurePolicy
          = some .required then
    reject .advisoryDataDependency location
  else
    validateFinalizerTriggerCompatibility document consumerName consumerRole producerName
      producerRole location

/-- Whether a condition can read an output of this kind. -/
def Output.isConditionValue : Output → Bool
  | .textPath _ | .textAgentResponse | .jsonPath _ _ | .jsonAgentResult _ => true
  | .filePath _ _ | .gitBranchWorkspace => false

def inferConditionValueReference (reference : ValueReference)
    (prerequisites : PrerequisiteMap) : Validated PrerequisiteMap :=
  let location := conditionLocation consumerName consumerRole
  match reference with
  | .input name =>
    match document.inputs.get? name with
    | some .text | some (.json _) => .ok prerequisites
    | _ => reject .invalidConditionReference location
  | .finalizationContext =>
    if consumerRole = .finalizer then .ok prerequisites
    else reject .invalidConditionReference location
  | .output reference => do
    let (producerRole, producerBody, output) ← declaredOutput document reference location
    if !output.isConditionValue
        || (reference.node = consumerName && producerRole = consumerRole)
        || (consumerRole = .step && producerRole = .finalizer) then
      reject .invalidConditionReference location
    else
      validateDataDependencyAuthority document consumerName consumerRole reference.node
        producerRole (commonNode producerBody).failurePolicy location
      if consumerRole = producerRole then
        .ok (markDataPrerequisite prerequisites reference.node true)
      else .ok prerequisites

def inferConditionOperand (operand : ConditionOperand) (prerequisites : PrerequisiteMap) :
    Validated PrerequisiteMap :=
  match operand with
  | .reference reference _ =>
    inferConditionValueReference document consumerName consumerRole reference prerequisites
  | .literal _ => .ok prerequisites

mutual

def inferConditionPrerequisites :
    ConditionPredicate → PrerequisiteMap → Validated PrerequisiteMap
  | .all children, prerequisites => inferChildrenPrerequisites children prerequisites
  | .any children, prerequisites => inferChildrenPrerequisites children prerequisites
  | .not child, prerequisites => inferConditionPrerequisites child prerequisites
  | .equals left right, prerequisites => do
    let prerequisites ← inferConditionOperand document consumerName consumerRole left prerequisites
    inferConditionOperand document consumerName consumerRole right prerequisites
  | .exists selector, prerequisites =>
    inferConditionValueReference document consumerName consumerRole selector.reference prerequisites
  | .disposition node _, prerequisites => do
    let location := conditionLocation consumerName consumerRole
    let targetRole ← conditionTargetRole document node location
    if (node = consumerName && targetRole = consumerRole)
        || (consumerRole = .step && targetRole ≠ .step) then
      reject .invalidConditionReference location
    else if consumerRole = targetRole then
      .ok (markDispositionPrerequisite prerequisites node)
    else .ok prerequisites
  termination_by structural predicate => predicate

def inferChildrenPrerequisites :
    List ConditionPredicate → PrerequisiteMap → Validated PrerequisiteMap
  | [], prerequisites => .ok prerequisites
  | child :: children, prerequisites => do
    let prerequisites ← inferConditionPrerequisites child prerequisites
    inferChildrenPrerequisites children prerequisites
  termination_by structural children => children

end

/-- Enter the producer of a value that the body reads. -/
def inferReferencePrerequisite (reference : ValueReference) (prerequisites : PrerequisiteMap)
    (location : ValidationLocation) (contextAllowed : Bool) : Validated PrerequisiteMap :=
  match reference with
  | .input _ => .ok prerequisites
  | .finalizationContext =>
    if contextAllowed then .ok prerequisites
    else reject .invalidFinalizationContext location
  | .output reference => do
    let (producerRole, producerBody, output) ← declaredOutput document reference location
    if output = .gitBranchWorkspace then reject .terminalOutputReference location
    else if reference.node = consumerName ∧ producerRole = consumerRole then
      reject .selfDependency location
    else if consumerRole = .step ∧ producerRole = .finalizer then
      reject .crossPhaseOutputReference location
    else
      validateDataDependencyAuthority document consumerName consumerRole reference.node
        producerRole (commonNode producerBody).failurePolicy location
      if consumerRole = producerRole then
        .ok (markDataPrerequisite prerequisites reference.node false)
      else .ok prerequisites

def inferMessagePrerequisite (source : MessageSource) (prerequisites : PrerequisiteMap)
    (location : ValidationLocation) (contextAllowed : Bool) : Validated PrerequisiteMap :=
  match source with
  | .reference reference =>
    inferReferencePrerequisite document consumerName consumerRole reference prerequisites
      location contextAllowed
  | .file _ => .ok prerequisites

/-- Enter the producers of the sources of a message from an index on. -/
def inferMessagePrerequisites (attachment contextAllowed : Bool) :
    List MessageSource → Nat → PrerequisiteMap → Validated PrerequisiteMap
  | [], _, prerequisites => .ok prerequisites
  | source :: sources, index, prerequisites => do
    let prerequisites ← inferMessagePrerequisite document consumerName consumerRole source
      prerequisites (nodeMessageLocation consumerName consumerRole index attachment)
      contextAllowed
    inferMessagePrerequisites attachment contextAllowed sources (index + 1) prerequisites

/-- Enter the producers of command inputs. -/
def inferInputPrerequisites :
    List (String × ValueReference) → PrerequisiteMap → Validated PrerequisiteMap
  | [], prerequisites => .ok prerequisites
  | (input, reference) :: inputs, prerequisites => do
    let prerequisites ← inferReferencePrerequisite document consumerName consumerRole reference
      prerequisites (nodeInputLocation consumerName consumerRole input)
      (consumerRole = .finalizer)
    inferInputPrerequisites inputs prerequisites

def inferBodyPrerequisites (body : NodeBody) (prerequisites : PrerequisiteMap) :
    Validated PrerequisiteMap :=
  match body with
  | .command command =>
    inferInputPrerequisites document consumerName consumerRole command.inputs.entries prerequisites
  | .agent agent => do
    let prerequisites ← inferMessagePrerequisites document consumerName consumerRole false
      false agent.agent.message.text 0 prerequisites
    inferMessagePrerequisites document consumerName consumerRole true
      (consumerRole = .finalizer) agent.agent.message.attachments 0 prerequisites

/-- What condition and body add to the control prerequisites of a node. -/
def inferNodePrerequisites (body : NodeBody) (prerequisites : PrerequisiteMap) :
    Validated PrerequisiteMap := do
  let prerequisites ← match (commonNode body).condition with
    | none => .ok prerequisites
    | some condition =>
      inferConditionPrerequisites document consumerName consumerRole condition prerequisites
  inferBodyPrerequisites document consumerName consumerRole body prerequisites

variable (document : WorkflowDocument)

def resolveStepPrerequisites (stepName : String) (step : StepDefinition) :
    Validated (List ResolvedDirectPrerequisite) := do
  let prerequisites ← insertControlPrerequisites stepName
    (fun dependency => document.steps.contains dependency) .missingDependency
    (.stepDependency stepName) step.controlDependencies 0 [] .empty
  let prerequisites ← inferNodePrerequisites document stepName .step step.body prerequisites
  .ok prerequisites.values

def resolveFinalizerPrerequisites (finalizerName : String) (finalizer : FinalizerDefinition) :
    Validated (List ResolvedDirectPrerequisite) := do
  if finalizer.when = ∅ then reject .invalidFinalizerTrigger .workflowGraph
  else
    let prerequisites ← insertControlPrerequisites finalizerName
      (fun dependency => document.finalizers.contains dependency) .invalidFinalizerAfterTarget
      (.finalizerAfter finalizerName) finalizer.after 0 [] .empty
    let prerequisites ←
      inferNodePrerequisites document finalizerName .finalizer finalizer.body prerequisites
    .ok prerequisites.values

structure ValidatedGraph where
  directPrerequisites : BTreeMap String (List ResolvedDirectPrerequisite)
  presentationOrder : List String

/-- The producers of every node. -/
def graphProducers (directPrerequisites : BTreeMap String (List ResolvedDirectPrerequisite)) :
    BTreeMap String (List String) :=
  directPrerequisites.mapWithKey
    (fun _ prerequisites => prerequisites.map ResolvedDirectPrerequisite.producer)

/-- Order the nodes after their producers; a cycle leaves some node out. -/
def validateGraph (directPrerequisites : BTreeMap String (List ResolvedDirectPrerequisite))
    (sourceOrder : List String) (nodeCount : Nat) : Validated ValidatedGraph :=
  let presentationOrder :=
    TopologicalOrder.order (graphProducers directPrerequisites) sourceOrder
  if presentationOrder.length ≠ nodeCount then reject .dependencyCycle .workflowGraph
  else .ok ⟨directPrerequisites, presentationOrder⟩

def validateStepGraph : Validated ValidatedGraph := do
  let directPrerequisites ← document.steps.traverse (resolveStepPrerequisites document)
  validateGraph directPrerequisites document.stepOrder document.steps.size

def validateFinalizerGraph : Validated ValidatedGraph := do
  let directPrerequisites ← document.finalizers.traverse (resolveFinalizerPrerequisites document)
  validateGraph directPrerequisites document.finalizerOrder document.finalizers.size

end ScherzoCloud.Workflow
