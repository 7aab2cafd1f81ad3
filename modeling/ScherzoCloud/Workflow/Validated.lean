import ScherzoCloud.Workflow.Evidence

/-!
# The validated workflow

The output of semantic validation (`validated.rs`): references are resolved to
their producers, conditions to their evaluable form, and every node carries its
direct prerequisites with the reasons why each producer is one.
-/

namespace ScherzoCloud.Workflow

open Collections

inductive WorkflowValueType where
  | text
  | attachmentCollection
  | json
  | file
  | gitBranch
  deriving DecidableEq

abbrev RequiredInputs := BTreeMap String WorkflowValueType

inductive Thinking where
  | off
  | minimal
  | low
  | medium
  | high
  | xHigh
  | max
  deriving DecidableEq

structure PiConfig where
  model : String
  thinking : Thinking
  deriving DecidableEq

inductive ClaudeCodeEffort where
  | low
  | medium
  | high
  | xHigh
  | max
  deriving DecidableEq

structure ClaudeCodeConfig where
  model : String
  effort : ClaudeCodeEffort
  deriving DecidableEq

structure CodexConfig where
  model : String
  effort : String
  deriving DecidableEq

inductive ValidatedHarness where
  | pi (config : PiConfig)
  | claudeCode (config : ClaudeCodeConfig)
  | codex (config : CodexConfig)
  deriving DecidableEq

/-- A closed object with the string members `model` and one other. -/
def closedConfig (other : String) : Json → Option (String × String)
  | .object members =>
    match members.length, Json.member? "model" members, Json.member? other members with
    | 2, some (.string model), some (.string value) => some (model, value)
    | _, _, _ => none
  | _ => none

def Thinking.ofStr : String → Option Thinking
  | "off" => some .off
  | "minimal" => some .minimal
  | "low" => some .low
  | "medium" => some .medium
  | "high" => some .high
  | "xhigh" => some .xHigh
  | "max" => some .max
  | _ => none

def ClaudeCodeEffort.ofStr : String → Option ClaudeCodeEffort
  | "low" => some .low
  | "medium" => some .medium
  | "high" => some .high
  | "xhigh" => some .xHigh
  | "max" => some .max
  | _ => none

/-- `pi::resolve_config`. -/
def PiConfig.resolve (value : Json) : Option PiConfig := do
  let (model, thinking) ← closedConfig "thinking" value
  let thinking ← Thinking.ofStr thinking
  if model = "" then none else some ⟨model, thinking⟩

/-- `claude_code::resolve_config`. -/
def ClaudeCodeConfig.resolve (value : Json) : Option ClaudeCodeConfig := do
  let (model, effort) ← closedConfig "effort" value
  let effort ← ClaudeCodeEffort.ofStr effort
  if model = "" then none else some ⟨model, effort⟩

/-- `codex::resolve_config`. -/
def CodexConfig.resolve (value : Json) : Option CodexConfig := do
  let (model, effort) ← closedConfig "effort" value
  if model ≠ "" ∧ effort ≠ "" then some ⟨model, effort⟩ else none

/-- A direct producer of a node, with every reason why it is one. -/
structure ResolvedDirectPrerequisite where
  producer : String
  control : Bool
  dispositionControl : Bool
  data : Bool
  conditionData : Bool
  deriving DecidableEq

structure ResolvedOutputSource where
  node : WorkflowNode
  output : String
  valueType : WorkflowValueType
  deriving DecidableEq

/-- The canonical text of an output reference. -/
def outputReferenceText (node output : String) : String :=
  "outputs." ++ node ++ "." ++ output

def ResolvedOutputSource.reference (self : ResolvedOutputSource) : String :=
  outputReferenceText self.node.id self.output

inductive ResolvedValueSource where
  | input (name : String)
  | output (source : ResolvedOutputSource)
  | finalizationContext
  deriving DecidableEq

structure ResolvedValueReference where
  source : ResolvedValueSource
  valueType : WorkflowValueType
  deriving DecidableEq

structure ValidatedOutput where
  definition : Output
  valueType : WorkflowValueType
  deriving DecidableEq

structure ValidatedCommonStep where
  failurePolicy : FailurePolicy
  condition : Option ResolvedPredicate
  conditionValues : BTreeMap String ResolvedValueSource
  prerequisites : List ResolvedDirectPrerequisite
  evidencePrerequisites : List Prerequisite
  cwd : Option String
  outputs : BTreeMap String ValidatedOutput

structure ValidatedCommandStep where
  common : ValidatedCommonStep
  inputs : BTreeMap String ResolvedValueReference
  argv : List String

inductive ValidatedMessageSource where
  | file (path : String)
  | reference (source : ResolvedValueSource) (valueType : WorkflowValueType)
  deriving DecidableEq

structure ValidatedAgentMessage where
  text : List ValidatedMessageSource
  attachments : List ValidatedMessageSource

structure ValidatedAgent where
  profile : String
  systemPrompt : String
  message : ValidatedAgentMessage
  harness : ValidatedHarness

structure ValidatedAgentStep where
  common : ValidatedCommonStep
  agent : ValidatedAgent

inductive ValidatedStep where
  | command (command : ValidatedCommandStep)
  | agent (agent : ValidatedAgentStep)

structure ValidatedFinalizer where
  body : ValidatedStep
  when : Finset FinalizationTrigger

inductive ValidatedRecoveryHandler where
  | command (argv : List String) (cwd : Option String)
  | agent (profile prompt : String) (cwd : Option String) (harness : ValidatedHarness)

structure ValidatedStepRecovery where
  retries : Nat
  handler : Option ValidatedRecoveryHandler

structure ValidatedWorkflow where
  steps : BTreeMap String ValidatedStep
  recoveries : BTreeMap String (Option ValidatedStepRecovery)
  sourceOrder : List String
  presentationOrder : List String
  finalizers : BTreeMap String ValidatedFinalizer
  finalizerSourceOrder : List String
  finalizerPresentationOrder : List String
  exports : BTreeMap String ResolvedOutputSource
  requiredInputs : RequiredInputs
  inputJsonSchemaPaths : BTreeMap String String
  inputFileMediaTypes : BTreeMap String String

/-- The part of a validated body that commands and agents share. -/
def commonStep : ValidatedStep → ValidatedCommonStep
  | .command command => command.common
  | .agent agent => agent.common

end ScherzoCloud.Workflow
