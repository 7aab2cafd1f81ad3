import ScherzoCloud.Collections.BTreeMap
import ScherzoCloud.Workflow.Json
import Mathlib.Data.Finset.Basic
import Mathlib.Data.String.Basic

/-!
# The workflow document

The authored workflow as `document.rs` decodes it, with the identifier and
count limits that the structural schema has checked by then.  `schema_version`
and `description` are left out: no function of the engine reads them.

`WorkflowDocument` is the plain record.  `DecodedDocument` is a document
together with what the structural schema guarantees about it (`Structural`),
because the engine builds a `WorkflowDocument` only from a value that passed
the schema.
-/

namespace ScherzoCloud.Workflow

open Collections

/-- The two phases share one namespace of nodes. -/
inductive WorkflowNodeRole where
  | step
  | finalizer
  deriving DecidableEq

structure WorkflowNode where
  id : String
  role : WorkflowNodeRole
  deriving DecidableEq

/-- The disposition of a settled node that a condition can test. -/
inductive TerminalDisposition where
  | succeeded
  | failed
  | skipped
  | blocked
  | notRun
  | cancelled
  | inherited
  deriving DecidableEq

/-- How the ordinary phase ended, as far as finalizers can select on it. -/
inductive FinalizationTrigger where
  | succeeded
  | failed
  | cancelled
  deriving DecidableEq

namespace FinalizationTrigger

def asStr : FinalizationTrigger → String
  | succeeded => "succeeded"
  | failed => "failed"
  | cancelled => "cancelled"

end FinalizationTrigger

/-- Whether the failure of a node decides the outcome of the run. -/
inductive FailurePolicy where
  | required
  | advisory
  deriving DecidableEq

instance : Inhabited FailurePolicy := ⟨.required⟩

inductive InputDeclaration where
  | text
  | json (schema : Option String)
  | file (mediaType : Option String)
  | attachments
  deriving DecidableEq

inductive Output where
  | textPath (path : String)
  | textAgentResponse
  | jsonPath (path schema : String)
  | jsonAgentResult (schema : String)
  | filePath (path mediaType : String)
  | gitBranchWorkspace
  deriving DecidableEq

/-- The text of `outputs.node.output`. -/
structure OutputReference where
  node : String
  output : String
  deriving DecidableEq

inductive ValueReference where
  | input (name : String)
  | output (reference : OutputReference)
  | finalizationContext
  deriving DecidableEq

inductive ConditionOperand where
  | reference (reference : ValueReference) (pointer : Option String)
  | literal (value : Json)

structure ConditionSelector where
  reference : ValueReference
  pointer : String

inductive ConditionPredicate where
  | all (children : List ConditionPredicate)
  | any (children : List ConditionPredicate)
  | not (child : ConditionPredicate)
  | equals (left right : ConditionOperand)
  | exists (selector : ConditionSelector)
  | disposition (node : String) (is : TerminalDisposition)

/-- The part of a node that commands and agents share. -/
structure CommonNode where
  failurePolicy : FailurePolicy
  condition : Option ConditionPredicate
  cwd : Option String
  outputs : BTreeMap String Output

structure CommandNode where
  common : CommonNode
  inputs : BTreeMap String ValueReference
  argv : List String

inductive MessageSource where
  | file (path : String)
  | reference (reference : ValueReference)
  deriving DecidableEq

structure AgentMessage where
  text : List MessageSource
  attachments : List MessageSource

structure Agent where
  profile : String
  systemPrompt : String
  message : AgentMessage

structure AgentNode where
  common : CommonNode
  agent : Agent

inductive NodeBody where
  | command (command : CommandNode)
  | agent (agent : AgentNode)

/-- What runs between a failed execution and its recheck. -/
inductive RecoveryHandler where
  | command (argv : List String) (cwd : Option String)
  | agent (profile prompt : String) (cwd : Option String)

structure StepRecovery where
  retries : Nat
  handler : Option RecoveryHandler

structure StepDefinition where
  body : NodeBody
  controlDependencies : List String
  recovery : Option StepRecovery

structure FinalizerDefinition where
  body : NodeBody
  after : List String
  when : Finset FinalizationTrigger

/-- A harness with its uninterpreted configuration. -/
inductive HarnessDefinition where
  | pi (config : Json)
  | claudeCode (config : Json)
  | codex (config : Json)

structure AgentProfile where
  harness : HarnessDefinition

structure WorkflowDocument where
  inputs : BTreeMap String InputDeclaration
  agentProfiles : BTreeMap String AgentProfile
  steps : BTreeMap String StepDefinition
  stepOrder : List String
  finalizers : BTreeMap String FinalizerDefinition
  finalizerOrder : List String
  exports : BTreeMap String OutputReference

/-- The `common` part of either kind of body. -/
def commonNode : NodeBody → CommonNode
  | .command command => command.common
  | .agent agent => agent.common

/-- `Identifier` of the structural schema: `^[a-z][A-Za-z0-9]*$`, at most 64
characters. -/
def isIdentifier (value : String) : Bool :=
  match value.toList with
  | [] => false
  | first :: rest =>
    first.isLower && rest.all Char.isAlphanum && decide (rest.length < 64)

/-- What a document that passed the structural schema satisfies, as far as the
engine relies on it. -/
@[mk_iff]
structure WorkflowDocument.Structural (document : WorkflowDocument) : Prop where
  steps_nonempty : document.steps.entries ≠ []
  step_identifiers : ∀ id ∈ document.steps.keys, isIdentifier id = true
  finalizer_identifiers : ∀ id ∈ document.finalizers.keys, isIdentifier id = true
  step_output_identifiers : ∀ step ∈ document.steps.values,
    ∀ name ∈ (commonNode step.body).outputs.keys, isIdentifier name = true
  finalizer_output_identifiers : ∀ finalizer ∈ document.finalizers.values,
    ∀ name ∈ (commonNode finalizer.body).outputs.keys, isIdentifier name = true
  retries_bounded : ∀ step ∈ document.steps.values,
    ∀ recovery ∈ step.recovery, 1 ≤ recovery.retries ∧ recovery.retries ≤ 10

instance (document : WorkflowDocument) : Decidable document.Structural :=
  decidable_of_iff _ (WorkflowDocument.structural_iff document).symm

/-- A document that passed the structural schema. -/
structure DecodedDocument where
  document : WorkflowDocument
  structural : document.Structural

end ScherzoCloud.Workflow
