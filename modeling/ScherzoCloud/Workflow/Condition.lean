import ScherzoCloud.Workflow.Document

/-!
# Resolved conditions and their evaluation

The evaluator of `condition.rs`.  A condition is evaluated depth first with
short circuits; every completed predicate is appended to the trace after its
children, so that the last entry of a complete trace is the root.  Evaluation
stops without a result when a pointer selects nothing under `equals` or when a
value or disposition the condition needs is not there.

The observer hook of `ConditionValues` is left out: it only serves tests.
-/

namespace ScherzoCloud.Workflow

open Collections

inductive ConditionValueKind where
  | text
  | json
  deriving DecidableEq

inductive ResolvedOperandValue where
  | reference (canonicalRef : String) (pointer : Option JsonPointer)
  | textLiteral (value : String)
  | jsonLiteral (value : Json)

structure ResolvedOperand where
  kind : ConditionValueKind
  value : ResolvedOperandValue

namespace ResolvedOperand

def textReference (canonicalRef : String) : ResolvedOperand :=
  ⟨.text, .reference canonicalRef none⟩

def jsonReference (canonicalRef : String) (pointer : Option JsonPointer) : ResolvedOperand :=
  ⟨.json, .reference canonicalRef pointer⟩

def textLiteral (value : String) : ResolvedOperand := ⟨.text, .textLiteral value⟩

def jsonLiteral (value : Json) : ResolvedOperand := ⟨.json, .jsonLiteral value⟩

end ResolvedOperand

structure ResolvedSelector where
  canonicalRef : String
  pointer : JsonPointer

inductive ResolvedPredicate where
  | all (children : List ResolvedPredicate)
  | any (children : List ResolvedPredicate)
  | not (child : ResolvedPredicate)
  | equals (left right : ResolvedOperand)
  | exists (selector : ResolvedSelector)
  | disposition (node : WorkflowNode) (is : TerminalDisposition)

structure EvaluatedPredicate where
  path : String
  result : Bool
  deriving DecidableEq

inductive UnavailableConditionInput where
  | value (canonicalRef : String)
  | disposition (node : WorkflowNode)
  deriving DecidableEq

/-- The result of one evaluation. -/
inductive ConditionEvaluation where
  | passed
  | false (evaluatedPredicates : List EvaluatedPredicate)
  | failed (canonicalRef pointer : String)
  | unavailable (input : UnavailableConditionInput)
  deriving DecidableEq

inductive CapturedConditionValue where
  | text (value : String)
  | json (value : Json)

/-- The captured values of a condition, by canonical reference. -/
abbrev ConditionValues := BTreeMap String CapturedConditionValue

/-- The dispositions of the settled nodes. -/
abbrev ConditionDispositions := WorkflowNode → Option TerminalDisposition

inductive EvaluationFailure where
  | pointerMissing (canonicalRef pointer : String)
  | unavailable (input : UnavailableConditionInput)
  deriving DecidableEq

inductive SelectedOperand where
  | text (value : String)
  | json (value : Json)

variable (values : ConditionValues) (dispositions : ConditionDispositions)

def resolveOperand (operand : ResolvedOperand) : Except EvaluationFailure SelectedOperand :=
  match operand.value with
  | .textLiteral value => .ok (.text value)
  | .jsonLiteral value => .ok (.json value)
  | .reference canonicalRef pointer =>
    match operand.kind, values.get? canonicalRef with
    | .text, some (.text value) => .ok (.text value)
    | .json, some (.json value) =>
      match pointer with
      | none => .ok (.json value)
      | some pointer =>
        match pointer.select value with
        | some selected => .ok (.json selected)
        | none => .error (.pointerMissing canonicalRef pointer.authored)
    | _, _ => .error (.unavailable (.value canonicalRef))

def resolveJsonReference (canonicalRef : String) : Except EvaluationFailure Json :=
  match values.get? canonicalRef with
  | some (.json value) => .ok value
  | _ => .error (.unavailable (.value canonicalRef))

def operandsEqual : SelectedOperand → SelectedOperand → Bool
  | .text left, .text right => left = right
  | .json left, .json right => jsonSemanticallyEqual left right
  | _, _ => false

/-- The path of a child predicate. -/
def predicatePathChild (path segment : String) : String := path ++ "/" ++ segment

mutual

/-- Evaluate a predicate at a path, appending to the trace. -/
def evaluatePredicate :
    ResolvedPredicate → String → List EvaluatedPredicate →
      Except EvaluationFailure (Bool × List EvaluatedPredicate)
  | .all children, path, trace => do
    let (result, trace) ← evaluateAll children path 0 trace
    .ok (result, trace ++ [⟨path, result⟩])
  | .any children, path, trace => do
    let (result, trace) ← evaluateAny children path 0 trace
    .ok (result, trace ++ [⟨path, result⟩])
  | .not child, path, trace => do
    let (result, trace) ← evaluatePredicate child (predicatePathChild path "not") trace
    .ok (!result, trace ++ [⟨path, !result⟩])
  | .equals left right, path, trace => do
    let left ← resolveOperand values left
    let right ← resolveOperand values right
    let result := operandsEqual left right
    .ok (result, trace ++ [⟨path, result⟩])
  | .exists selector, path, trace => do
    let value ← resolveJsonReference values selector.canonicalRef
    let result := (selector.pointer.select value).isSome
    .ok (result, trace ++ [⟨path, result⟩])
  | .disposition node is, path, trace =>
    match dispositions node with
    | none => .error (.unavailable (.disposition node))
    | some disposition =>
      .ok (disposition = is, trace ++ [⟨path, disposition = is⟩])
  termination_by structural predicate => predicate

/-- The children of an `all` from an index on, up to the first false one. -/
def evaluateAll :
    List ResolvedPredicate → String → Nat → List EvaluatedPredicate →
      Except EvaluationFailure (Bool × List EvaluatedPredicate)
  | [], _, _, trace => .ok (true, trace)
  | child :: children, path, index, trace => do
    let (result, trace) ←
      evaluatePredicate child (predicatePathChild path ("all/" ++ toString index)) trace
    if result then evaluateAll children path (index + 1) trace
    else .ok (false, trace)
  termination_by structural children => children

/-- The children of an `any` from an index on, up to the first true one. -/
def evaluateAny :
    List ResolvedPredicate → String → Nat → List EvaluatedPredicate →
      Except EvaluationFailure (Bool × List EvaluatedPredicate)
  | [], _, _, trace => .ok (false, trace)
  | child :: children, path, index, trace => do
    let (result, trace) ←
      evaluatePredicate child (predicatePathChild path ("any/" ++ toString index)) trace
    if result then .ok (true, trace)
    else evaluateAny children path (index + 1) trace
  termination_by structural children => children

end

/-- Evaluate a whole condition. -/
def evaluate (predicate : ResolvedPredicate) : ConditionEvaluation :=
  match evaluatePredicate values dispositions predicate "" [] with
  | .ok (true, _) => .passed
  | .ok (false, trace) => .false trace
  | .error (.pointerMissing canonicalRef pointer) => .failed canonicalRef pointer
  | .error (.unavailable input) => .unavailable input

end ScherzoCloud.Workflow
