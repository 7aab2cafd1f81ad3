import ScherzoCloud.Workflow.DefinitionFacts

/-!
# What an accepted definition says about the values its nodes read

The reducer looks at a node through its prerequisites, its evidence descriptors
and the sources of its inputs and of its condition.  For a workflow that passed
the structural schema and `validate` these four agree: every source has a
producer that declares the output, a descriptor that names it, and, inside one
phase, a prerequisite that waits for it.
-/

namespace ScherzoCloud.Workflow

open Collections
open RuntimeDefinition (fromAdmitted)
open Prerequisite (sortDedup mkControl mkCondition mkBody)

variable {p : Prerequisite} {body producerBody : NodeBody} {document : WorkflowDocument}
  {role : WorkflowNodeRole} {reference : ValueReference} {m : BTreeMap String ResolvedValueSource}
  {source : ResolvedValueSource} {operand : ConditionOperand}
  {resolved : Option ReferenceResolution} {id : String} {descriptor : String → Prerequisite}
  {output : Output}

theorem Prerequisite.mem_sortDedup {prerequisites : List Prerequisite} :
    p ∈ sortDedup prerequisites ↔ p ∈ prerequisites := by
  simp [sortDedup]

theorem Prerequisite.sortDedup_nodup (prerequisites : List Prerequisite) :
    (sortDedup prerequisites).Nodup :=
  List.nodup_dedup _

theorem Prerequisite.mem_mkControl {node : String} :
    p ∈ (mkControl node).toOption.toList ↔ node ≠ "" ∧ p = .control node := by
  unfold mkControl
  split_ifs with hnode
  · simp [Except.toOption, hnode]
  · simp [Except.toOption, hnode]

theorem Prerequisite.mem_mkCondition {reference : String} :
    p ∈ (mkCondition reference).toOption.toList ↔
      isOutputReference reference = true ∧ p = .condition reference := by
  unfold mkCondition
  split_ifs with href
  · simp [Except.toOption, href]
  · simp [Except.toOption, href]

theorem Prerequisite.mem_mkBody {reference : String} : p ∈ (mkBody reference).toOption.toList ↔
      isOutputReference reference = true ∧ p = .body reference := by
  unfold mkBody
  split_ifs with href
  · simp [Except.toOption, href]
  · simp [Except.toOption, href]

/-- The descriptors of one leaf of a condition. -/
def leafDescriptors : ConditionLeaf → List Prerequisite
  | .value reference => referenceDescriptor mkCondition reference
  | .disposition node => (mkControl node).toOption.toList

theorem operandDescriptors_eq (operand : ConditionOperand) :
    operandDescriptors operand = (operandLeaves operand).flatMap leafDescriptors := by
  cases operand with
  | reference => simp [operandDescriptors, operandLeaves, leafDescriptors]
  | literal => rfl

mutual

theorem conditionDescriptors_eq (condition : ConditionPredicate) :
    conditionDescriptors condition = (conditionLeaves condition).flatMap leafDescriptors := by
  match condition with
  | .all children | .any children =>
    simp only [conditionDescriptors, conditionLeaves]
    exact childrenDescriptors_eq children
  | .not child =>
    simp only [conditionDescriptors, conditionLeaves]
    exact conditionDescriptors_eq child
  | .equals left right =>
    simp only [conditionDescriptors, conditionLeaves, List.flatMap_append, operandDescriptors_eq]
  | .exists selector | .disposition node is =>
    simp [conditionDescriptors, conditionLeaves, leafDescriptors]
  termination_by structural condition

theorem childrenDescriptors_eq (children : List ConditionPredicate) :
    childrenDescriptors children = (childrenLeaves children).flatMap leafDescriptors := by
  match children with
  | [] => rfl
  | child :: children =>
    simp only [childrenDescriptors, childrenLeaves, List.flatMap_append]
    rw [conditionDescriptors_eq child, childrenDescriptors_eq children]
  termination_by structural children

end

theorem evidencePrerequisites_ok {direct : List ResolvedDirectPrerequisite}
    {evidence : List Prerequisite} (h : evidencePrerequisites body direct = .ok evidence) :
    evidence.length ≤ maximumPrerequisites ∧ ∀ descriptor, descriptor ∈ evidence ↔
        (∃ p ∈ direct, p.control = true ∧ p.producer ≠ "" ∧ descriptor = .control p.producer) ∨
        (∃ leaf ∈ bodyLeaves body, descriptor ∈ leafDescriptors leaf) ∨
        ∃ reference ∈ bodyReferences body, descriptor ∈ referenceDescriptor mkBody reference := by
  have hleaves : ((commonNode body).condition.map conditionDescriptors).getD [] =
      (bodyLeaves body).flatMap leafDescriptors := by
    unfold bodyLeaves
    cases (commonNode body).condition with
    | none => rfl
    | some condition => exact conditionDescriptors_eq condition
  unfold evidencePrerequisites at h
  dsimp only at h
  rw [hleaves] at h
  split_ifs at h with hcount
  · cases h
  · cases h
    refine ⟨Nat.le_of_not_lt hcount, fun descriptor => ?_⟩
    simp only [Prerequisite.mem_sortDedup, List.mem_append, List.mem_flatMap, List.mem_filter,
      Prerequisite.mem_mkControl, or_assoc]
    simp only [and_assoc]

variable {inputs : RequiredInputs} {name : String}

/-- The source of a value that a condition reads: an input is text or JSON. -/
def ConditionSource (document : WorkflowDocument) (inputs : RequiredInputs)
    (reference : ValueReference) (source : ResolvedValueSource) : Prop :=
  ResolvesTo document reference source ∧
    ∀ input, source = .input input → inputs.get? input = some .text ∨ inputs.get? input = some .json

theorem resolveConditionReference_ok {resolved : String × ResolvedValueSource × ConditionValueKind}
    (h : resolveConditionReference document inputs name role reference = .ok resolved) :
    ConditionSource document inputs reference resolved.2.1 := by
  obtain ⟨value, hvalue, h⟩ := bind_eq_ok_iff.mp h
  have hresolves := resolveValueReference_ok hvalue
  have hinput : ∀ input, value.source = .input input →
      inputs.get? input = some value.valueType := by
    intro input hsource
    cases reference with
    | input reference =>
      simp only [resolveValueReference] at hvalue
      split at hvalue
      · cases hvalue
      · rename_i valueType hget
        cases hvalue
        cases hsource
        exact hget
    | finalizationContext =>
      rw [hsource] at hresolves
      cases hresolves
    | output =>
      obtain ⟨producerRole, valueType, -, heq⟩ := hresolves
      rw [hsource] at heq
      cases heq
  cases htype : value.valueType with
  | text =>
    rw [htype] at h hinput
    cases h
    exact ⟨hresolves, fun input hsource => Or.inl (hinput input hsource)⟩
  | json =>
    rw [htype] at h hinput
    cases h
    exact ⟨hresolves, fun input hsource => Or.inr (hinput input hsource)⟩
  | attachmentCollection | file | gitBranch =>
    rw [htype] at h
    cases h

/-- Resolving a part of a condition adds only sources of values that the part reads. -/
def SourcesFrom (document : WorkflowDocument) (inputs : RequiredInputs)
    (leaves : List ConditionLeaf) (before after : BTreeMap String ResolvedValueSource) : Prop :=
  ∀ canonical source, after.get? canonical = some source →
    before.get? canonical = some source ∨
      ∃ reference, .value reference ∈ leaves ∧ ConditionSource document inputs reference source

namespace SourcesFrom

variable {left right : List ConditionLeaf} {m' m'' : BTreeMap String ResolvedValueSource}

theorem refl (leaves : List ConditionLeaf) (m : BTreeMap String ResolvedValueSource) :
    SourcesFrom document inputs leaves m m :=
  fun _ _ h => Or.inl h

theorem append (h : SourcesFrom document inputs left m m')
    (h' : SourcesFrom document inputs right m' m'') :
    SourcesFrom document inputs (left ++ right) m m'' := by
  intro canonical source hget
  rcases h' canonical source hget with hget | ⟨reference, hmem, hsource⟩
  · rcases h canonical source hget with hget | ⟨reference, hmem, hsource⟩
    · exact Or.inl hget
    · exact Or.inr ⟨reference, List.mem_append_left _ hmem, hsource⟩
  · exact Or.inr ⟨reference, List.mem_append_right _ hmem, hsource⟩

theorem insert (h : ConditionSource document inputs reference source) (canonical : String)
    (m : BTreeMap String ResolvedValueSource) :
    SourcesFrom document inputs [.value reference] m (m.insert canonical source) := by
  intro other source' hget
  rw [BTreeMap.get?_insert] at hget
  split_ifs at hget with heq
  · cases hget
    exact Or.inr ⟨reference, List.mem_singleton_self _, h⟩
  · exact Or.inl hget

end SourcesFrom

theorem resolveOperandReference_ok
    (h : resolveOperandReference document inputs name role operand = .ok resolved) :
    ∀ resolution ∈ resolved, ∃ reference pointer, operand = .reference reference pointer ∧
      ConditionSource document inputs reference resolution.source := by
  cases operand with
  | literal =>
    cases h
    simp
  | reference reference pointer =>
    obtain ⟨⟨canonical, source, kind⟩, hreference, h⟩ := bind_eq_ok_iff.mp h
    have hsource := resolveConditionReference_ok hreference
    dsimp only at h
    intro resolution hmem
    refine ⟨reference, pointer, rfl, ?_⟩
    split_ifs at h
    · cases h
    · split at h
      · cases h
        cases hmem
        exact hsource
      · split at h
        · cases h
          cases hmem
          exact hsource
        · cases h

theorem resolveOperandValue_ok {kind : ConditionValueKind}
    {value : ResolvedOperand × BTreeMap String ResolvedValueSource}
    (hresolved : resolveOperandReference document inputs name role operand = .ok resolved)
    (h : resolveOperandValue name role kind operand resolved m = .ok value) :
    SourcesFrom document inputs (operandLeaves operand) m value.2 := by
  have hsources := resolveOperandReference_ok hresolved
  cases operand with
  | literal =>
    have hvalue : value.2 = m := by
      simp only [resolveOperandValue] at h
      split at h <;> cases h <;> rfl
    rw [hvalue]
    exact .refl _ _
  | reference =>
    simp only [resolveOperandValue] at h
    cases resolved with
    | none => cases h
    | some resolution =>
      obtain ⟨reference', pointer', heq, hsource⟩ := hsources resolution rfl
      cases heq
      cases h
      exact .insert hsource _ _

theorem resolveConditionEquals_ok {left right : ConditionOperand}
    {resolved : ResolvedPredicate × BTreeMap String ResolvedValueSource}
    (h : resolveConditionEquals document inputs name role left right m = .ok resolved) :
    SourcesFrom document inputs (operandLeaves left ++ operandLeaves right) m resolved.2 := by
  obtain ⟨leftReference, hleft, h⟩ := bind_eq_ok_iff.mp h
  obtain ⟨rightReference, hright, h⟩ := bind_eq_ok_iff.mp h
  -- The kind of the comparison does not matter for the sources.
  have hkind : ∃ kind, (do
      let left ← resolveOperandValue name role kind left leftReference m
      let right ← resolveOperandValue name role kind right rightReference left.2
      .ok (ResolvedPredicate.equals left.1 right.1, right.2)) = .ok resolved := by
    dsimp only at h
    split at h
    · cases h
    · split_ifs at h
      · cases h
      · exact ⟨_, h⟩
    · exact ⟨_, h⟩
    · exact ⟨_, h⟩
  obtain ⟨kind, h⟩ := hkind
  obtain ⟨⟨left', m'⟩, hleftValue, h⟩ := bind_eq_ok_iff.mp h
  obtain ⟨⟨right', m''⟩, hrightValue, h⟩ := bind_eq_ok_iff.mp h
  cases h
  exact (resolveOperandValue_ok hleft hleftValue).append (resolveOperandValue_ok hright hrightValue)

mutual

theorem resolveConditionPredicate_sources (condition : ConditionPredicate)
    {m : BTreeMap String ResolvedValueSource}
    {resolved : ResolvedPredicate × BTreeMap String ResolvedValueSource}
    (h : resolveConditionPredicate document inputs name role condition m = .ok resolved) :
    SourcesFrom document inputs (conditionLeaves condition) m resolved.2 := by
  match condition with
  | .all children | .any children =>
    simp only [resolveConditionPredicate] at h
    obtain ⟨⟨children', m'⟩, hchildren, h⟩ := bind_eq_ok_iff.mp h
    cases h
    simp only [conditionLeaves]
    exact resolveConditionChildren_sources children hchildren
  | .not child =>
    simp only [resolveConditionPredicate] at h
    obtain ⟨⟨child', m'⟩, hchild, h⟩ := bind_eq_ok_iff.mp h
    cases h
    simp only [conditionLeaves]
    exact resolveConditionPredicate_sources child hchild
  | .equals left right =>
    simp only [resolveConditionPredicate] at h
    simp only [conditionLeaves]
    exact resolveConditionEquals_ok h
  | .exists selector =>
    simp only [resolveConditionPredicate] at h
    obtain ⟨⟨canonical, source, kind⟩, hreference, h⟩ := bind_eq_ok_iff.mp h
    have hsource := resolveConditionReference_ok hreference
    dsimp only at h
    simp only [conditionLeaves]
    split_ifs at h
    · cases h
    · split at h
      · cases h
      · cases h
        exact .insert hsource _ _
  | .disposition node is =>
    simp only [resolveConditionPredicate] at h
    obtain ⟨targetRole, -, h⟩ := bind_eq_ok_iff.mp h
    cases h
    exact .refl _ _
  termination_by structural condition

theorem resolveConditionChildren_sources (children : List ConditionPredicate)
    {m : BTreeMap String ResolvedValueSource}
    {resolved : List ResolvedPredicate × BTreeMap String ResolvedValueSource}
    (h : resolveConditionChildren document inputs name role children m = .ok resolved) :
    SourcesFrom document inputs (childrenLeaves children) m resolved.2 := by
  match children with
  | [] =>
    simp only [resolveConditionChildren] at h
    cases h
    exact .refl _ _
  | child :: children =>
    simp only [resolveConditionChildren] at h
    obtain ⟨⟨child', m'⟩, hchild, h⟩ := bind_eq_ok_iff.mp h
    obtain ⟨⟨children', m''⟩, hchildren, h⟩ := bind_eq_ok_iff.mp h
    cases h
    simp only [childrenLeaves]
    exact (resolveConditionPredicate_sources child hchild).append
      (resolveConditionChildren_sources children hchildren)
  termination_by structural children

end

/-- A node whose outputs another node may read. -/
structure MayRead (definition : RuntimeDefinition) (d : RuntimeStep) (producer : String)
    (q : RuntimeStep) : Prop where
  node : definition.steps.get? producer = some q
  phase : d.role = .step → q.role = .step
  authority : d.failurePolicy = .required → q.failurePolicy = .required
  triggers : d.role = .finalizer → q.role = .finalizer → d.when ⊆ q.when

/-- What is known about an output that a node reads: it is declared, a descriptor of the
node names it, and inside one phase a prerequisite with the flag waits for it. -/
structure OutputFacts (definition : RuntimeDefinition) (d : RuntimeStep)
    (descriptor : String → Prerequisite) (flag : ResolvedDirectPrerequisite → Bool)
    (source : ResolvedOutputSource) : Prop where
  producer : ∃ q, MayRead definition d source.node.id q ∧ q.role = source.node.role ∧
    source.output ∈ q.declaredOutputs
  names : outputReferenceProducer source.reference = some source.node.id
  evidence : descriptor source.reference ∈ d.evidencePrerequisites
  waits : source.node.role = d.role →
    ∃ p ∈ d.prerequisites, p.producer = source.node.id ∧ flag p = true

def SourceFacts (definition : RuntimeDefinition) (d : RuntimeStep)
    (descriptor : String → Prerequisite) (flag : ResolvedDirectPrerequisite → Bool) :
    ResolvedValueSource → Prop
  | .input _ => True
  | .finalizationContext => d.role = .finalizer
  | .output source => OutputFacts definition d descriptor flag source

/-- How the prerequisites, the evidence and the sources of a node agree. -/
structure NodeFacts (definition : RuntimeDefinition) (d : RuntimeStep) : Prop where
  producer : ∀ p ∈ d.prerequisites, p.producer ≠ "" ∧
    ∃ q, definition.steps.get? p.producer = some q ∧ q.role = d.role
  control_evidence : ∀ p ∈ d.prerequisites, p.control = true →
    .control p.producer ∈ d.evidencePrerequisites
  condition_evidence : ∀ p ∈ d.prerequisites, p.conditionData = true →
    ∃ reference, .condition reference ∈ d.evidencePrerequisites ∧
      outputReferenceProducer reference = some p.producer
  body_evidence : ∀ p ∈ d.prerequisites, p.data = true → p.conditionData = false →
    ∃ reference, .body reference ∈ d.evidencePrerequisites ∧
      outputReferenceProducer reference = some p.producer
  value_evidence : ∀ descriptor ∈ d.evidencePrerequisites, descriptor.kind ≠ .control →
    isOutputReference descriptor.target = true ∧ ∃ producer q,
      outputReferenceProducer descriptor.target = some producer ∧ MayRead definition d producer q
  evidence_length : d.evidencePrerequisites.length ≤ maximumPrerequisites
  inputs : ∀ input source, d.inputs.get? input = some source →
    SourceFacts definition d .body ResolvedDirectPrerequisite.data source
  conditionValues : ∀ canonical source, d.conditionValues.get? canonical = some source →
    SourceFacts definition d .condition ResolvedDirectPrerequisite.conditionData source

variable {workflow : ValidatedWorkflow}

theorem WorkflowDocument.Structural.node_identifier (hstructural : document.Structural)
    (h : nodeBody document id = some (role, body)) :
    isIdentifier id = true ∧ ∀ output ∈ (commonNode body).outputs.keys,
      isIdentifier output = true := by
  unfold nodeBody at h
  split at h
  · rename_i step hstep
    cases h
    exact ⟨hstructural.step_identifiers id (BTreeMap.mem_keys_iff.mpr ⟨_, hstep⟩),
      hstructural.step_output_identifiers step (BTreeMap.mem_values_iff.mpr ⟨_, hstep⟩)⟩
  · obtain ⟨finalizer, hfinalizer, hbody⟩ := Option.map_eq_some_iff.mp h
    cases hbody
    exact ⟨hstructural.finalizer_identifiers id (BTreeMap.mem_keys_iff.mpr ⟨_, hfinalizer⟩),
      hstructural.finalizer_output_identifiers finalizer
        (BTreeMap.mem_values_iff.mpr ⟨_, hfinalizer⟩)⟩

theorem nodeCommon_of_nodeBody (h : nodeBody document id = some (role, body)) :
    nodeCommon document id role = some (commonNode body) := by
  unfold nodeBody at h
  split at h
  · rename_i step hstep
    cases h
    simp [nodeCommon, hstep]
  · obtain ⟨finalizer, hfinalizer, hbody⟩ := Option.map_eq_some_iff.mp h
    cases hbody
    simp [nodeCommon, hfinalizer]

/-- A leaf or a reference that names an output contributes the descriptor of its text. -/
theorem mem_referenceDescriptor {make : String → Except EvidenceError Prerequisite}
    (hmake : ∀ p reference, p ∈ (make reference).toOption.toList ↔
      isOutputReference reference = true ∧ p = descriptor reference) :
    p ∈ referenceDescriptor make reference ↔ ∃ output, reference = .output output ∧
      isOutputReference (outputReferenceText output.node output.output) = true ∧
      p = descriptor (outputReferenceText output.node output.output) := by
  cases reference with
  | input | finalizationContext => simp [referenceDescriptor]
  | output output =>
    simp only [referenceDescriptor, hmake]
    constructor
    · rintro ⟨href, rfl⟩
      exact ⟨output, rfl, href, rfl⟩
    · rintro ⟨output', heq, href, rfl⟩
      cases heq
      exact ⟨href, rfl⟩

variable {inputs : BTreeMap String ResolvedInput} {parallel transitions : Nat} {d : RuntimeStep}

namespace Accepted

variable (h : Accepted document workflow)
include h

theorem mayRead (horigin : NodeOrigin document id body d) {reference : OutputReference}
    {role : WorkflowNodeRole}
    (hallowed : OutputAllowed document id d.role reference role producerBody output) :
    ∃ q, MayRead (fromAdmitted workflow inputs parallel transitions) d
        reference.node q ∧ q.role = role ∧ reference.output ∈ q.declaredOutputs := by
  obtain ⟨q, hq, rfl, hproducer⟩ := h.node_exists hallowed.producer
  refine ⟨q, ⟨hq, hallowed.phase, ?_, ?_⟩, rfl, ?_⟩
  · intro hrequired
    rw [hproducer.failurePolicy]
    refine hallowed.authority ?_
    rw [nodeCommon_of_nodeBody horigin.body_eq, Option.map_some, ← horigin.failurePolicy, hrequired]
  · intro hfinalizer hfinalizer'
    rw [(horigin.when hfinalizer).1, (hproducer.when hfinalizer').1]
    exact hallowed.triggers hfinalizer hfinalizer'
  · rw [hproducer.declaredOutputs]
    exact BTreeMap.mem_keys_iff.mpr ⟨output, hallowed.declared⟩

variable (hstructural : document.Structural)
include hstructural

omit h in
theorem reference_text {reference : OutputReference} {consumerRole : WorkflowNodeRole}
    (hallowed : OutputAllowed document id consumerRole reference role producerBody output) :
    outputReferenceProducer (outputReferenceText reference.node reference.output) =
        some reference.node ∧
      isOutputReference (outputReferenceText reference.node reference.output) = true := by
  obtain ⟨hnode, houtputs⟩ := hstructural.node_identifier hallowed.producer
  have houtput := houtputs _ (BTreeMap.mem_keys_iff.mpr ⟨output, hallowed.declared⟩)
  exact ⟨outputReferenceProducer_text hnode houtput, isOutputReference_text hnode houtput⟩

/-- The facts about a source follow from those about the reference it resolves. -/
theorem sourceFacts (horigin : NodeOrigin document id body d)
    {flag : ResolvedDirectPrerequisite → Bool}
    (hallowed : ReferenceAllowed document id d.role reference)
    (hresolves : ResolvesTo document reference source)
    (hevidence : ∀ output, reference = .output output →
      isOutputReference (outputReferenceText output.node output.output) = true →
      descriptor (outputReferenceText output.node output.output) ∈ d.evidencePrerequisites)
    (hwaits : ∀ output, reference = .output output → nodeRole document output.node = some d.role →
      ∃ p ∈ d.prerequisites, p.producer = output.node ∧ flag p = true) :
    SourceFacts (fromAdmitted workflow inputs parallel transitions) d descriptor flag source := by
  cases reference with
  | input =>
    cases hresolves
    trivial
  | finalizationContext =>
    cases hresolves
    exact hallowed
  | output =>
    obtain ⟨role, valueType, hrole, rfl⟩ := hresolves
    obtain ⟨producerRole, producerBody, declared, houtput⟩ := hallowed
    obtain ⟨hproducer, htext⟩ := reference_text hstructural houtput
    obtain ⟨q, hread, hqrole, hdeclared⟩ := h.mayRead horigin houtput
    have hsame : producerRole = role := by
      rw [nodeRole, houtput.producer] at hrole
      exact Option.some.inj hrole
    exact ⟨⟨q, hread, hqrole.trans hsame, hdeclared⟩, hproducer, hevidence _ rfl htext,
      fun hphase => hwaits _ rfl (by rw [hrole]; exact congrArg some hphase)⟩

omit hstructural h in
/-- The values a condition reads are values of its leaves. -/
theorem condition_source (horigin : NodeOrigin document id body d) {canonical : String}
    (hsource : d.conditionValues.get? canonical = some source) :
    ∃ reference, .value reference ∈ bodyLeaves body ∧
      ConditionSource document (requiredInputs document) reference source := by
  have hresolve := horigin.condition
  unfold resolveBodyCondition at hresolve
  unfold bodyLeaves
  split at hresolve
  · rename_i hnone
    have hempty : d.conditionValues = .empty :=
      (congrArg Prod.snd (Except.ok.inj hresolve)).symm
    rw [hempty] at hsource
    cases hsource
  · rename_i condition hcondition
    obtain ⟨⟨predicate, values⟩, hpredicate, hresolve⟩ := bind_eq_ok_iff.mp hresolve
    have hvalues : d.conditionValues = values :=
      (congrArg Prod.snd (Except.ok.inj hresolve)).symm
    rw [hvalues] at hsource
    rw [hcondition]
    rcases resolveConditionPredicate_sources condition hpredicate canonical source hsource with
      hget | hfound
    · cases hget
    · exact hfound

omit hstructural in
/-- Only the condition of a node makes it wait for condition data. -/
theorem condition_of_conditionData
    (hd : (fromAdmitted workflow inputs parallel transitions).steps.get? id =
      some d) {p : ResolvedDirectPrerequisite} (hp : p ∈ d.prerequisites)
    (hdata : p.conditionData = true) : d.condition.isSome = true := by
  obtain ⟨body, horigin⟩ := h.node_origin hd
  have hdeps := horigin.dependencies
  obtain ⟨output, hleaf⟩ := (hdeps.conditionData_iff p hp).mp hdata
  have hresolve := horigin.condition
  unfold resolveBodyCondition at hresolve
  cases hcondition : (commonNode body).condition with
  | none =>
    rw [bodyLeaves, hcondition] at hleaf
    cases hleaf
  | some condition =>
    rw [hcondition] at hresolve
    obtain ⟨⟨predicate, values⟩, -, hresolve⟩ := bind_eq_ok_iff.mp hresolve
    have hpredicate : d.condition = some predicate :=
      (congrArg Prod.fst (Except.ok.inj hresolve)).symm
    rw [hpredicate]
    rfl

/-- The prerequisites, the evidence and the sources of every node agree. -/
theorem nodeFacts
    (hd : (fromAdmitted workflow inputs parallel transitions).steps.get? id = some d) :
    NodeFacts (fromAdmitted workflow inputs parallel transitions) d := by
  obtain ⟨body, horigin⟩ := h.node_origin hd
  have hdeps := horigin.dependencies
  obtain ⟨hlength, hmem⟩ := evidencePrerequisites_ok horigin.evidence
  have hleaf : ∀ p reference, p ∈ leafDescriptors (.value reference) ↔ _ :=
    fun p reference => mem_referenceDescriptor (fun _ _ => Prerequisite.mem_mkCondition)
  have hreference : ∀ p reference,
      p ∈ referenceDescriptor mkBody reference ↔ _ :=
    fun p reference => mem_referenceDescriptor (fun _ _ => Prerequisite.mem_mkBody)
  have hcondition : ∀ output, .value (.output output) ∈ bodyLeaves body →
      isOutputReference (outputReferenceText output.node output.output) = true →
      .condition (outputReferenceText output.node output.output) ∈ d.evidencePrerequisites :=
    fun output hmem' htext => (hmem _).mpr (Or.inr (Or.inl
      ⟨_, hmem', (hleaf _ _).mpr ⟨output, rfl, htext, rfl⟩⟩))
  have hbody : ∀ output, .output output ∈ bodyReferences body →
      isOutputReference (outputReferenceText output.node output.output) = true →
      .body (outputReferenceText output.node output.output) ∈ d.evidencePrerequisites :=
    fun output hmem' htext => (hmem _).mpr (Or.inr (Or.inr
      ⟨_, hmem', (hreference _ _).mpr ⟨output, rfl, htext, rfl⟩⟩))
  have hallowed : ∀ output : OutputReference, .value (.output output) ∈ bodyLeaves body ∨
      .output output ∈ bodyReferences body → ∃ role producerBody declared,
        OutputAllowed document id d.role output role producerBody declared :=
    fun output hread => hread.elim (hdeps.leaves _) (hdeps.references _)
  have hne : ∀ p ∈ d.prerequisites, p.producer ≠ "" ∧ ∃ q,
      (fromAdmitted workflow inputs parallel transitions).steps.get?
        p.producer = some q ∧ q.role = d.role := by
    intro p hp
    obtain ⟨⟨role, producerBody⟩, hproducer, hrole⟩ :=
      Option.map_eq_some_iff.mp (hdeps.producer_role p hp)
    obtain ⟨q, hq, hqrole, -⟩ := h.node_exists hproducer
    refine ⟨fun heq => ?_, q, hq, hqrole.trans hrole⟩
    have hidentifier := (hstructural.node_identifier hproducer).1
    rw [heq] at hidentifier
    cases hidentifier
  refine ⟨hne, ?_, ?_, ?_, ?_, hlength, ?_, ?_⟩
  · intro p hp hflag
    exact (hmem _).mpr (Or.inl ⟨p, hp, hflag, (hne p hp).1, rfl⟩)
  · intro p hp hflag
    obtain ⟨output, hmem'⟩ := (hdeps.conditionData_iff p hp).mp hflag
    obtain ⟨role, producerBody, declared, houtput⟩ := hallowed _ (Or.inl hmem')
    obtain ⟨hproducer, htext⟩ := reference_text hstructural houtput
    exact ⟨_, hcondition _ hmem' htext, hproducer⟩
  · intro p hp hflag hopen
    rcases (hdeps.data_iff p hp).mp hflag with hflag | ⟨output, hmem'⟩
    · rw [hopen] at hflag
      cases hflag
    · obtain ⟨role, producerBody, declared, houtput⟩ := hallowed _ (Or.inr hmem')
      obtain ⟨hproducer, htext⟩ := reference_text hstructural houtput
      exact ⟨_, hbody _ hmem' htext, hproducer⟩
  · intro descriptor hdescriptor hkind
    have hread : ∃ output : OutputReference, (.value (.output output) ∈ bodyLeaves body ∨
        .output output ∈ bodyReferences body) ∧
        descriptor.target = outputReferenceText output.node output.output := by
      rcases (hmem _).mp hdescriptor with ⟨p, -, -, -, rfl⟩ | ⟨leaf, hmem', hleaf'⟩ |
        ⟨reference, hmem', href⟩
      · exact absurd rfl hkind
      · cases leaf with
        | value =>
          obtain ⟨output, rfl, -, rfl⟩ := (hleaf _ _).mp hleaf'
          exact ⟨output, Or.inl hmem', rfl⟩
        | disposition =>
          obtain ⟨-, rfl⟩ := Prerequisite.mem_mkControl.mp hleaf'
          exact absurd rfl hkind
      · obtain ⟨output, rfl, -, rfl⟩ := (hreference _ _).mp href
        exact ⟨output, Or.inr hmem', rfl⟩
    obtain ⟨output, hread, htarget⟩ := hread
    obtain ⟨role, producerBody, declared, houtput⟩ := hallowed _ hread
    obtain ⟨hproducer, htext⟩ := reference_text hstructural houtput
    obtain ⟨q, hq, -⟩ := h.mayRead horigin houtput
    rw [htarget]
    exact ⟨htext, output.node, q, hproducer, hq⟩
  · intro input source hsource
    obtain ⟨reference, hmem', hresolves⟩ := horigin.inputs input source hsource
    refine h.sourceFacts hstructural horigin (hdeps.references _ hmem') hresolves ?_ ?_
    · rintro output rfl htext
      exact hbody _ hmem' htext
    · rintro output rfl hrole
      obtain ⟨p, hp, hproducer⟩ := hdeps.entered_body _ _ hrole hmem'
      exact ⟨p, hp, hproducer,
        (hdeps.data_iff p hp).mpr (Or.inr ⟨output.output, by rw [hproducer]; exact hmem'⟩)⟩
  · intro canonical source hsource
    obtain ⟨reference, hmem', hresolves, -⟩ := condition_source horigin hsource
    refine h.sourceFacts hstructural horigin (hdeps.leaves _ hmem') hresolves ?_ ?_
    · rintro output rfl htext
      exact hcondition _ hmem' htext
    · rintro output rfl hrole
      obtain ⟨p, hp, hproducer⟩ := hdeps.entered_value _ _ hrole hmem'
      exact ⟨p, hp, hproducer,
        (hdeps.conditionData_iff p hp).mpr ⟨output.output, by rw [hproducer]; exact hmem'⟩⟩

end Accepted

/-- The same for a document that passed the structural schema. -/
theorem validate_nodeFacts {decoded : DecodedDocument}
    (hvalid : validate decoded.document = .ok workflow) (inputs : BTreeMap String ResolvedInput)
    (parallel transitions : Nat) (id : String) (d : RuntimeStep)
    (hd : (fromAdmitted workflow inputs parallel transitions).steps.get? id = some d) :
    NodeFacts (fromAdmitted workflow inputs parallel transitions) d :=
  (validate_accepted hvalid).nodeFacts decoded.structural hd

end ScherzoCloud.Workflow
