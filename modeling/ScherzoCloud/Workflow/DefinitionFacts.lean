import ScherzoCloud.Workflow.DependencyFacts
import ScherzoCloud.Workflow.StabilizeRefinement

/-!
# The runtime definition of a validated workflow

The reducer trusts its definition.  Here is what it can rely on when the
definition comes from a workflow that `validate` accepted.
-/

namespace ScherzoCloud.Workflow

open RuntimeDefinition (nodes)
open Collections
open RuntimeDefinition (fromAdmitted fromWorkflow)
open BTreeMap (mem_keys_iff contains_iff keys_nodup keys_mapWithKey get?_traverse get?_mapWithKey
  mem_values_iff size_le_of_keys)

variable {node output name id : String} {document : WorkflowDocument} {step : StepDefinition}
  {finalizer : FinalizerDefinition} {sourceOrder : List String}
  {prerequisites : List ResolvedDirectPrerequisite} {inputs : RequiredInputs}
  {role : WorkflowNodeRole} {body : NodeBody} {validated : ValidatedStep}
  {workflow : ValidatedWorkflow} {d : RuntimeStep}

theorem splitOn_outputReferenceText (hnode : '.' ∉ node.toList) (houtput : '.' ∉ output.toList) :
    (outputReferenceText node output).toList.splitOn '.' =
      ["outputs".toList, node.toList, output.toList] := by
  have htext : (outputReferenceText node output).toList =
      ['.'].intercalate ["outputs".toList, node.toList, output.toList] := by
    simp [outputReferenceText, List.intercalate, List.intersperse]
  rw [htext]
  refine List.splitOn_intercalate '.' ?_ (by simp)
  intro l hl
  simp only [List.mem_cons, List.not_mem_nil, or_false] at hl
  rcases hl with rfl | rfl | rfl
  · decide
  · exact hnode
  · exact houtput

theorem not_mem_of_isIdentifier (h : isIdentifier name = true) : '.' ∉ name.toList := by
  unfold isIdentifier at h
  cases hname : name.toList with
  | nil => simp
  | cons first rest =>
    rw [hname] at h
    simp only [Bool.and_eq_true, List.all_eq_true, decide_eq_true_eq] at h
    intro hmem
    rcases List.mem_cons.mp hmem with heq | hmem
    · have hlower := h.1.1
      rw [← heq] at hlower
      exact absurd hlower (by decide)
    · exact absurd (h.1.2 _ hmem) (by decide)

theorem outputReferenceProducer_text (hnode : isIdentifier node = true)
    (houtput : isIdentifier output = true) :
    outputReferenceProducer (outputReferenceText node output) = some node := by
  unfold outputReferenceProducer
  rw [splitOn_outputReferenceText (not_mem_of_isIdentifier hnode) (not_mem_of_isIdentifier houtput)]
  simp

/-- An identifier is one for nodes and for values. -/
theorem workflowIdentifiers_of_isIdentifier (h : isIdentifier name = true) :
    isWorkflowNodeIdentifier name.toList = true ∧ isWorkflowValueIdentifier name.toList = true := by
  unfold isIdentifier at h
  cases hname : name.toList with
  | nil => rw [hname] at h; cases h
  | cons first rest =>
    rw [hname] at h
    simp only [Bool.and_eq_true, List.all_eq_true, decide_eq_true_eq] at h
    simp only [isWorkflowNodeIdentifier, isWorkflowValueIdentifier, Bool.and_eq_true,
      List.all_eq_true, decide_eq_true_eq, Bool.or_eq_true]
    exact ⟨⟨⟨Bool.or_eq_true_iff.mpr (.inr h.1.1), h.2⟩,
      fun c hc => Or.inl (Or.inl (h.1.2 c hc))⟩, ⟨h.1.1, h.2⟩, h.1.2⟩

/-- References to identifiers can be evidence. -/
theorem isOutputReference_text (hnode : isIdentifier node = true)
    (houtput : isIdentifier output = true) :
    isOutputReference (outputReferenceText node output) = true := by
  unfold isOutputReference
  rw [splitOn_outputReferenceText (not_mem_of_isIdentifier hnode) (not_mem_of_isIdentifier houtput)]
  simp [(workflowIdentifiers_of_isIdentifier hnode).1,
    (workflowIdentifiers_of_isIdentifier houtput).2]

/-- The two phases have no node in common, and there are at most 256 nodes. -/
theorem validateNodeNamespace_ok (h : validateNodeNamespace document = .ok ()) :
    document.steps.size + document.finalizers.size ≤ 256 ∧
      (∀ id step finalizer, document.steps.get? id = some step →
        document.finalizers.get? id = some finalizer → False) := by
  unfold validateNodeNamespace at h
  split_ifs at h with hsize hshared
  · cases h
  · cases h
  · refine ⟨not_lt.mp hsize, ?_⟩
    intro id step finalizer hstep hfinalizer
    refine hshared (List.any_eq_true.mpr ⟨id, mem_keys_iff.mpr ⟨step, hstep⟩, ?_⟩)
    exact contains_iff.mpr ⟨finalizer, hfinalizer⟩

theorem nodeBody_step (h : document.steps.get? id = some step) :
    nodeBody document id = some (.step, step.body) := by
  simp [nodeBody, h]

theorem nodeBody_finalizer (hspace : validateNodeNamespace document = .ok ())
    (h : document.finalizers.get? id = some finalizer) :
    nodeBody document id = some (.finalizer, finalizer.body) := by
  unfold nodeBody
  cases hstep : document.steps.get? id with
  | some step => exact absurd h (fun h => (validateNodeNamespace_ok hspace).2 id step _ hstep h)
  | none => rw [h]; rfl

theorem validateGraph_ok {directPrerequisites : BTreeMap String (List ResolvedDirectPrerequisite)}
    {nodeCount : Nat} {graph : ValidatedGraph}
    (h : validateGraph directPrerequisites sourceOrder nodeCount = .ok graph) :
    graph = ⟨directPrerequisites,
        TopologicalOrder.order (graphProducers directPrerequisites) sourceOrder⟩ ∧
      graph.presentationOrder.length = nodeCount := by
  unfold validateGraph at h
  dsimp only at h
  split_ifs at h with hlength
  · cases h
  · cases h
    exact ⟨rfl, not_not.mp hlength⟩

section Orders

variable {α : Type} {nodes : BTreeMap String α}
  {resolve : String → α → Validated (List ResolvedDirectPrerequisite)}
  {direct : BTreeMap String (List ResolvedDirectPrerequisite)}

variable (htraverse : nodes.traverse resolve = .ok direct)
include htraverse

theorem graphProducers_keys_perm : (graphProducers direct).keys.Perm nodes.keys := by
  rw [List.perm_ext_iff_of_nodup (keys_nodup _) (keys_nodup _)]
  intro id
  rw [graphProducers, keys_mapWithKey, mem_keys_iff, mem_keys_iff]
  rcases get?_traverse htraverse id with ⟨hnone, hnone'⟩ | ⟨node, prerequisites, hnode,
    -, hdirect⟩
  · simp [hnone, hnone']
  · simp [hnode, hdirect]

theorem graphProducers_size : (graphProducers direct).size = nodes.size := by
  have hlength := (graphProducers_keys_perm htraverse).length_eq
  rwa [BTreeMap.keys, BTreeMap.keys, List.length_map, List.length_map] at hlength

/-- An order that leaves no node out lists them all. -/
theorem order_perm_keys
    (hlength : (TopologicalOrder.order (graphProducers direct) sourceOrder).length = nodes.size) :
    (TopologicalOrder.order (graphProducers direct) sourceOrder).Perm nodes.keys :=
  (TopologicalOrder.order_perm (hlength.trans (graphProducers_size htraverse).symm)).trans
    (graphProducers_keys_perm htraverse)

/-- An order that leaves no node out ranks the producers before their nodes. -/
theorem exists_rank_of_order
    (hlength : (TopologicalOrder.order (graphProducers direct) sourceOrder).length = nodes.size) :
    ∃ rank : String → Nat, ∀ id node prerequisites, nodes.get? id = some node →
      resolve id node = .ok prerequisites → ∀ p ∈ prerequisites, rank p.producer < rank id := by
  obtain ⟨rank, hrank⟩ :=
    TopologicalOrder.exists_rank (hlength.trans (graphProducers_size htraverse).symm)
  refine ⟨rank, fun id node prerequisites hnode hok p hp => ?_⟩
  rcases get?_traverse htraverse id with ⟨hnone, -⟩ | ⟨node', prerequisites', hnode',
    hok', hdirect⟩
  · rw [hnode] at hnone
    cases hnone
  · cases hnode.symm.trans hnode'
    cases hok.symm.trans hok'
    refine hrank id (prerequisites.map ResolvedDirectPrerequisite.producer) ?_ p.producer
      (List.mem_map_of_mem hp)
    rw [graphProducers, get?_mapWithKey, hdirect, Option.map_some]

end Orders

theorem controlEntries_empty (targetExists : String → Bool) :
    ControlEntries targetExists [] .empty :=
  ⟨by simp, by simp⟩

theorem resolveStepPrerequisites_dependencies
    (h : resolveStepPrerequisites document id step = .ok prerequisites) :
    Dependencies document id .step step.body prerequisites := by
  obtain ⟨controls, hcontrols, h⟩ := bind_eq_ok_iff.mp h
  obtain ⟨inferred, hinferred, h⟩ := bind_eq_ok_iff.mp h
  cases h
  refine inferNodePrerequisites_dependencies ?_
    (insertControlPrerequisites_ok (controlEntries_empty _) hcontrols) hinferred
  intro k hk
  obtain ⟨step, hstep⟩ := contains_iff.mp hk
  simp [nodeRole, nodeBody_step hstep]

theorem resolveFinalizerPrerequisites_dependencies
    (hspace : validateNodeNamespace document = .ok ())
    (h : resolveFinalizerPrerequisites document id finalizer = .ok prerequisites) :
    Dependencies document id .finalizer finalizer.body prerequisites ∧
      finalizer.when ≠ ∅ := by
  unfold resolveFinalizerPrerequisites at h
  split_ifs at h with hwhen
  · cases h
  · obtain ⟨controls, hcontrols, h⟩ := bind_eq_ok_iff.mp h
    obtain ⟨inferred, hinferred, h⟩ := bind_eq_ok_iff.mp h
    cases h
    refine ⟨inferNodePrerequisites_dependencies ?_
      (insertControlPrerequisites_ok (controlEntries_empty _) hcontrols) hinferred, hwhen⟩
    intro k hk
    obtain ⟨finalizer, hfinalizer⟩ := contains_iff.mp hk
    simp [nodeRole, nodeBody_finalizer hspace hfinalizer]

/-- The source of a resolved reference. -/
def ResolvesTo (document : WorkflowDocument) : ValueReference → ResolvedValueSource → Prop
  | .input name, source => source = .input name
  | .finalizationContext, source => source = .finalizationContext
  | .output reference, source => ∃ role valueType,
      nodeRole document reference.node = some role ∧
        source = .output ⟨⟨reference.node, role⟩, reference.output, valueType⟩

theorem resolveValueReference_ok {reference : ValueReference} {location : ValidationLocation}
    {contextAllowed : Bool} {value : ResolvedValueReference}
    (h : resolveValueReference document inputs reference location contextAllowed = .ok value) :
    ResolvesTo document reference value.source := by
  cases reference with
  | input =>
    simp only [resolveValueReference] at h
    split at h <;> cases h
    rfl
  | finalizationContext =>
    simp only [resolveValueReference] at h
    split_ifs at h <;> cases h
    rfl
  | output =>
    obtain ⟨⟨role, body, output⟩, hdeclared, h⟩ := bind_eq_ok_iff.mp h
    obtain ⟨hbody, -⟩ := declaredOutput_ok hdeclared
    cases h
    exact ⟨role, _, by simp [nodeRole, hbody], rfl⟩

theorem validateMessageSources_ok {attachment : Bool} {sources : List MessageSource} {index : Nat}
    {validated : List ValidatedMessageSource}
    (h : validateMessageSources document inputs name role attachment sources index =
      .ok validated) : ∀ source valueType, .reference source valueType ∈ validated →
      ∃ reference ∈ sources.filterMap MessageSource.reference?,
        ResolvesTo document reference source := by
  induction sources generalizing index validated with
  | nil =>
    cases h
    simp
  | cons head sources ih =>
    obtain ⟨first, hfirst, h⟩ := bind_eq_ok_iff.mp h
    obtain ⟨rest, hrest, h⟩ := bind_eq_ok_iff.mp h
    cases h
    intro source valueType hmem
    rcases List.mem_cons.mp hmem with hmem | hmem
    · cases head with
      | file =>
        cases hfirst
        cases hmem
      | reference reference =>
        obtain ⟨value, hvalue, hfirst⟩ := bind_eq_ok_iff.mp hfirst
        refine ⟨reference, List.mem_filterMap.mpr ⟨_, List.mem_cons_self, rfl⟩, ?_⟩
        split_ifs at hfirst
        · cases hfirst
          cases hmem
          exact resolveValueReference_ok hvalue
        · cases hfirst
    · obtain ⟨reference, hreference, hresolves⟩ := ih hrest source valueType hmem
      obtain ⟨message, hmessage, hsome⟩ := List.mem_filterMap.mp hreference
      exact ⟨reference, List.mem_filterMap.mpr ⟨message, List.mem_cons_of_mem _ hmessage, hsome⟩,
        hresolves⟩

/-- What the validated body of a node takes from the document. -/
structure BodyOrigin (document : WorkflowDocument) (name : String) (role : WorkflowNodeRole)
    (body : NodeBody) (prerequisites : List ResolvedDirectPrerequisite)
    (validated : ValidatedStep) : Prop where
  failurePolicy : (commonStep validated).failurePolicy = (commonNode body).failurePolicy
  direct : (commonStep validated).prerequisites = prerequisites
  outputs : (commonStep validated).outputs.keys = (commonNode body).outputs.keys
  evidence : evidencePrerequisites body prerequisites =
    .ok (commonStep validated).evidencePrerequisites
  condition : resolveBodyCondition document (requiredInputs document) name role body =
    .ok ((commonStep validated).condition, (commonStep validated).conditionValues)
  inputs : ∀ input source, (runtimeInputs validated).get? input = some source →
    ∃ reference ∈ bodyReferences body, ResolvesTo document reference source

theorem validateBody_origin {agentProfiles : BTreeMap String ValidatedHarness}
    (h : validateBody document agentProfiles (requiredInputs document) name role body
      prerequisites = .ok validated) :
    BodyOrigin document name role body prerequisites validated := by
  obtain ⟨⟨condition, conditionValues⟩, hcondition, h⟩ := bind_eq_ok_iff.mp h
  obtain ⟨evidence, hevidence, h⟩ := bind_eq_ok_iff.mp h
  dsimp only at h
  cases body with
  | command =>
    obtain ⟨inputs, hinputs, h⟩ := bind_eq_ok_iff.mp h
    cases h
    refine ⟨rfl, rfl, keys_mapWithKey _ _, hevidence, hcondition, ?_⟩
    intro input source hsource
    rw [runtimeInputs, get?_mapWithKey] at hsource
    obtain ⟨value, hvalue, rfl⟩ := Option.map_eq_some_iff.mp hsource
    rcases get?_traverse hinputs input with ⟨-, hnone⟩ | ⟨reference, b, hget, hok, hb⟩
    · rw [hnone] at hvalue
      cases hvalue
    · cases hb.symm.trans hvalue
      exact ⟨reference, mem_values_iff.mpr ⟨input, hget⟩, resolveValueReference_ok hok⟩
  | agent =>
    obtain ⟨harness, _, h⟩ := bind_eq_ok_iff.mp h
    obtain ⟨agent', hagent, h⟩ := bind_eq_ok_iff.mp h
    cases h
    obtain ⟨text, htext, hagent⟩ := bind_eq_ok_iff.mp hagent
    obtain ⟨attachments, hattachments, hagent⟩ := bind_eq_ok_iff.mp hagent
    cases hagent
    refine ⟨rfl, rfl, keys_mapWithKey _ _, hevidence, hcondition, ?_⟩
    intro input source hsource
    obtain ⟨message, hmessage, hsome⟩ :=
      List.mem_filterMap.mp (BTreeMap.mem_of_get?_ofList hsource)
    have hreference : ∃ valueType, message = .reference source valueType := by
      split at hsome <;> cases hsome <;> exact ⟨_, rfl⟩
    obtain ⟨valueType, rfl⟩ := hreference
    rw [bodyReferences, List.filterMap_append]
    rcases List.mem_append.mp hmessage with hmem | hmem
    · obtain ⟨reference, hmem, hresolves⟩ := validateMessageSources_ok htext _ _ hmem
      exact ⟨reference, List.mem_append_left _ hmem, hresolves⟩
    · obtain ⟨reference, hmem, hresolves⟩ := validateMessageSources_ok hattachments _ _ hmem
      exact ⟨reference, List.mem_append_right _ hmem, hresolves⟩

/-- How the steps of an accepted workflow come from those of the document. -/
def StepAccepted (document : WorkflowDocument) (workflow : ValidatedWorkflow) (id : String)
    (step : StepDefinition) : Prop :=
  ∃ prerequisites validated recovery agentProfiles,
    resolveStepPrerequisites document id step = .ok prerequisites ∧
    validateBody document agentProfiles (requiredInputs document) id .step step.body
      prerequisites = .ok validated ∧
    validateRecovery agentProfiles id step.recovery = .ok recovery ∧
    workflow.steps.get? id = some validated ∧ workflow.recoveries.get? id = some recovery

/-- How the finalizers of an accepted workflow come from those of the document. -/
def FinalizerAccepted (document : WorkflowDocument) (workflow : ValidatedWorkflow) (id : String)
    (finalizer : FinalizerDefinition) : Prop :=
  ∃ prerequisites validated agentProfiles,
    resolveFinalizerPrerequisites document id finalizer = .ok prerequisites ∧
    validateBody document agentProfiles (requiredInputs document) id .finalizer finalizer.body
      prerequisites = .ok validated ∧
    workflow.finalizers.get? id = some ⟨validated, finalizer.when⟩

/-- What acceptance by `validate` means, part by part. -/
structure Accepted (document : WorkflowDocument) (workflow : ValidatedWorkflow) : Prop where
  namespaces : validateNodeNamespace document = .ok ()
  step_order : ∃ direct, document.steps.traverse (resolveStepPrerequisites document) = .ok direct ∧
    (TopologicalOrder.order (graphProducers direct) document.stepOrder).length = document.steps.size
  finalizer_order : ∃ direct,
    document.finalizers.traverse (resolveFinalizerPrerequisites document) = .ok direct ∧
    (TopologicalOrder.order (graphProducers direct) document.finalizerOrder).length =
      document.finalizers.size
  steps : ∀ id, document.steps.get? id = none ∧ workflow.steps.get? id = none ∨
    ∃ step, document.steps.get? id = some step ∧ StepAccepted document workflow id step
  finalizers : ∀ id, document.finalizers.get? id = none ∧ workflow.finalizers.get? id = none ∨
    ∃ finalizer, document.finalizers.get? id = some finalizer ∧
      FinalizerAccepted document workflow id finalizer
  recoveries : workflow.recoveries.keys = workflow.steps.keys
  presentation : workflow.presentationOrder.Perm document.steps.keys
  finalizer_presentation : workflow.finalizerPresentationOrder.Perm document.finalizers.keys
  exports : ∀ name, document.exports.get? name = none ∧ workflow.exports.get? name = none ∨
    ∃ reference source, document.exports.get? name = some reference ∧
      resolveExport document name reference = .ok source ∧
      workflow.exports.get? name = some source

theorem validate_accepted (h : validate document = .ok workflow) : Accepted document workflow := by
  obtain ⟨⟨⟩, hspace, h⟩ := bind_eq_ok_iff.mp h
  obtain ⟨⟨⟩, -, h⟩ := bind_eq_ok_iff.mp h
  obtain ⟨agentProfiles, -, h⟩ := bind_eq_ok_iff.mp h
  obtain ⟨stepGraph, hstepGraph, h⟩ := bind_eq_ok_iff.mp h
  obtain ⟨finalizerGraph, hfinalizerGraph, h⟩ := bind_eq_ok_iff.mp h
  obtain ⟨⟨⟩, -, h⟩ := bind_eq_ok_iff.mp h
  obtain ⟨steps, hsteps, h⟩ := bind_eq_ok_iff.mp h
  obtain ⟨finalizers, hfinalizers, h⟩ := bind_eq_ok_iff.mp h
  obtain ⟨exports, hexports, h⟩ := bind_eq_ok_iff.mp h
  cases h
  obtain ⟨stepDirect, hstepDirect, hstepGraph⟩ := bind_eq_ok_iff.mp hstepGraph
  obtain ⟨rfl, hstepLength⟩ := validateGraph_ok hstepGraph
  obtain ⟨finalizerDirect, hfinalizerDirect, hfinalizerGraph⟩ := bind_eq_ok_iff.mp hfinalizerGraph
  obtain ⟨rfl, hfinalizerLength⟩ := validateGraph_ok hfinalizerGraph
  refine ⟨hspace, ⟨_, hstepDirect, hstepLength⟩, ⟨_, hfinalizerDirect, hfinalizerLength⟩,
    ?_, ?_, by simp, order_perm_keys hstepDirect hstepLength,
    order_perm_keys hfinalizerDirect hfinalizerLength, ?_⟩
  · intro id
    rcases get?_traverse hsteps id with ⟨hnone, hnone'⟩ | ⟨step, ⟨validated, recovery⟩,
      hget, hok, hget'⟩
    · exact Or.inl ⟨hnone, by simp [hnone']⟩
    · obtain ⟨body, hbody, hok⟩ := bind_eq_ok_iff.mp hok
      obtain ⟨recovery', hrecovery, hok⟩ := bind_eq_ok_iff.mp hok
      cases hok
      rcases get?_traverse hstepDirect id with ⟨hnone, -⟩ | ⟨step', prerequisites, hstep',
        hprerequisites, hdirect⟩
      · rw [hget] at hnone
        cases hnone
      · cases hget.symm.trans hstep'
        refine Or.inr ⟨step, hget, prerequisites, validated, recovery, agentProfiles,
          hprerequisites, ?_, hrecovery, by simp [hget'], by simp [hget']⟩
        simpa [ValidatedGraph.prerequisitesOf, hdirect] using hbody
  · intro id
    rcases get?_traverse hfinalizers id with ⟨hnone, hnone'⟩ | ⟨finalizer, validated,
      hget, hok, hget'⟩
    · exact Or.inl ⟨hnone, hnone'⟩
    · obtain ⟨body, hbody, hok⟩ := bind_eq_ok_iff.mp hok
      cases hok
      rcases get?_traverse hfinalizerDirect id with ⟨hnone, -⟩ | ⟨finalizer',
        prerequisites, hfinalizer', hprerequisites, hdirect⟩
      · rw [hget] at hnone
        cases hnone
      · cases hget.symm.trans hfinalizer'
        refine Or.inr ⟨finalizer, hget, prerequisites, body, agentProfiles, hprerequisites, ?_,
          hget'⟩
        simpa [ValidatedGraph.prerequisitesOf, hdirect] using hbody
  · intro name
    rcases get?_traverse hexports name with hnone | ⟨reference, source, hget, hok, hget'⟩
    · exact Or.inl hnone
    · exact Or.inr ⟨reference, source, hget, hok, hget'⟩

variable {inputs : BTreeMap String ResolvedInput} {parallel transitions : Nat}

/-- How a node of the runtime definition comes from the document. -/
structure NodeOrigin (document : WorkflowDocument) (id : String) (body : NodeBody)
    (d : RuntimeStep) : Prop where
  body_eq : nodeBody document id = some (d.role, body)
  failurePolicy : d.failurePolicy = (commonNode body).failurePolicy
  declaredOutputs : d.declaredOutputs = (commonNode body).outputs.keys
  dependencies : Dependencies document id d.role body d.prerequisites
  evidence : evidencePrerequisites body d.prerequisites = .ok d.evidencePrerequisites
  condition : resolveBodyCondition document (requiredInputs document) id d.role body =
    .ok (d.condition, d.conditionValues)
  inputs : ∀ input source, d.inputs.get? input = some source →
    ∃ reference ∈ bodyReferences body, ResolvesTo document reference source
  when : d.role = .finalizer → d.when = finalizerWhen document id ∧ d.when ≠ ∅
  recovery : d.role = .finalizer → d.recovery = none
  retries : ∀ recovery ∈ d.recovery, ∃ step declared, document.steps.get? id = some step ∧
    step.recovery = some declared ∧ recovery.retries = declared.retries

/-- The bindings that `RuntimeDefinition.nodes` collects. -/
def nodeBindings (workflow : ValidatedWorkflow) : List (String × RuntimeStep) :=
  workflow.steps.entries.map (fun e =>
      (e.1, runtimeStep .step e.2 ((workflow.recoveries.get? e.1).getD none) ∅)) ++
    workflow.finalizers.entries.map (fun e => (e.1, runtimeFinalizer e.2))

section

variable
  (hdisjoint : ∀ id step finalizer, workflow.steps.get? id = some step →
    workflow.finalizers.get? id = some finalizer → False)
include hdisjoint

theorem nodeBindings_nodup : ((nodeBindings workflow).map Prod.fst).Nodup := by
  simp only [nodeBindings, List.map_append, List.map_map, Function.comp_def]
  refine List.nodup_append.mpr ⟨workflow.steps.keys_nodup, workflow.finalizers.keys_nodup, ?_⟩
  rintro a ha b hb rfl
  obtain ⟨step, hstep⟩ := mem_keys_iff.mp ha
  obtain ⟨finalizer, hfinalizer⟩ := mem_keys_iff.mp hb
  exact hdisjoint a step finalizer hstep hfinalizer

/-- The nodes of both phases, when the phases have no node in common. -/
theorem nodes_get? : (nodes workflow).get? id = some d ↔
      (∃ step, workflow.steps.get? id = some step ∧
        d = runtimeStep .step step ((workflow.recoveries.get? id).getD none) ∅) ∨
      ∃ finalizer, workflow.finalizers.get? id = some finalizer ∧
        d = runtimeFinalizer finalizer := by
  refine (BTreeMap.get?_ofList (nodeBindings_nodup hdisjoint)).trans ?_
  simp only [nodeBindings, List.mem_append, List.mem_map, Prod.exists, Prod.mk.injEq,
    ← BTreeMap.get?_eq_some_iff]
  constructor
  · rintro (⟨id', step, hstep, rfl, rfl⟩ | ⟨id', finalizer, hfinalizer, rfl, rfl⟩)
    · exact Or.inl ⟨step, hstep, rfl⟩
    · exact Or.inr ⟨finalizer, hfinalizer, rfl⟩
  · rintro (⟨step, hstep, rfl⟩ | ⟨finalizer, hfinalizer, rfl⟩)
    · exact Or.inl ⟨id, step, hstep, rfl, rfl⟩
    · exact Or.inr ⟨id, finalizer, hfinalizer, rfl, rfl⟩

end

namespace Accepted

variable (h : Accepted document workflow)
include h

theorem disjoint {step : ValidatedStep} {finalizer : ValidatedFinalizer}
    (hstep : workflow.steps.get? id = some step)
    (hfinalizer : workflow.finalizers.get? id = some finalizer) : False := by
  rcases h.steps id with ⟨-, hnone⟩ | ⟨step', hstep', -⟩
  · rw [hstep] at hnone
    cases hnone
  rcases h.finalizers id with ⟨-, hnone⟩ | ⟨finalizer', hfinalizer', -⟩
  · rw [hfinalizer] at hnone
    cases hnone
  exact (validateNodeNamespace_ok h.namespaces).2 id step' finalizer' hstep' hfinalizer'

theorem size_le : workflow.steps.size + workflow.finalizers.size ≤ 256 := by
  have hsteps : workflow.steps.size ≤ document.steps.size := by
    refine size_le_of_keys (fun id step hget => ?_)
    rcases h.steps id with ⟨-, hnone⟩ | ⟨step', hstep', -⟩
    · rw [hget] at hnone
      cases hnone
    · exact ⟨step', hstep'⟩
  have hfinalizers : workflow.finalizers.size ≤ document.finalizers.size := by
    refine size_le_of_keys (fun id finalizer hget => ?_)
    rcases h.finalizers id with ⟨-, hnone⟩ | ⟨finalizer', hfinalizer', -⟩
    · rw [hget] at hnone
      cases hnone
    · exact ⟨finalizer', hfinalizer'⟩
  exact (Nat.add_le_add hsteps hfinalizers).trans (validateNodeNamespace_ok h.namespaces).1

/-- An accepted workflow has at most 256 nodes. -/
theorem nodes_size_le : (nodes workflow).size ≤ 256 := by
  have hperm := (BTreeMap.entries_ofList (nodeBindings_nodup (fun _ _ _ => h.disjoint))).length_eq
  have hlength : (nodes workflow).size = (nodeBindings workflow).length := hperm
  rw [hlength, nodeBindings, List.length_append, List.length_map, List.length_map]
  exact h.size_le

theorem step_origin (hget : workflow.steps.get? id = some validated) :
    ∃ body, NodeOrigin document id body
      (runtimeStep .step validated ((workflow.recoveries.get? id).getD none) ∅) := by
  rcases h.steps id with ⟨-, hnone⟩ | ⟨step, hstep, prerequisites, validated', recovery,
    agentProfiles, hprerequisites, hbody, hrecovery, hget', hget''⟩
  · rw [hget] at hnone
    cases hnone
  cases hget.symm.trans hget'
  have horigin := validateBody_origin hbody
  have hdependencies := resolveStepPrerequisites_dependencies hprerequisites
  refine ⟨step.body, nodeBody_step hstep, horigin.failurePolicy, horigin.outputs, ?_, ?_,
    horigin.condition, horigin.inputs, fun hrole => (nomatch hrole), fun hrole => (nomatch hrole),
    ?_⟩
  · simpa [runtimeStep, horigin.direct] using hdependencies
  · simpa [runtimeStep, horigin.direct] using horigin.evidence
  · intro runtimeRecovery hmem
    simp only [runtimeStep, hget'', Option.getD_some, Option.mem_def,
      Option.map_eq_some_iff] at hmem
    obtain ⟨validatedRecovery, rfl, rfl⟩ := hmem
    refine ⟨step, ?_⟩
    cases hdeclared : step.recovery with
    | none => rw [hdeclared] at hrecovery; cases hrecovery
    | some declared =>
      refine ⟨declared, hstep, rfl, ?_⟩
      rw [hdeclared] at hrecovery
      simp only [validateRecovery] at hrecovery
      split at hrecovery
      · cases hrecovery
        rfl
      · obtain ⟨handler, -, hrecovery⟩ := bind_eq_ok_iff.mp hrecovery
        cases hrecovery
        rfl

theorem finalizer_origin {validated : ValidatedFinalizer}
    (hget : workflow.finalizers.get? id = some validated) :
    ∃ body, NodeOrigin document id body (runtimeFinalizer validated) := by
  rcases h.finalizers id with ⟨-, hnone⟩ | ⟨finalizer, hfinalizer, prerequisites, validated',
    agentProfiles, hprerequisites, hbody, hget'⟩
  · rw [hget] at hnone
    cases hnone
  cases hget.symm.trans hget'
  have horigin := validateBody_origin hbody
  obtain ⟨hdependencies, hwhen⟩ :=
    resolveFinalizerPrerequisites_dependencies h.namespaces hprerequisites
  refine ⟨finalizer.body, nodeBody_finalizer h.namespaces hfinalizer, horigin.failurePolicy,
    horigin.outputs, ?_, ?_, horigin.condition, horigin.inputs, fun _ => ⟨?_, hwhen⟩,
    fun _ => rfl, fun recovery hrecovery => (nomatch hrecovery)⟩
  · simpa [runtimeFinalizer, runtimeStep, horigin.direct] using hdependencies
  · simpa [runtimeFinalizer, runtimeStep, horigin.direct] using horigin.evidence
  · simp [runtimeFinalizer, runtimeStep, finalizerWhen, hfinalizer]

/-- Every node of the definition comes from a node of the document. -/
theorem node_origin (hd : (fromAdmitted workflow inputs parallel transitions).steps.get? id =
      some d) : ∃ body, NodeOrigin document id body d := by
  rcases (nodes_get? (fun _ _ _ => h.disjoint)).mp hd with ⟨step, hstep, rfl⟩ |
    ⟨finalizer, hfinalizer, rfl⟩
  · exact h.step_origin hstep
  · exact h.finalizer_origin hfinalizer

/-- Nodes of one phase can be ranked so that producers come first. -/
theorem exists_rank (role : WorkflowNodeRole) : ∃ rank : String → Nat, ∀ id d,
    (fromAdmitted workflow inputs parallel transitions).steps.get? id = some d →
    d.role = role → ∀ p ∈ d.prerequisites, rank p.producer < rank id := by
  have hnode : ∀ {id d}, (fromAdmitted workflow inputs parallel
      transitions).steps.get? id = some d → _ :=
    fun hd => (nodes_get? (fun _ _ _ => h.disjoint)).mp hd
  cases role with
  | step =>
    obtain ⟨direct, htraverse, hlength⟩ := h.step_order
    obtain ⟨rank, hrank⟩ := exists_rank_of_order htraverse hlength
    refine ⟨rank, fun id d hd hrole p hp => ?_⟩
    rcases hnode hd with ⟨validated, hget, rfl⟩ | ⟨_, -, rfl⟩
    · rcases h.steps id with ⟨-, hnone⟩ | ⟨step, hstep, prerequisites, validated', _, _,
        hprerequisites, hbody, -, hget', -⟩
      · rw [hget] at hnone
        cases hnone
      cases hget.symm.trans hget'
      exact hrank id step prerequisites hstep hprerequisites p
        ((validateBody_origin hbody).direct ▸ hp)
    · cases hrole
  | finalizer =>
    obtain ⟨direct, htraverse, hlength⟩ := h.finalizer_order
    obtain ⟨rank, hrank⟩ := exists_rank_of_order htraverse hlength
    refine ⟨rank, fun id d hd hrole p hp => ?_⟩
    rcases hnode hd with ⟨_, -, rfl⟩ | ⟨validated, hget, rfl⟩
    · cases hrole
    · rcases h.finalizers id with ⟨-, hnone⟩ | ⟨finalizer, hfinalizer, prerequisites, validated',
        _, hprerequisites, hbody, hget'⟩
      · rw [hget] at hnone
        cases hnone
      cases hget.symm.trans hget'
      exact hrank id finalizer prerequisites hfinalizer hprerequisites p
        ((validateBody_origin hbody).direct ▸ hp)

/-- The schema bounds the retries of every recovery policy. -/
theorem retries_le (hstructural : document.Structural)
    (hd : (fromAdmitted workflow inputs parallel transitions).steps.get? id =
      some d) {policy : RuntimeRecovery} (hpolicy : d.recovery = some policy) :
    policy.retries ≤ 10 := by
  obtain ⟨body, horigin⟩ := h.node_origin hd
  obtain ⟨step, declared, hstep, hdeclared, hretries⟩ := horigin.retries policy hpolicy
  rw [hretries]
  exact (hstructural.retries_bounded step (mem_values_iff.mpr ⟨id, hstep⟩) declared hdeclared).2

/-- Every node of the document is a node of the definition. -/
theorem node_exists (hbody : nodeBody document id = some (role, body)) :
    ∃ d, (fromAdmitted workflow inputs parallel transitions).steps.get? id =
      some d ∧ d.role = role ∧ NodeOrigin document id body d := by
  have hkey : ∃ d, (fromAdmitted workflow inputs parallel
      transitions).steps.get? id = some d := by
    unfold nodeBody at hbody
    rcases h.steps id with ⟨hnone, -⟩ | ⟨step, _, prerequisites, validated, recovery,
      agentProfiles, -, -, -, hget, -⟩
    · rcases h.finalizers id with ⟨hnone', -⟩ | ⟨finalizer, _, prerequisites, validated,
        agentProfiles, -, -, hget⟩
      · rw [hnone, hnone'] at hbody
        cases hbody
      · exact ⟨_, (nodes_get? (fun _ _ _ => h.disjoint)).mpr (Or.inr ⟨_, hget, rfl⟩)⟩
    · exact ⟨_, (nodes_get? (fun _ _ _ => h.disjoint)).mpr (Or.inl ⟨_, hget, rfl⟩)⟩
  obtain ⟨d, hd⟩ := hkey
  obtain ⟨body', horigin⟩ := h.node_origin hd
  have hsame := horigin.body_eq.symm.trans hbody
  cases hsame
  exact ⟨d, hd, rfl, horigin⟩

end Accepted

/-- The id lists of the definition are its nodes by role. -/
theorem fromAdmitted_coherent (h : validate document = .ok workflow)
    (inputs : BTreeMap String ResolvedInput) (parallel transitions : Nat) :
    (fromAdmitted workflow inputs parallel transitions).Coherent := by
  have haccepted := validate_accepted h
  have hget : ∀ id d, (nodes workflow).get? id = some d ↔ _ :=
    fun id d => nodes_get? (fun _ _ _ => haccepted.disjoint)
  constructor
  · intro role id
    cases role with
    | step =>
      simp only [idsOf, fromAdmitted, fromWorkflow, mem_keys_iff, hget]
      constructor
      · rintro ⟨step, hstep⟩
        exact ⟨_, Or.inl ⟨step, hstep, rfl⟩, rfl⟩
      · rintro ⟨d, ⟨step, hstep, -⟩ | ⟨finalizer, -, rfl⟩, hrole⟩
        · exact ⟨step, hstep⟩
        · cases hrole
    | finalizer =>
      simp only [idsOf, fromAdmitted, fromWorkflow, mem_keys_iff, hget]
      constructor
      · rintro ⟨finalizer, hfinalizer⟩
        exact ⟨_, Or.inr ⟨finalizer, hfinalizer, rfl⟩, rfl⟩
      · rintro ⟨d, ⟨step, -, rfl⟩ | ⟨finalizer, hfinalizer, -⟩, hrole⟩
        · cases hrole
        · exact ⟨finalizer, hfinalizer⟩
  · intro role
    cases role with
    | step => exact workflow.steps.keys_nodup
    | finalizer => exact workflow.finalizers.keys_nodup

/-- A command node that writes each of its text outputs to a file of that name. -/
def textCommand (failurePolicy : FailurePolicy) (condition : Option ConditionPredicate)
    (inputs : List (String × ValueReference)) (outputs : List String) : NodeBody :=
  .command ⟨⟨failurePolicy, condition, none,
    .ofList (outputs.map (fun name => (name, .textPath name)))⟩,
    .ofList inputs, ["true"]⟩

/-- A document of command nodes in the given order. -/
def commandDocument (inputs : List (String × InputDeclaration))
    (steps : List (String × StepDefinition)) (finalizers : List (String × FinalizerDefinition))
    (exports : List (String × OutputReference)) : WorkflowDocument where
  inputs := .ofList inputs
  agentProfiles := .empty
  steps := .ofList steps
  stepOrder := steps.map Prod.fst
  finalizers := .ofList finalizers
  finalizerOrder := finalizers.map Prod.fst
  exports := .ofList exports

/-- The workflow that a document is accepted as. -/
def acceptedWorkflow (document : WorkflowDocument) : ValidatedWorkflow :=
  match validate document with
  | .ok workflow => workflow
  | .error _ => ⟨.empty, .empty, [], [], .empty, [], [], .empty,
      .empty, .empty, .empty⟩

/-- One step with one output. -/
def singleDocument : WorkflowDocument :=
  commandDocument [] [("build", ⟨textCommand .required none [] ["log"], [], none⟩)] [] []

theorem singleDocument_accepted :
    validate singleDocument = .ok (acceptedWorkflow singleDocument) := rfl

def singleDecoded : DecodedDocument where
  document := singleDocument
  structural := by decide

end ScherzoCloud.Workflow
