import ScherzoCloud.Collections.Iteration
import ScherzoCloud.Workflow.Validation

/-!
# What dependency inference finds

Validation goes through the condition and the body of a node and enters every
producer of its own phase with the reasons why the node waits for it.  Here the
outcome is stated without the traversal: which producers are entered, what each
flag of an entry means, and what has been checked about every reference.
-/

namespace ScherzoCloud.Workflow

open Collections

variable {prerequisites prerequisites' : PrerequisiteMap} {reference : OutputReference}
  {location : ValidationLocation} {producerRole role : WorkflowNodeRole}
  {producerBody body : NodeBody} {conditionData : Bool} {document : WorkflowDocument} {index : Nat}
  {targetExists : String → Bool} {controls : List String}

/-- What a condition reads at one of its leaves. -/
inductive ConditionLeaf where
  | value (reference : ValueReference)
  | disposition (node : String)
  deriving DecidableEq

def operandLeaves : ConditionOperand → List ConditionLeaf
  | .reference reference _ => [.value reference]
  | .literal _ => []

mutual

/-- Everything a condition reads, in source order. -/
def conditionLeaves : ConditionPredicate → List ConditionLeaf
  | .all children => childrenLeaves children
  | .any children => childrenLeaves children
  | .not child => conditionLeaves child
  | .equals left right => operandLeaves left ++ operandLeaves right
  | .exists selector => [.value selector.reference]
  | .disposition node _ => [.disposition node]
  termination_by structural predicate => predicate

def childrenLeaves : List ConditionPredicate → List ConditionLeaf
  | [] => []
  | child :: children => conditionLeaves child ++ childrenLeaves children
  termination_by structural children => children

end

/-- The leaves of the condition of a body. -/
def bodyLeaves (body : NodeBody) : List ConditionLeaf :=
  ((commonNode body).condition.map conditionLeaves).getD []

section Marks

/-- One entry into the prerequisites of a node. -/
inductive Mark where
  | data (producer : String) (conditionData : Bool)
  | disposition (producer : String)
  deriving DecidableEq

def Mark.producer : Mark → String
  | .data producer _ => producer
  | .disposition producer => producer

variable (prerequisites : PrerequisiteMap)

def applyMark : Mark → PrerequisiteMap
  | .data producer conditionData => markDataPrerequisite prerequisites producer conditionData
  | .disposition producer => markDispositionPrerequisite prerequisites producer

/-- Whether the entry of a producer has a flag. -/
def PrerequisiteMap.flag (f : ResolvedDirectPrerequisite → Bool) (producer : String) : Bool :=
  (prerequisites.get? producer).any f

variable (prerequisites : PrerequisiteMap) (marks : List Mark) (k : String)

theorem applyMark_get? (mark : Mark) (hk : k ≠ mark.producer) :
    (applyMark prerequisites mark).get? k = prerequisites.get? k := by
  cases mark with
  | data =>
    simp only [applyMark, markDataPrerequisite]
    split <;> exact (BTreeMap.get?_insert _ _ _ _).trans (if_neg hk)
  | disposition =>
    simp only [applyMark, markDispositionPrerequisite]
    split <;> exact (BTreeMap.get?_insert _ _ _ _).trans (if_neg hk)

/-- The flags after one mark. -/
theorem applyMark_flags (mark : Mark) :
    (applyMark prerequisites mark).flag (·.control) k = prerequisites.flag (·.control) k ∧
    (applyMark prerequisites mark).flag (·.data) k =
      (prerequisites.flag (·.data) k || decide (mark = .data k true ∨ mark = .data k false)) ∧
    (applyMark prerequisites mark).flag (·.conditionData) k =
      (prerequisites.flag (·.conditionData) k || decide (mark = .data k true)) ∧
    (applyMark prerequisites mark).flag (·.dispositionControl) k =
      (prerequisites.flag (·.dispositionControl) k || decide (mark = .disposition k)) ∧
    (applyMark prerequisites mark).contains k =
      (prerequisites.contains k || decide (mark.producer = k)) := by
  by_cases hk : k = mark.producer
  · subst hk
    cases mark with
    | data producer conditionData =>
      simp only [applyMark, markDataPrerequisite, PrerequisiteMap.flag, BTreeMap.contains,
        Mark.producer]
      cases prerequisites.get? producer <;> cases conditionData <;> simp [BTreeMap.get?_insert]
    | disposition producer =>
      simp only [applyMark, markDispositionPrerequisite, PrerequisiteMap.flag,
        BTreeMap.contains, Mark.producer]
      cases prerequisites.get? producer <;> simp [BTreeMap.get?_insert]
  · have hget := applyMark_get? prerequisites k mark hk
    simp only [PrerequisiteMap.flag, BTreeMap.contains, hget]
    cases mark with
    | data producer | disposition producer =>
      have hne : producer ≠ k := fun h => hk h.symm
      simp [Mark.producer, hne]

/-- The flags after a list of marks. -/
theorem foldl_applyMark :
    (marks.foldl applyMark prerequisites).flag (·.control) k = prerequisites.flag (·.control) k ∧
    (marks.foldl applyMark prerequisites).flag (·.data) k = (prerequisites.flag (·.data) k ||
        decide (Mark.data k true ∈ marks ∨ Mark.data k false ∈ marks)) ∧
    (marks.foldl applyMark prerequisites).flag (·.conditionData) k =
      (prerequisites.flag (·.conditionData) k || decide (Mark.data k true ∈ marks)) ∧
    (marks.foldl applyMark prerequisites).flag (·.dispositionControl) k =
      (prerequisites.flag (·.dispositionControl) k || decide (Mark.disposition k ∈ marks)) ∧
    (marks.foldl applyMark prerequisites).contains k =
      (prerequisites.contains k || decide (∃ mark ∈ marks, mark.producer = k)) := by
  induction marks generalizing prerequisites with
  | nil => simp
  | cons mark marks ih =>
    obtain ⟨hcontrol, hdata, hcondition, hdisposition, hcontains⟩ :=
      ih (applyMark prerequisites mark)
    obtain ⟨hcontrol', hdata', hcondition', hdisposition', hcontains'⟩ :=
      applyMark_flags prerequisites k mark
    rw [List.foldl_cons]
    refine ⟨by rw [hcontrol, hcontrol'], ?_, ?_, ?_, ?_⟩
    · rw [hdata, hdata', Bool.or_assoc]
      congr 1
      rw [← Bool.decide_or]
      refine decide_eq_decide.mpr ?_
      simp only [List.mem_cons, eq_comm (a := mark)]
      tauto
    · rw [hcondition, hcondition', Bool.or_assoc, ← Bool.decide_or]
      simp only [List.mem_cons, eq_comm (a := mark)]
    · rw [hdisposition, hdisposition', Bool.or_assoc, ← Bool.decide_or]
      simp only [List.mem_cons, eq_comm (a := mark)]
    · rw [hcontains, hcontains', Bool.or_assoc, ← Bool.decide_or]
      simp only [List.mem_cons, exists_eq_or_imp]

/-- Entries are filed under their producer. -/
def PrerequisiteMap.Filed : Prop :=
  ∀ k p, prerequisites.get? k = some p → p.producer = k

theorem PrerequisiteMap.Filed.insert {prerequisites : PrerequisiteMap}
    (h : prerequisites.Filed) (p : ResolvedDirectPrerequisite) :
    PrerequisiteMap.Filed (prerequisites.insert p.producer p) := by
  intro k q hq
  rw [BTreeMap.get?_insert] at hq
  split_ifs at hq with hk
  · cases hq
    exact hk.symm
  · exact h k q hq

theorem PrerequisiteMap.Filed.foldl {prerequisites : PrerequisiteMap}
    (h : prerequisites.Filed) (marks : List Mark) :
    PrerequisiteMap.Filed (marks.foldl applyMark prerequisites) := by
  induction marks generalizing prerequisites with
  | nil => exact h
  | cons mark _ ih =>
    refine ih ?_
    cases mark with
    | data producer conditionData =>
      simp only [applyMark, markDataPrerequisite]
      split
      · rename_i p hp
        have hproducer := h producer p hp
        subst hproducer
        exact h.insert { p with
          data := true, conditionData := p.conditionData || conditionData }
      · exact h.insert ⟨producer, false, false, true, conditionData⟩
    | disposition producer =>
      simp only [applyMark, markDispositionPrerequisite]
      split
      · rename_i p hp
        have hproducer := h producer p hp
        subst hproducer
        exact h.insert { p with dispositionControl := true }
      · exact h.insert ⟨producer, false, true, false, false⟩

end Marks

section Allowed

variable (document : WorkflowDocument) (consumerName : String) (consumerRole : WorkflowNodeRole)

/-- The phase of a node. -/
def nodeRole (name : String) : Option WorkflowNodeRole :=
  (nodeBody document name).map Prod.fst

/-- What has been checked about an output that a node reads. -/
structure OutputAllowed (reference : OutputReference) (producerRole : WorkflowNodeRole)
    (producerBody : NodeBody) (output : Output) : Prop where
  producer : nodeBody document reference.node = some (producerRole, producerBody)
  declared : (commonNode producerBody).outputs.get? reference.output = some output
  phase : consumerRole = .step → producerRole = .step
  authority : (nodeCommon document consumerName consumerRole).map CommonNode.failurePolicy =
    some .required → (commonNode producerBody).failurePolicy = .required
  triggers : consumerRole = .finalizer → producerRole = .finalizer →
    finalizerWhen document consumerName ⊆ finalizerWhen document reference.node

/-- What has been checked about a value that a node reads. -/
def ReferenceAllowed : ValueReference → Prop
  | .input _ => True
  | .finalizationContext => consumerRole = .finalizer
  | .output reference => ∃ producerRole producerBody output,
      OutputAllowed document consumerName consumerRole reference producerRole producerBody output

/-- What has been checked about a leaf of the condition of a node. -/
def LeafAllowed : ConditionLeaf → Prop
  | .value reference => ReferenceAllowed document consumerName consumerRole reference
  | .disposition node => ∃ role, nodeRole document node = some role ∧
      (consumerRole = .step → role = .step)

/-- The marks of a value reference: producers of the same phase are entered. -/
def referenceMarks (conditionData : Bool) : ValueReference → List Mark
  | .output reference =>
    if nodeRole document reference.node = some consumerRole then
      [.data reference.node conditionData]
    else []
  | .input _ | .finalizationContext => []

def leafMarks : ConditionLeaf → List Mark
  | .value reference => referenceMarks document consumerRole true reference
  | .disposition node =>
    if nodeRole document node = some consumerRole then [.disposition node] else []

variable {document consumerName consumerRole}

theorem declaredOutput_ok {found : WorkflowNodeRole × NodeBody × Output}
    (h : declaredOutput document reference location = .ok found) :
    nodeBody document reference.node = some (found.1, found.2.1) ∧
      (commonNode found.2.1).outputs.get? reference.output = some found.2.2 := by
  unfold declaredOutput at h
  split at h
  · cases h
  · rename_i role body hbody
    split at h
    · cases h
    · rename_i output houtput
      cases h
      exact ⟨hbody, houtput⟩

theorem validateDataDependencyAuthority_ok {producerName : String} {policy : FailurePolicy}
    {u : Unit} (h : validateDataDependencyAuthority document consumerName consumerRole producerName
      producerRole policy location = .ok u) :
    ((nodeCommon document consumerName consumerRole).map CommonNode.failurePolicy =
        some .required → policy = .required) ∧
      (consumerRole = .finalizer → producerRole = .finalizer →
        finalizerWhen document consumerName ⊆ finalizerWhen document producerName) := by
  unfold validateDataDependencyAuthority at h
  split_ifs at h with hauthority
  · cases h
  · unfold validateFinalizerTriggerCompatibility at h
    split_ifs at h with htriggers
    · cases h
    · refine ⟨fun hrequired => ?_, fun hconsumer hproducer => ?_⟩
      · cases policy with
        | required => rfl
        | advisory => exact absurd ⟨rfl, hrequired⟩ hauthority
      · by_contra hsubset
        exact htriggers ⟨hconsumer, hproducer, hsubset⟩

/-- Reading an output enters its producer when it is of the same phase. -/
theorem referenceMarks_output (conditionData : Bool) (prerequisites : PrerequisiteMap)
    (h : nodeBody document reference.node = some (producerRole, producerBody)) :
    (if consumerRole = producerRole then
        markDataPrerequisite prerequisites reference.node conditionData
      else prerequisites) =
      (referenceMarks document consumerRole conditionData (.output reference)).foldl applyMark
        prerequisites := by
  simp only [referenceMarks, nodeRole, h, Option.map_some, Option.some.injEq]
  by_cases hrole : consumerRole = producerRole
  · rw [if_pos hrole, if_pos hrole.symm]
    rfl
  · rw [if_neg hrole, if_neg (fun heq => hrole heq.symm)]
    rfl

/-- The part that body references and condition values share. -/
theorem readOutput_ok {output : Output}
    (hbody : nodeBody document reference.node = some (producerRole, producerBody))
    (houtput : (commonNode producerBody).outputs.get? reference.output = some output)
    (hphase : ¬ (consumerRole = .step ∧ producerRole = .finalizer)) (h : (do
      validateDataDependencyAuthority document consumerName consumerRole reference.node
        producerRole (commonNode producerBody).failurePolicy location
      if consumerRole = producerRole then
        .ok (markDataPrerequisite prerequisites reference.node conditionData)
      else .ok prerequisites) = .ok prerequisites') :
    ReferenceAllowed document consumerName consumerRole (.output reference) ∧
      prerequisites' =
        (referenceMarks document consumerRole conditionData (.output reference)).foldl applyMark
          prerequisites := by
  obtain ⟨u, hauthority, h⟩ := bind_eq_ok_iff.mp h
  obtain ⟨hpolicy, htriggers⟩ := validateDataDependencyAuthority_ok hauthority
  refine ⟨⟨producerRole, producerBody, output, hbody, houtput, ?_, hpolicy, htriggers⟩, ?_⟩
  · intro hstep
    cases producerRole with
    | step => rfl
    | finalizer => exact absurd ⟨hstep, rfl⟩ hphase
  · rw [← referenceMarks_output conditionData prerequisites hbody]
    split_ifs at h ⊢ <;> cases h <;> rfl

theorem inferReferencePrerequisite_ok {reference : ValueReference} {contextAllowed : Bool}
    (hcontext : contextAllowed = true → consumerRole = .finalizer)
    (h : inferReferencePrerequisite document consumerName consumerRole reference prerequisites
      location contextAllowed = .ok prerequisites') :
    ReferenceAllowed document consumerName consumerRole reference ∧
      prerequisites' = (referenceMarks document consumerRole false reference).foldl applyMark
        prerequisites := by
  cases reference with
  | input =>
    cases h
    exact ⟨trivial, rfl⟩
  | finalizationContext =>
    simp only [inferReferencePrerequisite] at h
    split_ifs at h with hallowed
    · cases h
      exact ⟨hcontext hallowed, rfl⟩
    · cases h
  | output reference =>
    obtain ⟨⟨role, body, output⟩, hdeclared, h⟩ := bind_eq_ok_iff.mp h
    obtain ⟨hbody, houtput⟩ := declaredOutput_ok hdeclared
    dsimp only at hbody houtput h
    split at h
    · cases h
    split at h
    · cases h
    split at h
    · cases h
    · rename_i hphase
      exact readOutput_ok hbody houtput hphase h

theorem inferConditionValueReference_ok {reference : ValueReference}
    (h : inferConditionValueReference document consumerName consumerRole reference
      prerequisites = .ok prerequisites') :
    ReferenceAllowed document consumerName consumerRole reference ∧
      prerequisites' = (referenceMarks document consumerRole true reference).foldl applyMark
        prerequisites := by
  cases reference with
  | input =>
    simp only [inferConditionValueReference] at h
    split at h <;> cases h <;> exact ⟨trivial, rfl⟩
  | finalizationContext =>
    simp only [inferConditionValueReference] at h
    split_ifs at h with hrole
    · cases h
      exact ⟨hrole, rfl⟩
    · cases h
  | output reference =>
    obtain ⟨⟨role, body, output⟩, hdeclared, h⟩ := bind_eq_ok_iff.mp h
    obtain ⟨hbody, houtput⟩ := declaredOutput_ok hdeclared
    dsimp only at hbody houtput h
    split at h
    · cases h
    · rename_i hrejected
      refine readOutput_ok hbody houtput ?_ h
      rintro ⟨rfl, rfl⟩
      simp at hrejected

end Allowed

/-- A traversal has checked all items and entered their marks in order. -/
structure Traversed {α : Type} (allowed : α → Prop) (marks : α → List Mark) (items : List α)
    (prerequisites prerequisites' : PrerequisiteMap) : Prop where
  allowed : ∀ item ∈ items, allowed item
  marked : prerequisites' = (items.flatMap marks).foldl applyMark prerequisites

namespace Traversed

variable {α : Type} {allowed : α → Prop} {marks : α → List Mark} {left right : List α}
  {m m' m'' : PrerequisiteMap}

theorem nil : Traversed allowed marks [] m m := ⟨by simp, rfl⟩

theorem single {item : α} (h : allowed item) :
    Traversed allowed marks [item] m ((marks item).foldl applyMark m) :=
  ⟨by simpa using h, by simp⟩

theorem append (h : Traversed allowed marks left m m') (h' : Traversed allowed marks right m' m'') :
    Traversed allowed marks (left ++ right) m m'' where
  allowed item hitem := by
    rcases List.mem_append.mp hitem with hitem | hitem
    · exact h.allowed item hitem
    · exact h'.allowed item hitem
  marked := by rw [h'.marked, h.marked, List.flatMap_append, List.foldl_append]

end Traversed

variable {consumerName : String} {consumerRole : WorkflowNodeRole}

theorem inferConditionOperand_ok {operand : ConditionOperand}
    (h : inferConditionOperand document consumerName consumerRole operand prerequisites =
      .ok prerequisites') :
    Traversed (LeafAllowed document consumerName consumerRole) (leafMarks document consumerRole)
      (operandLeaves operand) prerequisites prerequisites' := by
  cases operand with
  | literal =>
    cases h
    exact .nil
  | reference =>
    obtain ⟨hallowed, rfl⟩ := inferConditionValueReference_ok h
    exact .single hallowed

theorem conditionTargetRole_ok {node : String}
    (h : conditionTargetRole document node location = .ok role) :
    nodeRole document node = some role := by
  unfold conditionTargetRole at h
  unfold nodeRole nodeBody
  split_ifs at h with hstep hfinalizer
  · obtain ⟨step, hget⟩ := BTreeMap.contains_iff.mp hstep
    cases h
    rw [hget]
    rfl
  · obtain ⟨finalizer, hget⟩ := BTreeMap.contains_iff.mp hfinalizer
    have hnone : document.steps.get? node = none :=
      Option.not_isSome_iff_eq_none.mp hstep
    cases h
    rw [hnone, hget]
    rfl
  · cases h

mutual

/-- Inference over a condition checks its leaves and marks their producers. -/
theorem inferConditionPrerequisites_ok (condition : ConditionPredicate)
    (prerequisites prerequisites' : PrerequisiteMap)
    (h : inferConditionPrerequisites document consumerName consumerRole condition
      prerequisites = .ok prerequisites') :
    Traversed (LeafAllowed document consumerName consumerRole) (leafMarks document consumerRole)
      (conditionLeaves condition) prerequisites prerequisites' := by
  cases condition with
  | all children | any children =>
    exact inferChildrenPrerequisites_ok children prerequisites prerequisites' h
  | not child => exact inferConditionPrerequisites_ok child prerequisites prerequisites' h
  | equals =>
    obtain ⟨middle, hleft, hright⟩ := bind_eq_ok_iff.mp h
    exact (inferConditionOperand_ok hleft).append (inferConditionOperand_ok hright)
  | «exists» =>
    obtain ⟨hallowed, rfl⟩ := inferConditionValueReference_ok h
    exact .single hallowed
  | disposition node is =>
    obtain ⟨role, htarget, h⟩ := bind_eq_ok_iff.mp h
    have hrole := conditionTargetRole_ok htarget
    split at h
    · cases h
    · rename_i hrejected
      simp only [Bool.or_eq_true, Bool.and_eq_true, decide_eq_true_eq, not_or, not_and,
        not_not] at hrejected
      have hallowed : LeafAllowed document consumerName consumerRole (.disposition node) :=
        ⟨role, hrole, hrejected.2⟩
      have hmarked : prerequisites' =
          (leafMarks document consumerRole (.disposition node)).foldl applyMark prerequisites := by
        simp only [leafMarks, hrole, Option.some.injEq, eq_comm (a := role)]
        split_ifs at h ⊢ <;> cases h <;> rfl
      rw [hmarked]
      exact .single hallowed
  termination_by structural condition

theorem inferChildrenPrerequisites_ok (children : List ConditionPredicate)
    (prerequisites prerequisites' : PrerequisiteMap)
    (h : inferChildrenPrerequisites document consumerName consumerRole children
      prerequisites = .ok prerequisites') :
    Traversed (LeafAllowed document consumerName consumerRole) (leafMarks document consumerRole)
      (childrenLeaves children) prerequisites prerequisites' := by
  cases children with
  | nil =>
    cases h
    exact .nil
  | cons child children =>
    obtain ⟨middle, hchild, hchildren⟩ := bind_eq_ok_iff.mp h
    exact (inferConditionPrerequisites_ok child prerequisites middle hchild).append
      (inferChildrenPrerequisites_ok children middle prerequisites' hchildren)
  termination_by structural children

end

theorem inferInputPrerequisites_ok {inputs : List (String × ValueReference)}
    (h : inferInputPrerequisites document consumerName consumerRole inputs prerequisites =
      .ok prerequisites') : Traversed (ReferenceAllowed document consumerName consumerRole)
      (referenceMarks document consumerRole false) (inputs.map Prod.snd) prerequisites
      prerequisites' := by
  induction inputs generalizing prerequisites with
  | nil =>
    cases h
    exact .nil
  | cons input inputs ih =>
    obtain ⟨middle, hinput, hinputs⟩ := bind_eq_ok_iff.mp h
    obtain ⟨hallowed, rfl⟩ :=
      inferReferencePrerequisite_ok (fun hcontext => of_decide_eq_true hcontext) hinput
    exact (Traversed.single hallowed).append (ih hinputs)

theorem inferMessagePrerequisites_ok {attachment contextAllowed : Bool}
    {sources : List MessageSource} (hcontext : contextAllowed = true → consumerRole = .finalizer)
    (h : inferMessagePrerequisites document consumerName consumerRole attachment contextAllowed
      sources index prerequisites = .ok prerequisites') :
    Traversed (ReferenceAllowed document consumerName consumerRole)
      (referenceMarks document consumerRole false)
      (sources.filterMap MessageSource.reference?) prerequisites prerequisites' := by
  induction sources generalizing prerequisites index with
  | nil =>
    cases h
    exact .nil
  | cons source sources ih =>
    obtain ⟨middle, hsource, hsources⟩ := bind_eq_ok_iff.mp h
    cases source with
    | file =>
      cases hsource
      exact ih hsources
    | reference =>
      obtain ⟨hallowed, rfl⟩ := inferReferencePrerequisite_ok hcontext hsource
      exact (Traversed.single hallowed).append (ih hsources)

/-- Inference over a body checks its references and marks their producers. -/
theorem inferBodyPrerequisites_ok
    (h : inferBodyPrerequisites document consumerName consumerRole body prerequisites =
      .ok prerequisites') : Traversed (ReferenceAllowed document consumerName consumerRole)
      (referenceMarks document consumerRole false) (bodyReferences body) prerequisites
      prerequisites' := by
  cases body with
  | command => exact inferInputPrerequisites_ok h
  | agent =>
    obtain ⟨middle, htext, hattachments⟩ := bind_eq_ok_iff.mp h
    rw [bodyReferences, List.filterMap_append]
    refine (inferMessagePrerequisites_ok ?_ htext).append
      (inferMessagePrerequisites_ok ?_ hattachments)
    · intro hcontext
      cases hcontext
    · exact fun hcontext => of_decide_eq_true hcontext

variable {consumer : String} {missingKind : ValidationFailureKind}
  {location : Nat → ValidationLocation}

/-- Only control dependencies have been entered, all of them existing targets. -/
structure ControlEntries (targetExists : String → Bool) (dependencies : List String)
    (prerequisites : PrerequisiteMap) : Prop where
  entry : ∀ k, prerequisites.get? k =
    if k ∈ dependencies then some ⟨k, true, false, false, false⟩ else none
  exists_target : ∀ k ∈ dependencies, targetExists k = true

theorem insertControlPrerequisites_ok {earlier dependencies : List String} {seen : List String}
    (hentries : ControlEntries targetExists earlier prerequisites)
    (h : insertControlPrerequisites consumer targetExists missingKind location dependencies index
      seen prerequisites = .ok prerequisites') :
    ControlEntries targetExists (earlier ++ dependencies) prerequisites' := by
  induction dependencies generalizing earlier index seen prerequisites with
  | nil =>
    cases h
    rwa [List.append_nil]
  | cons dependency dependencies ih =>
    obtain ⟨middle, hhead, htail⟩ := bind_eq_ok_iff.mp h
    rw [List.append_cons]
    refine ih ?_ htail
    unfold insertControlPrerequisite at hhead
    split_ifs at hhead with _ _ hexists
    all_goals cases hhead
    refine ⟨fun k => ?_, fun k hk => ?_⟩
    · rw [BTreeMap.get?_insert, hentries.entry]
      by_cases hk : k = dependency
      · simp [hk]
      · simp [hk]
    · rcases List.mem_append.mp hk with hk | hk
      · exact hentries.exists_target k hk
      · rw [List.mem_singleton.mp hk]
        simpa using hexists

namespace ControlEntries

variable {marks : List Mark} (hcontrols : ControlEntries targetExists controls prerequisites)
include hcontrols

theorem filed : PrerequisiteMap.Filed prerequisites := by
  intro k p hp
  rw [hcontrols.entry] at hp
  split_ifs at hp
  cases hp
  rfl

theorem flag (f : ResolvedDirectPrerequisite → Bool) (k : String) :
    PrerequisiteMap.flag prerequisites f k =
      (decide (k ∈ controls) && f ⟨k, true, false, false, false⟩) := by
  unfold PrerequisiteMap.flag
  rw [hcontrols.entry]
  split_ifs with hk <;> simp [hk]

/-- What an entry says after a list of marks. -/
theorem marked_entry {p : ResolvedDirectPrerequisite}
    (hp : p ∈ (marks.foldl applyMark prerequisites).values) :
    (p.control = true ↔ p.producer ∈ controls) ∧
    (p.data = true ↔ .data p.producer true ∈ marks ∨ .data p.producer false ∈ marks) ∧
    (p.conditionData = true ↔ .data p.producer true ∈ marks) ∧
    (p.dispositionControl = true ↔ .disposition p.producer ∈ marks) ∧
    (p.producer ∈ controls ∨ ∃ mark ∈ marks, mark.producer = p.producer) := by
  obtain ⟨k, hk⟩ := BTreeMap.mem_values_iff.mp hp
  have hproducer := hcontrols.filed.foldl marks k p hk
  subst hproducer
  have hflag : ∀ f, PrerequisiteMap.flag (marks.foldl applyMark prerequisites) f p.producer =
      f p := by
    intro f
    unfold PrerequisiteMap.flag
    rw [hk, Option.any_some]
  obtain ⟨hcontrol, hdata, hcondition, hdisposition, hcontains⟩ :=
    foldl_applyMark prerequisites marks p.producer
  rw [hflag, hcontrols.flag] at hcontrol hdata hcondition hdisposition
  refine ⟨by simp [hcontrol], by simp [hdata], by simp [hcondition], by simp [hdisposition], ?_⟩
  have hbound := hcontains.symm.trans (BTreeMap.contains_iff.mpr ⟨p, hk⟩)
  simp only [BTreeMap.contains, hcontrols.entry, Bool.or_eq_true, decide_eq_true_eq] at hbound
  refine hbound.imp_left (fun hsome => ?_)
  split_ifs at hsome with hmem
  · exact hmem
  · cases hsome

theorem mark_entered {mark : Mark} (hmark : mark ∈ marks) :
    ∃ p ∈ (marks.foldl applyMark prerequisites).values, p.producer = mark.producer := by
  have hcontains : (marks.foldl applyMark prerequisites).contains mark.producer = true := by
    rw [(foldl_applyMark prerequisites marks mark.producer).2.2.2.2]
    simp only [Bool.or_eq_true, decide_eq_true_eq]
    exact Or.inr ⟨mark, hmark, rfl⟩
  obtain ⟨p, hp⟩ := BTreeMap.contains_iff.mp hcontains
  exact ⟨p, BTreeMap.mem_values_iff.mpr ⟨_, hp⟩, hcontrols.filed.foldl marks _ p hp⟩

end ControlEntries

variable {name : String}

/-- The direct prerequisites of a node and what is known about its references. -/
structure Dependencies (document : WorkflowDocument) (name : String) (role : WorkflowNodeRole)
    (body : NodeBody) (prerequisites : List ResolvedDirectPrerequisite) : Prop where
  leaves : ∀ leaf ∈ bodyLeaves body, LeafAllowed document name role leaf
  references : ∀ reference ∈ bodyReferences body, ReferenceAllowed document name role reference
  producer_role : ∀ p ∈ prerequisites, nodeRole document p.producer = some role
  conditionData_iff : ∀ p ∈ prerequisites, (p.conditionData = true ↔
    ∃ output, .value (.output ⟨p.producer, output⟩) ∈ bodyLeaves body)
  data_iff : ∀ p ∈ prerequisites, (p.data = true ↔ p.conditionData = true ∨
    ∃ output, .output ⟨p.producer, output⟩ ∈ bodyReferences body)
  entered_value : ∀ producer output, nodeRole document producer = some role →
    .value (.output ⟨producer, output⟩) ∈ bodyLeaves body →
      ∃ p ∈ prerequisites, p.producer = producer
  entered_body : ∀ producer output, nodeRole document producer = some role →
    .output ⟨producer, output⟩ ∈ bodyReferences body → ∃ p ∈ prerequisites, p.producer = producer

theorem mem_referenceMarks {references : List ValueReference} {mark : Mark} :
    mark ∈ references.flatMap (referenceMarks document role conditionData) ↔
      ∃ producer output, mark = .data producer conditionData ∧
        nodeRole document producer = some role ∧ .output ⟨producer, output⟩ ∈ references := by
  rw [List.mem_flatMap]
  constructor
  · rintro ⟨reference, hmem, hmark⟩
    cases reference with
    | input | finalizationContext => cases hmark
    | output reference =>
      simp only [referenceMarks] at hmark
      split_ifs at hmark with hrole
      · exact ⟨reference.node, reference.output, List.mem_singleton.mp hmark, hrole, hmem⟩
      · cases hmark
  · rintro ⟨producer, output, rfl, hrole, hmem⟩
    refine ⟨_, hmem, ?_⟩
    simp [referenceMarks, hrole]

theorem mem_leafMarks {leaves : List ConditionLeaf} {mark : Mark} :
    mark ∈ leaves.flatMap (leafMarks document role) ↔
      (∃ producer output, mark = .data producer true ∧ nodeRole document producer = some role ∧
        .value (.output ⟨producer, output⟩) ∈ leaves) ∨
      ∃ producer, mark = .disposition producer ∧ nodeRole document producer = some role ∧
        .disposition producer ∈ leaves := by
  rw [List.mem_flatMap]
  constructor
  · rintro ⟨leaf, hmem, hmark⟩
    cases leaf with
    | value reference =>
      cases reference with
      | input | finalizationContext => cases hmark
      | output reference =>
        simp only [leafMarks, referenceMarks] at hmark
        split_ifs at hmark with hrole
        · exact Or.inl ⟨reference.node, reference.output, List.mem_singleton.mp hmark, hrole, hmem⟩
        · cases hmark
    | disposition node =>
      simp only [leafMarks] at hmark
      split_ifs at hmark with hrole
      · exact Or.inr ⟨node, List.mem_singleton.mp hmark, hrole, hmem⟩
      · cases hmark
  · rintro (⟨producer, output, rfl, hrole, hmem⟩ | ⟨producer, rfl, hrole, hmem⟩)
    · exact ⟨_, hmem, by simp [leafMarks, referenceMarks, hrole]⟩
    · exact ⟨_, hmem, by simp [leafMarks, hrole]⟩

/-- Condition and body are traversed one after the other. -/
theorem inferNodePrerequisites_ok
    (h : inferNodePrerequisites document name role body prerequisites = .ok prerequisites') :
    ∃ middle, Traversed (LeafAllowed document name role) (leafMarks document role)
        (bodyLeaves body) prerequisites middle ∧
      Traversed (ReferenceAllowed document name role) (referenceMarks document role false)
        (bodyReferences body) middle prerequisites' := by
  unfold inferNodePrerequisites at h
  unfold bodyLeaves
  cases hcondition : (commonNode body).condition with
  | none =>
    rw [hcondition] at h
    exact ⟨prerequisites, .nil, inferBodyPrerequisites_ok h⟩
  | some condition =>
    rw [hcondition] at h
    obtain ⟨middle, hleaves, hbody⟩ := bind_eq_ok_iff.mp h
    exact ⟨middle, inferConditionPrerequisites_ok condition prerequisites middle hleaves,
      inferBodyPrerequisites_ok hbody⟩

/-- A node of a phase with its control dependencies gets these prerequisites. -/
theorem inferNodePrerequisites_dependencies
    (htarget : ∀ k, targetExists k = true → nodeRole document k = some role)
    (hcontrols : ControlEntries targetExists controls prerequisites)
    (h : inferNodePrerequisites document name role body prerequisites = .ok prerequisites') :
    Dependencies document name role body prerequisites'.values := by
  obtain ⟨middle, hleaves, hreferences⟩ := inferNodePrerequisites_ok h
  -- All marks in one list, over the control entries.
  obtain ⟨marks, hmarks, rfl⟩ : ∃ marks, (∀ mark, mark ∈ marks ↔
      mark ∈ (bodyLeaves body).flatMap (leafMarks document role) ∨
      mark ∈ (bodyReferences body).flatMap (referenceMarks document role false)) ∧
      prerequisites' = marks.foldl applyMark prerequisites :=
    ⟨_ ++ _, fun mark => List.mem_append, by
      rw [List.foldl_append, ← hleaves.marked, ← hreferences.marked]⟩
  have hrole : ∀ mark ∈ marks, nodeRole document mark.producer = some role := by
    intro mark hmark
    rcases (hmarks mark).mp hmark with hmem | hmem
    · rcases mem_leafMarks.mp hmem with ⟨_, _, rfl, hrole, -⟩ | ⟨_, rfl, hrole, -⟩ <;> exact hrole
    · obtain ⟨_, _, rfl, hrole, -⟩ := mem_referenceMarks.mp hmem
      exact hrole
  have hproducer : ∀ p ∈ (marks.foldl applyMark prerequisites).values,
      nodeRole document p.producer = some role := by
    intro p hp
    rcases (hcontrols.marked_entry hp).2.2.2.2 with hcontrol | ⟨mark, hmark, hmarked⟩
    · exact htarget _ (hcontrols.exists_target _ hcontrol)
    · rw [← hmarked]
      exact hrole mark hmark
  have hconditionMark : ∀ producer, nodeRole document producer = some role →
      (.data producer true ∈ marks ↔
        ∃ output, .value (.output ⟨producer, output⟩) ∈ bodyLeaves body) := by
    intro producer hrole
    rw [hmarks, mem_leafMarks, mem_referenceMarks]
    simp [hrole]
  have hbodyMark : ∀ producer, nodeRole document producer = some role →
      (.data producer false ∈ marks ↔
        ∃ output, .output ⟨producer, output⟩ ∈ bodyReferences body) := by
    intro producer hrole
    rw [hmarks, mem_leafMarks, mem_referenceMarks]
    simp [hrole]
  refine ⟨hleaves.allowed, hreferences.allowed, hproducer, ?_, ?_, ?_, ?_⟩
  · intro p hp
    rw [(hcontrols.marked_entry hp).2.2.1, hconditionMark _ (hproducer p hp)]
  · intro p hp
    rw [(hcontrols.marked_entry hp).2.1, (hcontrols.marked_entry hp).2.2.1,
      hbodyMark _ (hproducer p hp)]
  · intro producer output hrole hmem
    exact hcontrols.mark_entered ((hconditionMark producer hrole).mpr ⟨output, hmem⟩)
  · intro producer output hrole hmem
    exact hcontrols.mark_entered ((hbodyMark producer hrole).mpr ⟨output, hmem⟩)

end ScherzoCloud.Workflow
