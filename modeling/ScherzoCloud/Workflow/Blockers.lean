import ScherzoCloud.Workflow.NodeFacts

/-!
# What blocks a node

Membership in the lists of blockers that the reducer builds, and the evidence
that is made of them: for a node of an accepted definition every blocker is one
of its evidence descriptors, so the evidence is never refused.
-/

namespace ScherzoCloud.Workflow

open Collections
open Prerequisite (mem_mkControl mem_sortDedup sortDedup mkBody)

variable {C V D : Type} {s : RuntimeState C V D} {d : RuntimeStep}
  {prerequisite : ResolvedDirectPrerequisite} {p : Prerequisite}

theorem mem_producerDescriptors {kind : PrerequisiteKind} {producer : String} :
    p ∈ producerDescriptors d kind producer ↔ p ∈ d.evidencePrerequisites ∧ p.kind = kind ∧
      outputReferenceProducer p.target = some producer := by
  simp [producerDescriptors, List.mem_filter]

theorem mem_conditionPrerequisiteBlockers : p ∈ conditionPrerequisiteBlockers s d prerequisite ↔
      ∃ rt, s.steps.get? prerequisite.producer = some rt ∧ rt.state.isTerminal = true ∧
        (d.role = .step ∧ prerequisite.control = true ∧
            ordinaryControlSatisfied s prerequisite = false ∧
            prerequisite.producer ≠ "" ∧ p = .control prerequisite.producer ∨
          prerequisite.conditionData = true ∧ stepDataAvailable rt.state = false ∧
            p ∈ producerDescriptors d .condition prerequisite.producer) := by
  unfold conditionPrerequisiteBlockers
  cases hrt : s.steps.get? prerequisite.producer with
  | none => simp
  | some rt =>
    cases hterminal : rt.state.isTerminal with
    | false => simp [hterminal]
    | true =>
      simp only [hterminal, Bool.not_true, Bool.false_eq_true, if_false, List.mem_append,
        List.mem_ite_nil_right, mem_mkControl, Bool.and_eq_true,
        decide_eq_true_eq, Bool.not_eq_true', Option.some.injEq, exists_eq_left', true_and,
        and_assoc]

theorem mem_bodyPrerequisiteBlockers : p ∈ bodyPrerequisiteBlockers s d prerequisite ↔
      ∃ rt, s.steps.get? prerequisite.producer = some rt ∧ rt.state.isTerminal = true ∧
        (prerequisite.control = true ∧ ordinaryControlSatisfied s prerequisite = false ∧
            prerequisite.producer ≠ "" ∧ p = .control prerequisite.producer ∨
          prerequisite.data = true ∧ stepDataAvailable rt.state = false ∧
            p ∈ producerDescriptors d .body prerequisite.producer) := by
  unfold bodyPrerequisiteBlockers
  cases hrt : s.steps.get? prerequisite.producer with
  | none => simp
  | some rt =>
    cases hterminal : rt.state.isTerminal with
    | false => simp [hterminal]
    | true =>
      simp only [hterminal, Bool.not_true, Bool.false_eq_true, if_false, List.mem_append,
        List.mem_ite_nil_right, mem_mkControl, Bool.and_eq_true,
        Bool.not_eq_true', Option.some.injEq, exists_eq_left', true_and, and_assoc]

theorem mem_conditionSourceBlockers {source : ResolvedValueSource} :
    p ∈ conditionSourceBlockers s source ↔
      ∃ output, source = .output output ∧ settledWithoutData s output.node.id = true ∧
        isOutputReference output.reference = true ∧ p = .condition output.reference := by
  cases source with
  | input | finalizationContext => simp [conditionSourceBlockers]
  | output output =>
    simp only [conditionSourceBlockers, List.mem_ite_nil_right, Prerequisite.mem_mkCondition,
      ResolvedValueSource.output.injEq, exists_eq_left']

theorem mem_conditionBlockers : p ∈ conditionBlockers s d ↔
      (∃ prerequisite ∈ d.prerequisites, p ∈ conditionPrerequisiteBlockers s d prerequisite) ∨
      ∃ canonical source, d.conditionValues.get? canonical = some source ∧
        p ∈ conditionSourceBlockers s source := by
  simp only [conditionBlockers, mem_sortDedup, List.mem_append, List.mem_flatMap,
    BTreeMap.mem_values_iff]
  refine or_congr Iff.rfl ?_
  constructor
  · rintro ⟨source, ⟨canonical, hsource⟩, hp⟩
    exact ⟨canonical, source, hsource, hp⟩
  · rintro ⟨canonical, source, hsource, hp⟩
    exact ⟨source, ⟨canonical, hsource⟩, hp⟩

theorem mem_unavailableReferences {reference : String} :
    reference ∈ unavailableReferences s d ↔ .body reference ∈ d.evidencePrerequisites ∧
      ∃ producer, outputReferenceProducer reference = some producer ∧
        stepIs s producer stepDataAvailable = false := by
  unfold unavailableReferences
  rw [List.mem_filterMap]
  constructor
  · rintro ⟨descriptor, hmem, hsome⟩
    cases descriptor with
    | control | condition => cases hsome
    | body =>
      simp only [Option.ite_none_right_eq_some, Option.some.injEq] at hsome
      obtain ⟨hany, rfl⟩ := hsome
      obtain ⟨producer, hproducer, hdata⟩ := (Option.any_eq_true ..).mp hany
      exact ⟨hmem, producer, hproducer, by simpa using hdata⟩
  · rintro ⟨hmem, producer, hproducer, hdata⟩
    exact ⟨_, hmem, by simp [hproducer, hdata]⟩

variable {definition : RuntimeDefinition} {prerequisites : List Prerequisite}
  {detail : BlockedDetail}

theorem BlockedDetail.mem_new (h : BlockedDetail.new prerequisites = .ok detail) :
    p ∈ detail.prerequisites ↔ p ∈ prerequisites := by
  unfold BlockedDetail.new at h
  dsimp only at h
  split_ifs at h
  cases h
  exact mem_sortDedup

/-- Blockers among the descriptors of a node are accepted as evidence. -/
theorem BlockedDetail.new_ok (hfacts : NodeFacts definition d) (hne : prerequisites ≠ [])
    (hsub : ∀ p ∈ prerequisites, p ∈ d.evidencePrerequisites)
    (hnames : ∀ node, .control node ∈ prerequisites → node ≠ "") :
    ∃ detail, BlockedDetail.new prerequisites = .ok detail := by
  have hlength : (sortDedup prerequisites).length ≤ maximumPrerequisites := by
    refine le_trans ?_ hfacts.evidence_length
    refine (List.subperm_of_subset (Prerequisite.sortDedup_nodup _) ?_).length_le
    exact fun p hp => hsub p (mem_sortDedup.mp hp)
  have hnonempty : (sortDedup prerequisites).isEmpty = false := by
    obtain ⟨p, hp⟩ := List.exists_mem_of_ne_nil _ hne
    cases hsorted : sortDedup prerequisites with
    | nil =>
      have hmem := mem_sortDedup.mpr hp
      rw [hsorted] at hmem
      cases hmem
    | cons => rfl
  have hvalid : (sortDedup prerequisites).any (fun prerequisite =>
      prerequisite.target = "" ||
        (prerequisite.kind ≠ .control && !isOutputReference prerequisite.target)) = false := by
    refine List.any_eq_false.mpr fun p hp => ?_
    have hmem := mem_sortDedup.mp hp
    cases hkind : p.kind with
    | control =>
      cases p with
      | control node => simp [Prerequisite.target, hnames node hmem]
      | condition | body => cases hkind
    | condition | body =>
      obtain ⟨href, -⟩ := hfacts.value_evidence p (hsub p hmem) (by rw [hkind]; simp)
      have htarget : p.target ≠ "" := by
        intro hempty
        rw [hempty] at href
        exact absurd href (by decide)
      simp [href, htarget]
  unfold BlockedDetail.new
  simp only [hnonempty, Bool.false_or, hvalid, Bool.false_eq_true, if_false]
  rw [if_neg (by simpa using hlength)]
  exact ⟨_, rfl⟩

/-- A prerequisite that the evidence of a node may name. -/
def Describes (d : RuntimeStep) (p : Prerequisite) : Prop :=
  p ∈ d.evidencePrerequisites ∧ ∀ node, p = .control node → node ≠ ""

/-- What blocks a node: an output that it reads, or a control dependency of a step that has
settled and is not met. -/
inductive Blocks (s : RuntimeState C V D) (d : RuntimeStep) : Prerequisite → Prop
  | value {p : Prerequisite} (hmem : p ∈ d.evidencePrerequisites) (hkind : p.kind ≠ .control) :
      Blocks s d p
  | control {prerequisite : ResolvedDirectPrerequisite} {rt : StepRuntimeState C V}
      (hrole : d.role = .step) (hmem : prerequisite ∈ d.prerequisites)
      (hcontrol : prerequisite.control = true) (hname : prerequisite.producer ≠ "")
      (hrt : s.steps.get? prerequisite.producer = some rt)
      (hterminal : rt.state.isTerminal = true)
      (hunmet : ordinaryControlSatisfied s prerequisite = false) :
      Blocks s d (.control prerequisite.producer)

theorem Blocks.of_descriptor {kind : PrerequisiteKind} {producer : String} (hkind : kind ≠ .control)
    (hp : p ∈ producerDescriptors d kind producer) : Blocks s d p := by
  obtain ⟨hmem, rfl, -⟩ := mem_producerDescriptors.mp hp
  exact .value hmem hkind

theorem unavailableReferences_blocks (hp : p ∈ (unavailableReferences s d).filterMap
    (fun reference => (mkBody reference).toOption)) : Blocks s d p := by
  obtain ⟨reference, hmem, hbody⟩ := List.mem_filterMap.mp hp
  obtain ⟨-, rfl⟩ := Prerequisite.mem_mkBody.mp (Option.mem_toList.mpr hbody)
  exact .value (mem_unavailableReferences.mp hmem).1 nofun

variable (hfacts : NodeFacts definition d)
include hfacts

theorem conditionBlockers_blocks (hp : p ∈ conditionBlockers s d) : Blocks s d p := by
  rcases mem_conditionBlockers.mp hp with ⟨prerequisite, hmem, hp⟩ |
    ⟨canonical, source, hsource, hp⟩
  · obtain ⟨rt, hrt, hterminal, ⟨hrole, hcontrol, hunmet, hname, rfl⟩ | ⟨-, -, hp⟩⟩ :=
      mem_conditionPrerequisiteBlockers.mp hp
    · exact .control hrole hmem hcontrol hname hrt hterminal hunmet
    · exact .of_descriptor (by simp) hp
  · obtain ⟨output, rfl, -, -, rfl⟩ := mem_conditionSourceBlockers.mp hp
    exact .value (hfacts.conditionValues canonical _ hsource).evidence nofun

theorem ordinaryUnsatisfied_blocks {id : String} (hrole : d.role = .step)
    (hp : p ∈ ordinaryUnsatisfiedPrerequisites s id d) : Blocks s d p := by
  unfold ordinaryUnsatisfiedPrerequisites at hp
  dsimp only at hp
  split_ifs at hp
  · exact conditionBlockers_blocks hfacts hp
  · obtain ⟨prerequisite, hmem, hp⟩ := List.mem_flatMap.mp hp
    obtain ⟨rt, hrt, hterminal, ⟨hcontrol, hunmet, hname, rfl⟩ | ⟨-, -, hp⟩⟩ :=
      mem_bodyPrerequisiteBlockers.mp hp
    · exact .control hrole hmem hcontrol hname hrt hterminal hunmet
    · exact .of_descriptor (by simp) hp

theorem Blocks.describes (h : Blocks s d p) : Describes d p := by
  cases h with
  | value hmem hkind =>
    refine ⟨hmem, ?_⟩
    rintro node rfl
    exact absurd rfl hkind
  | control _ hmem hcontrol hname =>
    refine ⟨hfacts.control_evidence _ hmem hcontrol, ?_⟩
    rintro node ⟨⟩
    exact hname

/-- What blocks a node is accepted as evidence. -/
theorem BlockedDetail.new_ok_of_blocks
    (hne : prerequisites ≠ []) (h : ∀ p ∈ prerequisites, Blocks s d p) :
    ∃ detail, BlockedDetail.new prerequisites = .ok detail :=
  BlockedDetail.new_ok hfacts hne (fun p hp => ((h p hp).describes hfacts).1)
    (fun node hp => ((h _ hp).describes hfacts).2 node rfl)

/-- The evidence of missing inputs is accepted. -/
theorem unavailableReferences_evidence (hne : unavailableReferences s d ≠ []) :
    ∃ detail, BlockedDetail.new ((unavailableReferences s d).filterMap (fun reference =>
      (mkBody reference).toOption)) = .ok detail := by
  refine BlockedDetail.new_ok_of_blocks hfacts ?_ (fun p hp => unavailableReferences_blocks hp)
  obtain ⟨reference, hmem⟩ := List.exists_mem_of_ne_nil _ hne
  obtain ⟨href, -⟩ := hfacts.value_evidence _ (mem_unavailableReferences.mp hmem).1 nofun
  refine List.ne_nil_of_mem (a := .body reference)
    (List.mem_filterMap.mpr ⟨reference, hmem, ?_⟩)
  exact Option.mem_toList.mp (Prerequisite.mem_mkBody.mpr ⟨href, rfl⟩)

end ScherzoCloud.Workflow
