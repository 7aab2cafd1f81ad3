import ScherzoCloud.Collections.BTreeMap

/-!
# Topological order by counting unmet producers

Kahn's algorithm as the workflow validator runs it.  Every node has a list of
producers; `dependents` inverts it.  A node whose last producer was placed
becomes ready, and among the ready nodes the one that comes first in the source
order is placed next.  Nodes on or behind a cycle are never placed.

The loop is bounded by the number of nodes: a node becomes ready at most once.

**Results.**
* `order_placed`: every node is placed once, after its producers.
* `exists_rank`: when every node was placed, the graph has no cycle.
-/

namespace ScherzoCloud.Collections
namespace TopologicalOrder

universe u

variable {κ : Type u} [LinearOrder κ] {producers : BTreeMap κ (List κ)} {indices : BTreeMap κ Nat}
  {placed sourceOrder : List κ} {node : κ} {i : Nat}

/-- Append to the list of a key. -/
def push (m : BTreeMap κ (List κ)) (k d : κ) : BTreeMap κ (List κ) :=
  m.insert k ((m.get? k).getD [] ++ [d])

/-- The nodes that have a given node among their producers. -/
def dependents (producers : BTreeMap κ (List κ)) : BTreeMap κ (List κ) :=
  producers.entries.foldl (fun acc e => e.2.foldl (fun acc p => push acc p e.1) acc) BTreeMap.empty

/-- Unmet producer counts and the ready nodes by source index. -/
structure Frontier (κ : Type u) [LinearOrder κ] where
  remaining : BTreeMap κ Nat
  ready : BTreeMap Nat κ

/-- Count one producer of a node as placed. -/
def Frontier.release (indices : BTreeMap κ Nat) (frontier : Frontier κ) (d : κ) : Frontier κ :=
  match frontier.remaining.get? d with
  | none => frontier
  | some count =>
    { remaining := frontier.remaining.insert d (count - 1)
      ready :=
        if count - 1 = 0 then
          match indices.get? d with
          | some index => frontier.ready.insert index d
          | none => frontier.ready
        else frontier.ready }

/-- Place ready nodes until none is left. -/
def drain (indices : BTreeMap κ Nat) (dependents : BTreeMap κ (List κ)) :
    Nat → Frontier κ → List κ → List κ
  | 0, _, placed => placed
  | fuel + 1, frontier, placed =>
    match frontier.ready.popFirst with
    | none => placed
    | some ((_, node), ready) =>
      drain indices dependents fuel
        (((dependents.get? node).getD []).foldl (Frontier.release indices)
          { frontier with ready := ready })
        (placed ++ [node])

/-- Position of every node in the source order. -/
def sourceIndices (sourceOrder : List κ) : BTreeMap κ Nat :=
  .ofList sourceOrder.zipIdx

/-- The nodes without producers are ready at the start. -/
def initialFrontier (indices : BTreeMap κ Nat) (producers : BTreeMap κ (List κ)) : Frontier κ where
  remaining := producers.mapWithKey (fun _ ps => ps.length)
  ready := .ofList
    (producers.entries.filterMap (fun e =>
      if e.2.length = 0 then (indices.get? e.1).map (fun index => (index, e.1)) else none))

/-- The nodes that can be placed, in the order of placement. -/
def order (producers : BTreeMap κ (List κ)) (sourceOrder : List κ) : List κ :=
  let indices := sourceIndices sourceOrder
  drain indices (dependents producers) (producers.size + 1) (initialFrontier indices producers) []

/-- Every node of the list comes once and after its producers. -/
inductive Placed (producers : BTreeMap κ (List κ)) : List κ → Prop
  | nil : Placed producers []
  | snoc {placed ps : List κ} {node : κ} (h : Placed producers placed) (hnew : node ∉ placed)
      (hps : producers.get? node = some ps) (hmet : ∀ p ∈ ps, p ∈ placed) :
      Placed producers (placed ++ [node])

theorem Placed.nodup (h : Placed producers placed) : placed.Nodup := by
  induction h with
  | nil => exact List.nodup_nil
  | snoc _ hnew _ _ ih =>
    exact List.nodup_append.mpr ⟨ih, List.nodup_singleton _, fun a ha b hb hab => by
      rw [List.mem_singleton] at hb
      exact hnew (hb ▸ hab ▸ ha)⟩

/-- The position of a producer is before that of the node. -/
theorem Placed.idxOf_lt (h : Placed producers placed) (hnode : node ∈ placed) :
    ∃ ps, producers.get? node = some ps ∧
      ∀ p ∈ ps, p ∈ placed ∧ placed.idxOf p < placed.idxOf node := by
  induction h with
  | nil => cases hnode
  | @snoc _ ps _ _ hnew hps hmet ih =>
    rcases List.mem_append.mp hnode with hmem | hlast
    · obtain ⟨ps', hps', hbefore⟩ := ih hmem
      refine ⟨ps', hps', fun p hp => ?_⟩
      obtain ⟨hp', hlt⟩ := hbefore p hp
      rw [List.idxOf_append_of_mem hp', List.idxOf_append_of_mem hmem]
      exact ⟨List.mem_append_left _ hp', hlt⟩
    · rw [List.mem_singleton.mp hlast]
      refine ⟨ps, hps, fun p hp => ⟨List.mem_append_left _ (hmet p hp), ?_⟩⟩
      rw [List.idxOf_append_of_mem (hmet p hp), List.idxOf_append_of_notMem hnew]
      exact Nat.lt_of_lt_of_le (List.idxOf_lt_length_of_mem (hmet p hp)) (Nat.le_add_right _ _)

/-- How often a node stands in the list of a key. -/
def multiplicity (m : BTreeMap κ (List κ)) (k d : κ) : Nat := ((m.get? k).getD []).count d

theorem multiplicity_push (m : BTreeMap κ (List κ)) (k d n e : κ) :
    multiplicity (push m k d) n e = multiplicity m n e + if n = k ∧ e = d then 1 else 0 := by
  unfold multiplicity push
  rw [BTreeMap.get?_insert]
  by_cases hn : n = k
  · subst hn
    by_cases he : e = d
    · subst he
      simp
    · simp [he, Ne.symm he]
  · simp [hn]

theorem multiplicity_foldl_push (ps : List κ) (acc : BTreeMap κ (List κ)) (k n e : κ) :
    multiplicity (ps.foldl (fun acc p => push acc p k) acc) n e =
      multiplicity acc n e + if e = k then ps.count n else 0 := by
  induction ps generalizing acc with
  | nil => simp
  | cons p ps ih =>
    rw [List.foldl_cons, ih, multiplicity_push, List.count_cons]
    by_cases he : e = k
    · by_cases hn : n = p
      · simp [he, hn]
        omega
      · simp [he, hn, Ne.symm hn]
    · simp [he]

theorem multiplicity_foldl_entries (entries : List (κ × List κ))
    (hsorted : entries.Pairwise (fun a b => a.1 < b.1)) (acc : BTreeMap κ (List κ)) (n e : κ) :
    multiplicity (entries.foldl
        (fun acc entry => entry.2.foldl (fun acc p => push acc p entry.1) acc) acc) n e =
      multiplicity acc n e + ((BTreeMap.lookup e entries).getD []).count n := by
  induction entries generalizing acc with
  | nil => simp [BTreeMap.lookup]
  | cons entry entries ih =>
    rw [List.pairwise_cons] at hsorted
    rw [List.foldl_cons, ih hsorted.2, multiplicity_foldl_push, BTreeMap.lookup]
    by_cases he : entry.1 = e
    · -- the keys are distinct: the rest of the entries has nothing under this one
      have hnone : BTreeMap.lookup e entries = none := by
        refine Option.eq_none_iff_forall_ne_some.mpr (fun ps hps => ?_)
        exact (hsorted.1 _ ((BTreeMap.lookup_eq_some_iff hsorted.2).mp hps)).ne he
      simp [he, hnone]
    · simp [he, Ne.symm he]

/-- A node stands among the dependents of a producer as often as the producer stands among
those of the node. -/
theorem multiplicity_dependents (producers : BTreeMap κ (List κ)) (n d : κ) :
    multiplicity (dependents producers) n d = multiplicity producers d n := by
  refine (multiplicity_foldl_entries producers.entries producers.sorted _ n d).trans ?_
  simp [multiplicity, BTreeMap.get?, BTreeMap.empty, BTreeMap.lookup]

theorem release_remaining (frontier : Frontier κ) (e d : κ) :
    (frontier.release indices e).remaining.get? d =
      (frontier.remaining.get? d).map (fun count => count - if d = e then 1 else 0) := by
  unfold Frontier.release
  split
  · rename_i hnone
    by_cases hd : d = e
    · rw [hd, hnone]
      rfl
    · simp [hd]
  · rename_i count hcount
    rw [BTreeMap.get?_insert]
    by_cases hd : d = e
    · simp [hd, hcount]
    · simp [hd]

theorem release_ready {frontier : Frontier κ} {e d : κ}
    (h : (frontier.release indices e).ready.get? i = some d) :
    frontier.ready.get? i = some d ∨ d = e ∧ indices.get? d = some i ∧
      (frontier.release indices e).remaining.get? d = some 0 := by
  unfold Frontier.release at h ⊢
  split at h
  · exact Or.inl h
  · rename_i count _
    dsimp only at h
    split_ifs at h with hlast
    · split at h
      · rename_i index hindex
        rw [BTreeMap.get?_insert] at h
        split_ifs at h with hi
        · cases h
          exact Or.inr ⟨rfl, hi ▸ hindex, by simp [BTreeMap.get?_insert, hlast]⟩
        · exact Or.inl h
      · exact Or.inl h
    · exact Or.inl h

/-- Releasing a list of nodes lowers their counts; who becomes ready has none left. -/
theorem foldl_release_spec (indices : BTreeMap κ Nat) (ds : List κ) (frontier : Frontier κ) :
    let released := ds.foldl (Frontier.release indices) frontier
    (∀ d, released.remaining.get? d =
      (frontier.remaining.get? d).map (fun count => count - ds.count d)) ∧
    ∀ i d, released.ready.get? i = some d → frontier.ready.get? i = some d ∨
      d ∈ ds ∧ indices.get? d = some i ∧ released.remaining.get? d = some 0 := by
  induction ds generalizing frontier with
  | nil => exact ⟨fun d => by simp, fun i d h => Or.inl h⟩
  | cons e ds ih =>
    obtain ⟨hcounts, hready⟩ := ih (frontier.release indices e)
    refine ⟨fun d => ?_, fun i d h => ?_⟩
    · rw [List.foldl_cons, hcounts, release_remaining, Option.map_map]
      refine congrArg (fun f => (frontier.remaining.get? d).map f) (funext fun count => ?_)
      simp only [Function.comp_apply, List.count_cons, beq_iff_eq, @eq_comm _ e]
      omega
    · rcases hready i d h with hbefore | ⟨hmem, hindex, hzero⟩
      · rcases release_ready hbefore with hkept | ⟨rfl, hindex, hzero⟩
        · exact Or.inl hkept
        · -- it became ready with the first release, and its count only falls
          refine Or.inr ⟨List.mem_cons_self, hindex, ?_⟩
          rw [List.foldl_cons, hcounts, hzero]
          simp
      · exact Or.inr ⟨List.mem_cons_of_mem _ hmem, hindex, hzero⟩

/-- The counts are those of the producers that have not been placed, and the ready nodes are
new and have none. -/
structure Consistent (indices : BTreeMap κ Nat) (producers : BTreeMap κ (List κ))
    (frontier : Frontier κ) (placed : List κ) : Prop where
  counts : ∀ d, frontier.remaining.get? d =
    (producers.get? d).map (fun ps => ps.countP (fun p => decide (p ∉ placed)))
  ready : ∀ i d, frontier.ready.get? i = some d → indices.get? d = some i ∧ d ∉ placed ∧
    ∃ ps, producers.get? d = some ps ∧ ∀ p ∈ ps, p ∈ placed

theorem countP_append_singleton (hnew : node ∉ placed) (ps : List κ) :
    ps.countP (fun p => decide (p ∉ placed)) - ps.count node =
      ps.countP (fun p => decide (p ∉ placed ++ [node])) := by
  have hsum : ps.countP (fun p => decide (p ∉ placed ++ [node])) + ps.count node =
      ps.countP (fun p => decide (p ∉ placed)) := by
    induction ps with
    | nil => rfl
    | cons p ps ih =>
      rw [List.countP_cons, List.countP_cons, List.count_cons, ← ih]
      by_cases hp : p = node
      · simp [hp, hnew]
        omega
      · simp [hp]
        omega
  omega

theorem initialFrontier_consistent : Consistent indices producers
    (initialFrontier indices producers) [] where
  counts d := by
    rw [initialFrontier, BTreeMap.get?_mapWithKey]
    refine congrArg (fun f => (producers.get? d).map f) (funext fun ps => ?_)
    simp
  ready i d h := by
    obtain ⟨⟨d', ps⟩, hentry, heq⟩ := List.mem_filterMap.mp (BTreeMap.mem_of_get?_ofList h)
    split_ifs at heq with hempty
    obtain ⟨index, hindex, heq⟩ := Option.map_eq_some_iff.mp heq
    cases heq
    have hnone : ps = [] := List.length_eq_zero_iff.mp hempty
    exact ⟨hindex, List.not_mem_nil, ps, BTreeMap.get?_eq_some_iff.mpr hentry, by simp [hnone]⟩

/-- Placing a ready node and releasing its dependents keeps the counts right. -/
theorem Consistent.place {remaining : BTreeMap κ Nat} {ready ready' : BTreeMap Nat κ}
    (hplaced : Placed producers placed) (h : Consistent indices producers ⟨remaining, ready⟩ placed)
    (hpop : ready.popFirst = some ((i, node), ready')) :
    Placed producers (placed ++ [node]) ∧ Consistent indices producers
      ((((dependents producers).get? node).getD []).foldl (Frontier.release indices)
        ⟨remaining, ready'⟩) (placed ++ [node]) := by
  obtain ⟨hget, hrest⟩ := BTreeMap.popFirst_spec hpop
  obtain ⟨hindex, hnew, ps, hps, hmet⟩ := h.ready i node hget
  have hcount : ∀ d qs, producers.get? d = some qs →
      (((dependents producers).get? node).getD []).count d = qs.count node := by
    intro d qs hqs
    refine (multiplicity_dependents producers node d).trans ?_
    rw [multiplicity, hqs, Option.getD_some]
  obtain ⟨hcounts, hready⟩ := foldl_release_spec indices
    (((dependents producers).get? node).getD []) ⟨remaining, ready'⟩
  have hcounts' : ∀ d, ((((dependents producers).get? node).getD []).foldl
      (Frontier.release indices) ⟨remaining, ready'⟩).remaining.get? d =
      (producers.get? d).map (fun qs => qs.countP (fun p => decide (p ∉ placed ++ [node]))) := by
    intro d
    rw [hcounts, h.counts, Option.map_map]
    cases hqs : producers.get? d with
    | none => rfl
    | some qs =>
      rw [Option.map_some, Option.map_some, Function.comp_apply, hcount d qs hqs,
        countP_append_singleton hnew]
  refine ⟨.snoc hplaced hnew hps hmet, hcounts', fun j d hj => ?_⟩
  rcases hready j d hj with hkept | ⟨hmem, hindex', hzero⟩
  · obtain ⟨hj', hne⟩ := (hrest j d).mp hkept
    obtain ⟨hindex', hnew', qs, hqs, hmet'⟩ := h.ready j d hj'
    refine ⟨hindex', ?_, qs, hqs, fun p hp => List.mem_append_left _ (hmet' p hp)⟩
    -- another ready node: its index is not the one that was taken
    rw [List.mem_append, List.mem_singleton, not_or]
    refine ⟨hnew', fun heq => hne ?_⟩
    exact Option.some.inj (hindex'.symm.trans (heq ▸ hindex))
  · -- a released node has the placed node among its producers
    rw [hcounts'] at hzero
    obtain ⟨qs, hqs, hnone⟩ := Option.map_eq_some_iff.mp hzero
    have hproducer : node ∈ qs := by
      have hpos := List.count_pos_iff.mpr hmem
      rw [hcount d qs hqs] at hpos
      exact List.count_pos_iff.mp hpos
    refine ⟨hindex', ?_, qs, hqs, fun p hp => ?_⟩
    · rw [List.mem_append, List.mem_singleton, not_or]
      constructor
      · intro hd
        obtain ⟨qs', hqs', hbefore⟩ := hplaced.idxOf_lt hd
        cases hqs.symm.trans hqs'
        exact hnew (hbefore node hproducer).1
      · rintro rfl
        cases hqs.symm.trans hps
        exact hnew (hmet d hproducer)
    · have hp' := List.countP_eq_zero.mp hnone p hp
      simpa only [decide_not, Bool.not_eq_true', decide_eq_false_iff_not, not_not] using hp'

theorem drain_placed (fuel : Nat) {frontier : Frontier κ} (hplaced : Placed producers placed)
    (h : Consistent indices producers frontier placed) :
    Placed producers (drain indices (dependents producers) fuel frontier placed) := by
  induction fuel generalizing frontier placed with
  | zero => exact hplaced
  | succ fuel ih =>
    rw [drain]
    split
    · exact hplaced
    · rename_i i node ready' hpop
      obtain ⟨hplaced', h'⟩ := h.place hplaced hpop
      exact ih hplaced' h'

/-- Every node is placed once, after its producers. -/
theorem order_placed (producers : BTreeMap κ (List κ)) (sourceOrder : List κ) :
    Placed producers (order producers sourceOrder) :=
  drain_placed _ .nil initialFrontier_consistent

/-- When every node was placed, the order lists all of them. -/
theorem order_perm (hall : (order producers sourceOrder).length = producers.size) :
    (order producers sourceOrder).Perm producers.keys := by
  have hplaced := order_placed producers sourceOrder
  have hsub : ∀ node ∈ order producers sourceOrder, node ∈ producers.keys := by
    intro node hnode
    obtain ⟨ps, hps, -⟩ := hplaced.idxOf_lt hnode
    exact BTreeMap.mem_keys_iff.mpr ⟨ps, hps⟩
  have hlength : producers.keys.length ≤ (order producers sourceOrder).length := by
    rw [hall, BTreeMap.keys, List.length_map, BTreeMap.size]
  exact (List.subperm_of_subset hplaced.nodup hsub).perm_of_length_le hlength

/-- When every node was placed, producers have lower ranks: the graph has no cycle. -/
theorem exists_rank (hall : (order producers sourceOrder).length = producers.size) :
    ∃ rank : κ → Nat, ∀ node ps, producers.get? node = some ps → ∀ p ∈ ps, rank p < rank node := by
  refine ⟨fun node => (order producers sourceOrder).idxOf node, fun node ps hps p hp => ?_⟩
  have hnode := (order_perm hall).mem_iff.mpr (BTreeMap.mem_keys_iff.mpr ⟨ps, hps⟩)
  obtain ⟨ps', hps', hbefore⟩ := (order_placed producers sourceOrder).idxOf_lt hnode
  cases hps.symm.trans hps'
  exact (hbefore p hp).2

end TopologicalOrder
end ScherzoCloud.Collections
