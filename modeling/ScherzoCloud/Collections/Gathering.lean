import ScherzoCloud.Collections.BTreeMap
import ScherzoCloud.Collections.Iteration

/-!
# Traversals that only gather

A traversal of a structure replaces the references in it while it threads a state and
may fail.  When the replacement of each reference does not depend on the state, the
traversal is a loop over the list of its references, beside a pure map of the
structure.  `Gathers` says that, and its rules follow the shape of the traversal.

**Results.**
* `Gathers.pure`, `Gathers.bind`, `Gathers.traverseM`: the rules.
* `foldlM_invariant`: what the steps of the loop establish for its references.
* `foldlM_succeeds_iff`: a loop succeeds when all of its steps do.
-/

namespace ScherzoCloud.Collections

universe u v

variable {κ : Type u} [LinearOrder κ] {α β : Type v}

namespace BTreeMap

/-- Replace every value by the result of a computation, in key order. -/
def traverseM {m : Type v → Type v} [Monad m] {κ : Type v} [LinearOrder κ] {α β : Type v}
    (map : BTreeMap κ α) (f : κ → α → m β) : m (BTreeMap κ β) :=
  map.entries.foldlM (fun acc e => do return acc.insert e.1 (← f e.1 e.2)) empty

theorem ext_entries {left right : BTreeMap κ α} (h : left.entries = right.entries) :
    left = right := by
  cases left
  cases right
  cases h
  rfl

/-- Inserting the mapped entries one by one is mapping the values. -/
theorem foldl_insert_mapped (map : BTreeMap κ α) (g : κ → α → β) :
    map.entries.foldl (fun acc e => acc.insert e.1 (g e.1 e.2)) empty = map.mapWithKey g := by
  have hlist : map.entries.foldl (fun acc e => acc.insert e.1 (g e.1 e.2)) empty =
      ofList (map.mapWithKey g).entries := by
    rw [ofList, mapWithKey, List.foldl_map]
  rw [hlist]
  apply ext_entries
  have hperm := entries_ofList (map.mapWithKey g).keys_nodup
  refine hperm.eq_of_pairwise ?_ (ofList _).sorted (map.mapWithKey g).sorted
  intro a b _ _ hab hba
  exact absurd (hab.trans hba) (lt_irrefl _)

end BTreeMap

variable {σ ρ ε β γ : Type} {step : σ → ρ → Except ε σ}

theorem mapError_eq_ok_iff {δ : Type} {f : ε → δ} {x : Except ε β} {b : β} :
    x.mapError f = .ok b ↔ x = .ok b := by
  cases x with
  | error =>
    constructor
    · intro h
      cases h
    · intro h
      cases h
  | ok =>
    constructor
    · intro h
      cases h
      rfl
    · intro h
      cases h
      rfl

theorem map_eq_ok_iff {f : β → γ} {x : Except ε β} {c : γ} :
    x.map f = .ok c ↔ ∃ b, x = .ok b ∧ f b = c := by
  cases x with
  | error =>
    constructor
    · intro h
      cases h
    · rintro ⟨b, h, _⟩
      cases h
  | ok b =>
    constructor
    · intro h
      cases h
      exact ⟨b, rfl, rfl⟩
    · rintro ⟨b', h, rfl⟩
      cases h
      rfl

/-- A bind with a state succeeds when both of its parts do. -/
theorem stateT_bind_eq_ok_iff {t : StateT σ (Except ε) β} {k : β → StateT σ (Except ε) γ} {s : σ}
    {r : γ × σ} : (t >>= k) s = .ok r ↔ ∃ b s', t s = .ok (b, s') ∧ k b s' = .ok r := by
  change (t s >>= fun p => k p.1 p.2) = _ ↔ _
  rw [bind_eq_ok_iff, Prod.exists]

/-- The computation takes the references in order and results in `b`. -/
def Gathers (step : σ → ρ → Except ε σ) (t : StateT σ (Except ε) β) (b : β)
    (references : List ρ) : Prop :=
  ∀ s, t s = (references.foldlM step s).map (fun s' => (b, s'))

namespace Gathers

theorem pure (b : β) : Gathers step (Pure.pure b) b [] :=
  fun _ => rfl

theorem bind {t : StateT σ (Except ε) β} {b : β} {k : β → StateT σ (Except ε) γ} {c : γ}
    {left right : List ρ} (ht : Gathers step t b left) (hk : Gathers step (k b) c right) :
    Gathers step (t >>= k) c (left ++ right) := by
  intro s
  rw [List.foldlM_append]
  change (t s >>= fun p => k p.1 p.2) = _
  rw [ht s]
  cases left.foldlM step s with
  | error => rfl
  | ok s' => exact hk s'

/-- A computation followed by a pure function of its result. -/
theorem map {t : StateT σ (Except ε) β} {b : β} {references : List ρ} (f : β → γ)
    (ht : Gathers step t b references) :
    Gathers step (t >>= fun b => Pure.pure (f b)) (f b) references := by
  have h : Gathers step (t >>= fun b => Pure.pure (f b)) (f b) (references ++ []) :=
    ht.bind (Gathers.pure (f b))
  rwa [List.append_nil] at h

theorem foldlM {α : Type} {f : β → α → StateT σ (Except ε) β} {g : β → α → β}
    {references : α → List ρ} (hf : ∀ b a, Gathers step (f b a) (g b a) (references a))
    (l : List α) (b : β) : Gathers step (l.foldlM f b) (l.foldl g b) (l.flatMap references) := by
  induction l generalizing b with
  | nil => exact Gathers.pure b
  | cons a l ih =>
    rw [List.foldlM_cons, List.foldl_cons, List.flatMap_cons]
    exact (hf b a).bind (ih (g b a))

theorem traverseM {κ α : Type} [LinearOrder κ] (map : BTreeMap κ α)
    {f : κ → α → StateT σ (Except ε) β} {g : κ → α → β} {references : κ → α → List ρ}
    (hf : ∀ k a, Gathers step (f k a) (g k a) (references k a)) :
    Gathers step (map.traverseM f) (map.mapWithKey g)
      (map.entries.flatMap fun e => references e.1 e.2) := by
  rw [← BTreeMap.foldl_insert_mapped]
  exact foldlM (fun acc e => (hf e.1 e.2).map (acc.insert e.1)) map.entries _

end Gathers

variable {σ ρ ε : Type} {step : σ → ρ → Except ε σ}

/-- What each step establishes for its reference, and later steps keep, holds for all
references at the end. -/
theorem foldlM_invariant {I : σ → Prop} {P : ρ → σ → Prop}
    (hstep : ∀ s r s', I s → step s r = .ok s' → I s' ∧ P r s' ∧ ∀ q, P q s → P q s')
    {references : List ρ} {s s' : σ} (hs : I s) (h : references.foldlM step s = .ok s') :
    I s' ∧ (∀ r ∈ references, P r s') ∧ ∀ q, P q s → P q s' := by
  induction references generalizing s with
  | nil =>
    cases h
    exact ⟨hs, by simp, fun _ hq => hq⟩
  | cons r references ih =>
    rw [List.foldlM_cons] at h
    obtain ⟨t, ht, h⟩ := bind_eq_ok_iff.mp h
    obtain ⟨hinv, hr, hkeep⟩ := hstep s r t hs ht
    obtain ⟨hinv', hall, hkeep'⟩ := ih hinv h
    refine ⟨hinv', ?_, fun q hq => hkeep' q (hkeep q hq)⟩
    intro q hq
    rcases List.mem_cons.mp hq with rfl | hq
    · exact hkeep' q hr
    · exact hall q hq

/-- A loop succeeds when all of its steps do, if what makes a step succeed does not
change. -/
theorem foldlM_succeeds_iff {I : σ → Prop} {A : ρ → Prop}
    (hstep : ∀ s r, I s → ((∃ s', step s r = .ok s') ↔ A r) ∧ ∀ s', step s r = .ok s' → I s')
    (references : List ρ) {s : σ} (hs : I s) :
    ((∃ s', references.foldlM step s = .ok s') ↔ ∀ r ∈ references, A r) ∧
      ∀ s', references.foldlM step s = .ok s' → I s' := by
  induction references generalizing s with
  | nil =>
    refine ⟨⟨fun _ => by simp, fun _ => ⟨s, rfl⟩⟩, ?_⟩
    intro s' h
    cases h
    exact hs
  | cons r references ih =>
    obtain ⟨hsucceeds, hkeeps⟩ := hstep s r hs
    rw [List.forall_mem_cons, ← hsucceeds]
    simp only [List.foldlM_cons, bind_eq_ok_iff]
    refine ⟨⟨?_, ?_⟩, ?_⟩
    · rintro ⟨s', t, ht, h⟩
      exact ⟨⟨t, ht⟩, (ih (hkeeps t ht)).1.mp ⟨s', h⟩⟩
    · rintro ⟨⟨t, ht⟩, hall⟩
      obtain ⟨s', h⟩ := (ih (hkeeps t ht)).1.mpr hall
      exact ⟨s', t, ht, h⟩
    · rintro s' ⟨t, ht, h⟩
      exact (ih (hkeeps t ht)).2 s' h

end ScherzoCloud.Collections
