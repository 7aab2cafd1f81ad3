import Mathlib.Logic.Basic

/-!
# Computations that change a state and may fail

A failed computation keeps the state it failed in.  `Ensures x s Q E` says where
the computation `x` leads from the state `s`: to a value and a state in `Q`, or
to a failure in a state in `E`.  The equations take a computation apart at its
binds; a loop over a list keeps what its body keeps.

**Results.**
* `ensures_bind`: a computation is taken apart at its first step.
* `Ensures.mono`: a weaker condition.
* `ensures_forEach`: a loop that extends an invariant by each element of a list.
-/

namespace ScherzoCloud.Collections

variable {ε σ α β : Type}

def Ensures (x : EStateM ε σ α) (s : σ) (Q : α → σ → Prop) (E : σ → Prop) : Prop :=
  match x s with
  | .ok a s' => Q a s'
  | .error _ s' => E s'

variable {s : σ} {Q : α → σ → Prop} {R : β → σ → Prop} {E : σ → Prop}

@[simp] theorem ensures_pure {a : α} : Ensures (pure a : EStateM ε σ α) s Q E ↔ Q a s :=
  Iff.rfl

@[simp] theorem ensures_get {Q : σ → σ → Prop} : Ensures (get : EStateM ε σ σ) s Q E ↔ Q s s :=
  Iff.rfl

@[simp] theorem ensures_modify {f : σ → σ} {Q : PUnit → σ → Prop} :
    Ensures (modify f : EStateM ε σ PUnit) s Q E ↔ Q ⟨⟩ (f s) :=
  Iff.rfl

@[simp] theorem ensures_bind {x : EStateM ε σ α} {f : α → EStateM ε σ β} :
    Ensures (x >>= f) s R E ↔ Ensures x s (fun a s' => Ensures (f a) s' R E) E := by
  simp only [Ensures, bind, EStateM.bind]
  cases x s with
  | ok => exact Iff.rfl
  | error => exact Iff.rfl

theorem Ensures.mono {x : EStateM ε σ α} {Q' : α → σ → Prop} {E' : σ → Prop}
    (h : Ensures x s Q E) (hQ : ∀ a s', Q a s' → Q' a s') (hE : ∀ s', E s' → E' s') :
    Ensures x s Q' E' := by
  unfold Ensures at h ⊢
  split at h
  · exact hQ _ _ h
  · exact hE _ h

/-- A loop over a list, with an invariant about the elements it has come by. -/
theorem ensures_forEach {body : α → EStateM ε σ Unit} {I : List α → σ → Prop}
    (hbody : ∀ seen a s, I seen s → Ensures (body a) s (fun _ s' => I (seen ++ [a]) s') E)
    (rest seen : List α) (hs : I seen s) :
    Ensures (rest.forM body) s (fun _ s' => I (seen ++ rest) s') E := by
  induction rest generalizing seen s with
  | nil => simpa using hs
  | cons a rest ih =>
    show Ensures (body a >>= fun _ => rest.forM body) s _ E
    rw [ensures_bind]
    refine (hbody seen a s hs).mono (fun _ s' hs' => ?_) (fun _ h => h)
    have hrest := ih (seen ++ [a]) hs'
    rwa [List.append_assoc, List.singleton_append] at hrest

end ScherzoCloud.Collections
