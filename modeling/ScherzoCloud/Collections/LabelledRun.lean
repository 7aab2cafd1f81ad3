import Mathlib.Algebra.Group.Defs

/-!
# Runs of a labelled transition system

A step leads from one state to another and emits a label; the labels of a run
are multiplied in the order of its steps.  A program that appends to an output
while it changes its state is such a system, with lists under concatenation as
labels.

**Results.**
* `LabelledRun.trans`, `LabelledRun.mono`: runs compose, and a run of a smaller
  step relation is a run of a larger one.
* `LabelledRun.history`: what every step preserves about the emission so far
  and the current state holds after a run.
* `LabelledRun.invariant`: the same for a property of states.
-/

namespace ScherzoCloud.Collections

universe u v

variable {σ : Type u} {M : Type v} [Monoid M]

/-- Finitely many steps, with the product of their labels. -/
inductive LabelledRun (step : σ → M → σ → Prop) : σ → M → σ → Prop
  | refl (s : σ) : LabelledRun step s 1 s
  | tail {s t u : σ} {m n : M} :
      LabelledRun step s m t → step t n u → LabelledRun step s (m * n) u

namespace LabelledRun

variable {step : σ → M → σ → Prop} {s t u : σ} {m n : M}

theorem single (h : step s m t) : LabelledRun step s m t := by
  have hrun := tail (refl s) h
  rwa [one_mul] at hrun

theorem trans (hst : LabelledRun step s m t) (htu : LabelledRun step t n u) :
    LabelledRun step s (m * n) u := by
  induction htu with
  | refl => rwa [mul_one]
  | tail _ hstep ih =>
    rw [← mul_assoc]
    exact tail ih hstep

theorem mono {step' : σ → M → σ → Prop} (hsub : ∀ s m t, step s m t → step' s m t)
    (h : LabelledRun step s m t) : LabelledRun step' s m t := by
  induction h with
  | refl => exact refl s
  | tail _ hstep ih => exact tail ih (hsub _ _ _ hstep)

theorem history {I : M → σ → Prop} (hstep : ∀ m s n t, I m s → step s n t → I (m * n) t)
    (h : LabelledRun step s n t) (hs : I m s) : I (m * n) t := by
  induction h with
  | refl => rwa [mul_one]
  | tail _ hlast ih =>
    rw [← mul_assoc]
    exact hstep _ _ _ _ ih hlast

theorem invariant {I : σ → Prop} (hstep : ∀ s n t, I s → step s n t → I t)
    (h : LabelledRun step s n t) (hs : I s) : I t :=
  history (I := fun (_ : M) s => I s) (m := 1) (fun _ s n t hI hst => hstep s n t hI hst) h hs

end LabelledRun

end ScherzoCloud.Collections
