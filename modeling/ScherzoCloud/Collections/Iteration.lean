import Mathlib.Data.Finset.Card

/-!
# Loops that run until nothing is left to do

`iterate next n s` applies a partial step at most `n` times.  A `while let`
loop of the source is an instance, with a bound under which it stops by itself.
A computation that may fail is taken apart at its binds.
-/

namespace ScherzoCloud.Collections

universe u

/-- A bind succeeds when both of its parts do. -/
theorem bind_eq_ok_iff {ε α β : Type} {x : Except ε α} {f : α → Except ε β} {b : β} :
    x >>= f = .ok b ↔ ∃ a, x = .ok a ∧ f a = .ok b := by
  cases x with
  | error =>
    refine ⟨fun h => ?_, fun ⟨a, ha, _⟩ => ?_⟩
    · cases h
    · cases ha
  | ok a =>
    refine ⟨fun h => ⟨a, rfl, h⟩, ?_⟩
    rintro ⟨a', ha, h⟩
    cases ha
    exact h

variable {σ : Type u}

/-- Apply a partial step until it is undefined, at most a given number of times. -/
def iterate (next : σ → Option σ) : Nat → σ → σ
  | 0, s => s
  | n + 1, s =>
    match next s with
    | none => s
    | some s' => iterate next n s'

/-- What one step preserves holds when the loop ends. -/
theorem iterate_induction {next : σ → Option σ} {P : σ → Prop}
    (hstep : ∀ s s', P s → next s = some s' → P s') (n : Nat) {s : σ} (hs : P s) :
    P (iterate next n s) := by
  induction n generalizing s with
  | zero => exact hs
  | succ n ih =>
    rw [iterate]
    split
    · exact hs
    · rename_i s' heq
      exact ih (hstep s s' hs heq)

/-- A loop stops by itself when every round takes something out of a finite set and puts nothing
in. -/
theorem iterate_ends {κ : Type*} {next : σ → Option σ} {P : σ → Prop} (left : σ → Finset κ)
    (hstep : ∀ s s', P s → next s = some s' → P s' ∧ left s' ⊂ left s) {n : Nat} {s : σ}
    (hs : P s) (hn : (left s).card < n) : next (iterate next n s) = none := by
  induction n generalizing s with
  | zero => exact absurd hn (Nat.not_lt_zero _)
  | succ n ih =>
    rw [iterate]
    split
    · assumption
    · rename_i s' heq
      obtain ⟨hs', hless⟩ := hstep s s' hs heq
      have hcard := Finset.card_lt_card hless
      exact ih hs' (by omega)

end ScherzoCloud.Collections
