import Mathlib.Data.Fin.Basic
import Mathlib.Data.List.Basic
import Mathlib.Algebra.Order.Ring.Nat

/-!
# Fields with their lengths in front

A stream of fields, each after its length in eight bytes, has one reading only.
-/

namespace ScherzoCloud.Collections

instance byteNeZero : NeZero 256 := ⟨by decide⟩

abbrev Bytes := List (Fin 256)

/-- A number in bytes, the most significant first. -/
def bigEndian : Nat → Nat → Bytes
  | 0, _ => []
  | width + 1, n => bigEndian width (n / 256) ++ [Fin.ofNat 256 n]

@[simp] theorem length_bigEndian (width n : Nat) : (bigEndian width n).length = width := by
  induction width generalizing n with
  | zero => rfl
  | succ width ih => simp [bigEndian, ih]

theorem bigEndian_inj {width m n : Nat} (hm : m < 256 ^ width) (hn : n < 256 ^ width)
    (h : bigEndian width m = bigEndian width n) : m = n := by
  induction width generalizing m n with
  | zero =>
    rw [pow_zero] at hm hn
    omega
  | succ width ih =>
    obtain ⟨hhigh, hlow⟩ := List.append_inj h (by simp)
    rw [pow_succ] at hm hn
    have hdiv := ih (Nat.div_lt_of_lt_mul (by omega)) (Nat.div_lt_of_lt_mul (by omega)) hhigh
    have hmod : m % 256 = n % 256 := congrArg Fin.val (List.singleton_inj.mp hlow)
    omega

/-- A field with its length in front. -/
def frame (bytes : Bytes) : Bytes := bigEndian 8 bytes.length ++ bytes

theorem frame_append_inj {a b x y : Bytes} (ha : a.length < 2 ^ 64) (hb : b.length < 2 ^ 64)
    (h : frame a ++ x = frame b ++ y) : a = b ∧ x = y := by
  rw [frame, frame, List.append_assoc, List.append_assoc] at h
  obtain ⟨hlength, hrest⟩ := List.append_inj h (by simp)
  exact List.append_inj hrest (bigEndian_inj (by omega) (by omega) hlength)

/-- Items that can be read off the front of a stream can be read off all of it. -/
theorem flatMap_inj {α β : Type} {encode : α → List β} {P : α → Prop} (hne : ∀ a, encode a ≠ [])
    (hread : ∀ a b x y, P a → P b → encode a ++ x = encode b ++ y → a = b ∧ x = y)
    {left right : List α} (hleft : ∀ a ∈ left, P a) (hright : ∀ a ∈ right, P a)
    (h : left.flatMap encode = right.flatMap encode) : left = right := by
  induction left generalizing right with
  | nil =>
    cases right with
    | nil => rfl
    | cons b right => simp [hne] at h
  | cons a left ih =>
    cases right with
    | nil => simp [hne] at h
    | cons b right =>
      rw [List.forall_mem_cons] at hleft hright
      obtain ⟨rfl, hrest⟩ := hread a b _ _ hleft.1 hright.1 h
      rw [ih hleft.2 hright.2 hrest]

end ScherzoCloud.Collections
