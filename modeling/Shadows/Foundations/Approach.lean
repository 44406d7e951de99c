import Mathlib.Logic.Function.Iterate
import Mathlib.Order.Basic
import Mathlib.Order.MinMax
import Mathlib.Order.Nat

/-!
# Approaching a target in bounded steps

A step moves a number towards a target, by at most a bound that depends on the number and is never
zero. The number never passes the target, and reaches it after as many steps as it is away from it.
-/

namespace Foundations

/-- One step from `p` towards the target. -/
def approach (bound : ℕ → ℕ) (target p : ℕ) : ℕ := min (p + bound p) (max (p - bound p) target)

variable {bound : ℕ → ℕ} {target p : ℕ}

theorem le_approach {lo : ℕ} (hp : lo ≤ p) (ht : lo ≤ target) : lo ≤ approach bound target p := by
  unfold approach
  omega

theorem approach_le {hi : ℕ} (hp : p ≤ hi) (ht : target ≤ hi) : approach bound target p ≤ hi := by
  unfold approach
  omega

/-- A step is not longer than its bound. -/
theorem approach_near (bound : ℕ → ℕ) (target p : ℕ) :
    approach bound target p ≤ p + bound p ∧ p ≤ approach bound target p + bound p := by
  unfold approach
  omega

/-- A target within the bound is reached. -/
theorem approach_eq (habove : target ≤ p + bound p) (hbelow : p ≤ target + bound p) :
    approach bound target p = target := by
  unfold approach
  omega

theorem approach_self : approach bound target target = target := approach_eq (by omega) (by omega)

/-- A step that does not reach the target comes closer to it. -/
theorem approach_gap (hbound : 0 < bound p) (hne : p ≠ target) :
    max (approach bound target p) target - min (approach bound target p) target <
      max p target - min p target := by
  unfold approach
  omega

/-- The target is reached after as many steps as the number is away from it, and kept. -/
theorem iterate_approach (hbound : ∀ p, 0 < bound p) (n : ℕ) :
    ∀ {p : ℕ}, max p target - min p target ≤ n → (approach bound target)^[n] p = target := by
  induction n with
  | zero =>
    intro p hgap
    rw [Function.iterate_zero_apply]
    omega
  | succ n ih =>
    intro p hgap
    rw [Function.iterate_succ_apply]
    apply ih
    rcases eq_or_ne p target with rfl | hne
    · rw [approach_self, max_self, min_self, Nat.sub_self]
      exact Nat.zero_le n
    · have hless := approach_gap (hbound p) hne
      omega

end Foundations
