import Mathlib.Order.Lattice
import Mathlib.Logic.Function.Iterate

/-!
# Bisection

A bisection looks for a threshold between two bounds. It tries the upper bound first, then the middle of
the bounds, and goes on with the half that has the threshold.
-/

namespace Foundations

/-- The bounds of a bisection. -/
structure Bounds (α : Type*) where
  lower : α
  upper : α

variable {α : Type*} [LinearOrder α] (middle : α → α → α) (threshold : α)

/-- The half of the bounds that has the threshold. -/
def Bounds.halve (b : Bounds α) : Bounds α :=
  if threshold ≤ middle b.lower b.upper then { b with upper := middle b.lower b.upper }
  else { b with lower := middle b.lower b.upper }

/-- The bounds after `n` halvings. -/
def bisected (start : Bounds α) (n : ℕ) : Bounds α := (Bounds.halve middle threshold)^[n] start

/-- What the bisection tries: the upper bound first, then the middles. -/
def bisectionTry (start : Bounds α) : ℕ → α
  | 0 => start.upper
  | n + 1 =>
    middle (bisected middle threshold start n).lower (bisected middle threshold start n).upper

variable {middle threshold} {start : Bounds α} {n : ℕ}

/-- What is tried becomes the upper bound, if it is not below the threshold. -/
theorem bisected_succ_of_le (h : threshold ≤ bisectionTry middle threshold start (n + 1)) :
    bisected middle threshold start (n + 1) =
      ⟨(bisected middle threshold start n).lower, bisectionTry middle threshold start (n + 1)⟩ := by
  unfold bisected
  rw [Function.iterate_succ_apply']
  exact if_pos h

/-- What is tried becomes the lower bound, if it is below the threshold. -/
theorem bisected_succ_of_lt (h : bisectionTry middle threshold start (n + 1) < threshold) :
    bisected middle threshold start (n + 1) =
      ⟨bisectionTry middle threshold start (n + 1), (bisected middle threshold start n).upper⟩ := by
  unfold bisected
  rw [Function.iterate_succ_apply']
  exact if_neg (not_le.2 h)

/-- The bounds stay in order, and the upper one does not rise. -/
theorem bisected_le
    (hmiddle : ∀ lower upper, lower ≤ upper → lower ≤ middle lower upper ∧ middle lower upper ≤ upper)
    (hstart : start.lower ≤ start.upper) (n : ℕ) :
    (bisected middle threshold start n).lower ≤ (bisected middle threshold start n).upper ∧
      (bisected middle threshold start n).upper ≤ start.upper := by
  induction n with
  | zero => exact ⟨hstart, le_refl _⟩
  | succ n ih =>
    obtain ⟨hlower, hupper⟩ := hmiddle _ _ ih.1
    rcases le_or_gt threshold (bisectionTry middle threshold start (n + 1)) with hle | hlt
    · rw [bisected_succ_of_le hle]
      exact ⟨hlower, hupper.trans ih.2⟩
    · rw [bisected_succ_of_lt hlt]
      exact ⟨hupper, ih.2⟩

/-- Nothing above the first upper bound is tried. -/
theorem bisectionTry_le
    (hmiddle : ∀ lower upper, lower ≤ upper → lower ≤ middle lower upper ∧ middle lower upper ≤ upper)
    (hstart : start.lower ≤ start.upper) (n : ℕ) :
    bisectionTry middle threshold start n ≤ start.upper := by
  cases n with
  | zero => exact le_refl _
  | succ n =>
    obtain ⟨horder, hupper⟩ := bisected_le hmiddle hstart n
    exact (hmiddle _ _ horder).2.trans hupper

end Foundations
