import Mathlib.Data.List.Basic
import Mathlib.Data.List.Induction
import Mathlib.Logic.Function.Iterate
import Mathlib.Order.Bounds.Basic

/-!
# One pass with a moving target

A pass over a list that waits for a target, and for the next target once it has met one. The targets
that a list contains from the first one on are all met in the one pass if each of them stands behind
the one before it.
-/

namespace Foundations

variable {α : Type} (next : α → α)

/-- The list contains the first `k` targets. -/
def ContainsFirst (target : α) (xs : List α) (k : ℕ) : Prop := ∀ j < k, next^[j] target ∈ xs

/-- A target stands behind the one before it. -/
def Successive (target : α) (xs : List α) : Prop :=
  ∀ before x after, xs = before ++ x :: after →
    ∀ j < xs.length, x = next^[j + 1] target → next^[j] target ∈ before

variable {next} {target : α}

theorem Successive.of_append {xs ys : List α} (h : Successive next target (xs ++ ys)) :
    Successive next target xs := by
  intro before x after hxs j hj hx
  refine h before x (after ++ ys) ?_ j ?_ hx
  · rw [hxs, List.append_assoc, List.cons_append]
  · rw [List.length_append]
    omega

/-- If the elements before do not contain a target, they do not contain the next one. -/
theorem Successive.notMem_next {xs ys : List α} (h : Successive next target (xs ++ ys)) {k : ℕ}
    (hk : k < (xs ++ ys).length) (hmem : next^[k] target ∉ xs) : next^[k + 1] target ∉ xs := by
  intro hnext
  obtain ⟨before, after, hxs⟩ := List.append_of_mem hnext
  have hsplit : xs ++ ys = before ++ next^[k + 1] target :: (after ++ ys) := by
    rw [hxs, List.append_assoc, List.cons_append]
  apply hmem
  rw [hxs]
  exact List.mem_append_left _ (h before _ _ hsplit k hk rfl)

section Pass

variable [DecidableEq α] (next)

/-- The target after one element. -/
def pursueStep (target x : α) : α := if x = target then next target else target

/-- The target after a pass. -/
def pursue (target : α) (xs : List α) : α := xs.foldl (pursueStep next) target

variable {next}

theorem pursue_append_singleton (xs : List α) (x : α) :
    pursue next target (xs ++ [x]) = pursueStep next (pursue next target xs) x := by
  unfold pursue
  rw [List.foldl_append]
  rfl

/-- The pass meets the first targets up to one that the list does not contain. -/
theorem pursue_spec {xs : List α} (h : Successive next target xs)
    (hdistinct : ∀ j < xs.length, next^[j + 1] target ≠ next^[j] target) :
    ∃ k ≤ xs.length, pursue next target xs = next^[k] target ∧
      ContainsFirst next target xs k ∧ next^[k] target ∉ xs := by
  induction xs using List.reverseRecOn with
  | nil => exact ⟨0, le_rfl, rfl, fun j hj => absurd hj (Nat.not_lt_zero j), List.not_mem_nil⟩
  | append_singleton xs x ih =>
    have hlen : (xs ++ [x]).length = xs.length + 1 := by
      rw [List.length_append, List.length_singleton]
    obtain ⟨k, hk, hpursue, hfirst, hmem⟩ := ih h.of_append fun j hj => hdistinct j (by omega)
    rw [pursue_append_singleton, hpursue]
    by_cases hx : x = next^[k] target
    · refine ⟨k + 1, by omega, ?_, ?_, ?_⟩
      · rw [pursueStep, if_pos hx, Function.iterate_succ_apply']
      · intro j hj
        rcases Nat.lt_succ_iff_lt_or_eq.1 hj with hj | rfl
        · exact List.mem_append_left _ (hfirst j hj)
        · rw [hx]
          exact List.mem_append_right _ (List.mem_singleton_self _)
      · rw [List.mem_append, List.mem_singleton, not_or, hx]
        exact ⟨h.notMem_next (by omega) hmem, hdistinct k (by omega)⟩
    · refine ⟨k, by omega, ?_, ?_, ?_⟩
      · rw [pursueStep, if_neg hx]
      · exact fun j hj => List.mem_append_left _ (hfirst j hj)
      · rw [List.mem_append, List.mem_singleton, not_or]
        exact ⟨hmem, fun he => hx he.symm⟩

/-- The pass ends at the target after the longest run of targets that the list contains. -/
theorem exists_isGreatest_pursue {xs : List α} (h : Successive next target xs)
    (hdistinct : ∀ j < xs.length, next^[j + 1] target ≠ next^[j] target) :
    ∃ k ≤ xs.length, pursue next target xs = next^[k] target ∧
      IsGreatest {k | ContainsFirst next target xs k} k := by
  obtain ⟨k, hk, hpursue, hfirst, hmem⟩ := pursue_spec h hdistinct
  refine ⟨k, hk, hpursue, hfirst, fun m hm => ?_⟩
  by_contra hlt
  exact hmem (hm k (not_le.1 hlt))

end Pass

end Foundations
