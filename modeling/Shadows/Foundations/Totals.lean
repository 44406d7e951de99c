import Mathlib.Algebra.BigOperators.Finprod
import Mathlib.Algebra.Order.BigOperators.Group.Finset

/-!
# Totals

The total of amounts of which only finitely many are positive. A change of one amount changes the
total by as much.
-/

namespace Foundations

variable {ι : Type*} {f g : ι → ℕ} {i j : ι} {total a : ℕ}

/-- The amounts add up to `total`. -/
structure SumsTo (f : ι → ℕ) (total : ℕ) : Prop where
  finite : (Function.support f).Finite
  sum : ∑ᶠ i, f i = total

namespace SumsTo

theorem single [DecidableEq ι] (i : ι) (a : ℕ) : SumsTo (fun j => if j = i then a else 0) a where
  finite := by
    refine (Set.finite_singleton i).subset fun j hj => ?_
    by_contra hne
    exact hj (if_neg hne)
  sum := by
    rw [finsum_eq_single _ i fun j hj => if_neg hj]
    exact if_pos rfl

theorem add {total' : ℕ} (hf : SumsTo f total) (hg : SumsTo g total') :
    SumsTo (fun i => f i + g i) (total + total') where
  finite := (hf.finite.union hg.finite).subset (Function.support_add f g)
  sum := by rw [finsum_add_distrib hf.finite hg.finite, hf.sum, hg.sum]

theorem congr (h : SumsTo f total) (hfg : ∀ i, g i = f i) : SumsTo g total := by
  obtain rfl : g = f := funext hfg
  exact h

theorem le (h : SumsTo f total) (i : ι) : f i ≤ total := by
  rw [← h.sum]
  exact single_le_finsum i h.finite fun _ => Nat.zero_le _

/-- One amount grows. -/
theorem credit (h : SumsTo f total) (hi : g i = f i + a) (hothers : ∀ j, j ≠ i → g j = f j) :
    SumsTo g (total + a) := by
  classical
  refine (h.add (single i a)).congr fun j => ?_
  by_cases hj : j = i
  · rw [hj, if_pos rfl, hi]
  · rw [if_neg hj, hothers j hj, Nat.add_zero]

/-- One amount shrinks. -/
theorem debit (h : SumsTo f total) (hi : g i + a = f i) (hothers : ∀ j, j ≠ i → g j = f j) :
    ∃ rest, rest + a = total ∧ SumsTo g rest := by
  have hsub : Function.support g ⊆ Function.support f := by
    intro j hj
    by_cases hji : j = i
    · have hpos : g i ≠ 0 := hji ▸ hj
      show f j ≠ 0
      rw [hji]
      omega
    · show f j ≠ 0
      rw [← hothers j hji]
      exact hj
  have hg : SumsTo g (∑ᶠ i, g i) := ⟨h.finite.subset hsub, rfl⟩
  have hback : SumsTo f (∑ᶠ i, g i + a) := hg.credit hi.symm fun j hj => (hothers j hj).symm
  exact ⟨_, hback.sum.symm.trans h.sum, hg⟩

/-- An amount moves. -/
theorem move (h : SumsTo f total) (hij : i ≠ j) (hi : g i + a = f i) (hj : g j = f j + a)
    (hothers : ∀ k, k ≠ i → k ≠ j → g k = f k) : SumsTo g total := by
  classical
  -- between the two changes the amount is nowhere
  let mid : ι → ℕ := Function.update f i (g i)
  have hmidI : mid i = g i := Function.update_self i (g i) f
  have hmidNe : ∀ k, k ≠ i → mid k = f k := fun k hk => Function.update_of_ne hk _ _
  have hdebit : mid i + a = f i := by rw [hmidI, hi]
  obtain ⟨rest, hrest, hmid⟩ := h.debit hdebit hmidNe
  rw [← hrest]
  refine hmid.credit (i := j) ?_ fun k hk => ?_
  · rw [hj, hmidNe j hij.symm]
  · by_cases hki : k = i
    · rw [hki, hmidI]
    · rw [hmidNe k hki, hothers k hki hk]

end SumsTo

end Foundations
