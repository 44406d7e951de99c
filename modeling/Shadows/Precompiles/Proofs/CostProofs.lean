import Shadows.Precompiles.Precompile

/-!
# Proofs: linear costs

A precompile costs its base and its price for each word of 32 bytes that is begun. It is only executed
with gas for that.
-/

namespace Shadows.Precompiles

open Exec

/-- The words that are begun. -/
theorem words_toNat {len : UInt64} (h : len.toNat + 31 < 2 ^ 64) :
    (saturatingAddU64 len 31 / 32).toNat = (len.toNat + 31) / 32 := by
  have hsum : (saturatingAddU64 len 31).toNat = len.toNat + 31 := by
    unfold saturatingAddU64
    rw [UInt64.toNat_ofNat', show (31 : UInt64).toNat = 31 from rfl]
    omega
  rw [UInt64.toNat_div, hsum]
  rfl

theorem checkedMulU64_bind (a b : UInt64) (f : UInt64 → Exec UInt64) :
    orOutOfGas (checkedMulU64 a b) >>= f =
      if a.toNat * b.toNat < 2 ^ 64 then f (.ofNat (a.toNat * b.toNat)) else throw .outOfGas := by
  unfold checkedMulU64
  split_ifs with h
  · rfl
  · rfl

theorem checkedAddU64_bind (a b : UInt64) (f : UInt64 → Exec UInt64) :
    orOutOfGas (checkedAddU64 a b) >>= f =
      if a.toNat + b.toNat < 2 ^ 64 then f (.ofNat (a.toNat + b.toNat)) else throw .outOfGas := by
  unfold checkedAddU64
  split_ifs with h
  · rfl
  · rfl

/-- The gas is not below the cost. -/
theorem any_lt_iff {targetGas : Option UInt64} {cost : ℕ} (h : cost < 2 ^ 64) :
    (targetGas.any fun gas => gas < .ofNat cost) = true ↔
      ¬ (targetGas.all fun gas => cost ≤ gas.toNat) = true := by
  cases targetGas with
  | none => simp
  | some gas => simp [UInt64.lt_iff_toNat_lt, UInt64.toNat_ofNat_of_lt' h]

/-- The cost is what the base and the words cost, if that is a number of the machine and not above the
gas. -/
theorem ensureLinearCost_eq (targetGas : Option UInt64) {len : UInt64} (base word : UInt64)
    (hlen : len.toNat + 31 < 2 ^ 64) {cost : ℕ}
    (hcost : cost = base.toNat + word.toNat * ((len.toNat + 31) / 32)) :
    ensureLinearCost targetGas len base word =
      if cost < 2 ^ 64 ∧ targetGas.all fun gas => cost ≤ gas.toNat then pure (.ofNat cost)
      else throw .outOfGas := by
  unfold ensureLinearCost
  dsimp only
  rw [checkedMulU64_bind, words_toNat hlen]
  split_ifs with hprice hfits hfits
  · rw [checkedAddU64_bind, UInt64.toNat_ofNat_of_lt' hprice, ← hcost, if_pos hfits.1, if_neg]
    rw [any_lt_iff hfits.1, not_not]
    exact hfits.2
  · rw [checkedAddU64_bind, UInt64.toNat_ofNat_of_lt' hprice, ← hcost]
    split_ifs with hlt hany
    · rfl
    · rw [any_lt_iff hlt, not_not] at hany
      exact absurd ⟨hlt, hany⟩ hfits
    · rfl
  · omega
  · rfl

end Shadows.Precompiles
