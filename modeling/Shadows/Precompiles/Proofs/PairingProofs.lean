import Shadows.Precompiles.Proofs.Bn128Proofs
import Shadows.Foundations.Partial

/-!
# Proofs: the check of pairings

The pairs of points that are complete decide about the output. Bytes behind the last of them are not
looked at, so an input with such bytes is refused only for one of its complete pairs.
-/

namespace Shadows.Precompiles

open Foundations Exec

variable {bn : BnApi} {input : Bytes} {cost : UInt64} {first : ℕ}

/-! ## Pairs of points -/

/-- The coordinates come before the points. -/
theorem pairAt_eq (bn : BnApi) (input : Bytes) (first : ℕ) :
    pairAt bn input first =
      (coordinate bn input first).bind fun aX =>
      (coordinate bn input (first + 32)).bind fun aY =>
      (coordinate bn input (first + 64)).bind fun bAY =>
      (coordinate bn input (first + 96)).bind fun bAX =>
      (coordinate bn input (first + 128)).bind fun bBY =>
      (coordinate bn input (first + 160)).bind fun bBX =>
      (twistPoint bn (bn.fq2New bAX bAY) (bn.fq2New bBX bBY)).bind fun b =>
      (curvePoint bn aX aY).map fun a => (a, b) := by
  unfold pairAt pointAt twistPointAt extensionAt
  simp only [Option.bind_assoc, Option.map_eq_bind, Nat.add_assoc]
  refine congrArg (Option.bind _) (funext fun aX => congrArg (Option.bind _) (funext fun aY => ?_))
  cases curvePoint bn aX aY with
  | none => simp
  | some a => rfl

theorem readPair_yields (h : first + 192 ≤ input.length) :
    Yields (readPair bn input first) (pairAt bn input first) := by
  unfold readPair
  rw [pairAt_eq, coordinate_bind (by omega)]
  refine (yields_orRefuse _ _).bind fun aX => ?_
  rw [coordinate_bind (by omega)]
  refine (yields_orRefuse _ _).bind fun aY => ?_
  rw [coordinate_bind (by omega)]
  refine (yields_orRefuse _ _).bind fun bAY => ?_
  rw [coordinate_bind (by omega)]
  refine (yields_orRefuse _ _).bind fun bAX => ?_
  rw [coordinate_bind (by omega)]
  refine (yields_orRefuse _ _).bind fun bBY => ?_
  rw [coordinate_bind (by omega)]
  refine (yields_orRefuse _ _).bind fun bBX => ?_
  exact (point_yields _ _ _ _).bind fun b => (point_yields _ _ _ _).map fun a => (a, b)

/-! ## The whole precompile -/

/-- The pairs of points that are complete. -/
def completePairs (bn : BnApi) (input : Bytes) : Option (List (bn.G1 × bn.G2)) :=
  (List.range (input.length / 192)).mapM fun i => pairAt bn input (i * 192)

theorem completePairs_eq_none :
    completePairs bn input = none ↔
      ∃ i, (i + 1) * 192 ≤ input.length ∧ pairAt bn input (i * 192) = none := by
  have hcomplete : ∀ i, i < input.length / 192 ↔ (i + 1) * 192 ≤ input.length := by omega
  unfold completePairs
  simp only [mapM_eq_none, List.mem_range, hcomplete]

/-- The output is that for the complete pairs. -/
theorem Bn128Pairing.execute_yields (hbn : bn.Correct) :
    Yields (Bn128Pairing.execute bn input cost) ((completePairs bn input).map (pairingOutput bn)) := by
  unfold Bn128Pairing.execute
  split_ifs with hempty
  · have hnil : completePairs bn input = some [] := by
      rw [List.isEmpty_iff.1 hempty]
      rfl
    rw [hnil, Option.map_some, pairingOutput, List.map_nil, List.prod_nil, if_pos rfl]
    rfl
  · have hvals : Yields ((List.range (input.length / 192)).mapM fun idx => readPair bn input (idx * 192))
        (completePairs bn input) := by
      refine Yields.mapM fun i hi => readPair_yields ?_
      rw [List.mem_range] at hi
      omega
    simp only [hbn.pairingBatch, bind_assoc, pure_bind]
    exact hvals.map (pairingOutput bn)

/-- The format is checked exactly for inputs without a tail, and for those with a complete pair that does
not decode. -/
theorem Bn128Pairing.execute_iff (hbn : bn.Correct) :
    Yields (Bn128Pairing.execute bn input cost) ((pairsOf bn input).map (pairingOutput bn)) ↔
      192 ∣ input.length ∨
        ∃ i, (i + 1) * 192 ≤ input.length ∧ pairAt bn input (i * 192) = none := by
  have hyields : Yields (Bn128Pairing.execute bn input cost) _ := execute_yields hbn
  unfold pairsOf
  split_ifs with htail
  · exact iff_of_true hyields (.inl htail)
  · rw [Option.map_none, hyields.none_iff, Option.map_eq_none_iff, completePairs_eq_none,
      or_iff_right htail]

/-- At the point at infinity, for a pair of zero bytes. -/
theorem Bn128Pairing.execute_iff_atInfinity :
    Yields (Bn128Pairing.execute atInfinity (List.replicate 192 0) 0)
        ((pairsOf atInfinity (List.replicate 192 0)).map (pairingOutput atInfinity)) ↔
      192 ∣ (List.replicate 192 (0 : UInt8)).length ∨
        ∃ i, (i + 1) * 192 ≤ (List.replicate 192 (0 : UInt8)).length ∧
          pairAt atInfinity (List.replicate 192 0) (i * 192) = none :=
  Bn128Pairing.execute_iff ⟨fun _ => rfl⟩

/-- One byte is no pair of points, but the product of no pairings is one. -/
theorem Bn128Pairing.one_byte_accepted :
    ¬ ∀ (bn : BnApi), bn.Correct → ∀ (input : Bytes) (cost : UInt64),
      Yields (Bn128Pairing.execute bn input cost) ((pairsOf bn input).map (pairingOutput bn)) := by
  intro h
  obtain ⟨e, he⟩ := h atInfinity ⟨fun _ => rfl⟩ [0] 0
  exact pure_ne_throw he

end Shadows.Precompiles
