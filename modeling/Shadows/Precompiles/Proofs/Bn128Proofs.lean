import Shadows.Precompiles.Bn128

/-!
# Proofs: addition and multiplication on the curve

A word is read only where all of it is there. Then the precompiles answer, and otherwise they panic unless
something before was refused. Without a panic, zero bytes behind the input make no difference.
-/

namespace Shadows.Precompiles

open Foundations Exec

variable {bn : BnApi} {input : Bytes} {cost : UInt64} {first : ℕ}

/-! ## Words -/

theorem readWord_eq (h : first + 32 ≤ input.length) :
    readWord input first = pure ((input.drop first).take 32) := by
  unfold readWord
  rw [slice_eq (Nat.le_add_right first 32) h, Nat.add_sub_cancel_left]
  rfl

theorem readWord_panics (h : input.length < first + 32) : readWord input first = panicked := by
  unfold readWord
  rw [slice_eq_none h]
  rfl

theorem readWord_agrees (input extra : Bytes) (first : ℕ) :
    Agrees (readWord input first) (readWord (input ++ extra) first) := by
  intro hpanicked
  have hlen : first + 32 ≤ input.length := by
    by_contra hshort
    exact hpanicked (readWord_panics (Nat.lt_of_not_le hshort))
  rw [readWord_eq hlen, readWord_eq (by rw [List.length_append]; omega),
    List.drop_append_of_le_length (by omega),
    List.take_append_of_le_length (by rw [List.length_drop]; omega)]

/-- An element of the field that is there is read, or refused. -/
theorem coordinate_bind (h : first + 32 ≤ input.length) (message : String) {α : Type}
    (f : bn.Fq → Exec α) :
    (do
      let word ← readWord input first
      let x ← orRefuse message (bn.fqFromSlice word)
      f x) = orRefuse message (coordinate bn input first) >>= f := by
  rw [readWord_eq h]
  rfl

/-! ## Points -/

section Points

/-- A point, or the one at infinity, which is not looked up. -/
theorem point_yields {infinite : Prop} [Decidable infinite] {α β : Type} (zero : β) (message : String)
    (point : Option α) (toPoint : α → β) :
    Yields
      (if infinite then pure zero
        else do
          let point ← orRefuse message point
          pure (toPoint point))
      (if infinite then some zero else point.map toPoint) := by
  split_ifs
  · rfl
  · exact (yields_orRefuse message point).map toPoint

/-- What there is of a point is refused. -/
def PointRefused (bn : BnApi) (input : Bytes) (first : ℕ) : Prop :=
  first + 32 ≤ input.length ∧ coordinate bn input first = none ∨
    first + 64 ≤ input.length ∧ pointAt bn input first = none

theorem readPoint_yields (h : first + 64 ≤ input.length) :
    Yields (readPoint bn input first) (pointAt bn input first) := by
  unfold readPoint pointAt
  rw [coordinate_bind (by omega)]
  refine (yields_orRefuse _ _).bind fun px => ?_
  rw [coordinate_bind (by omega)]
  exact (yields_orRefuse _ _).bind fun py => point_yields _ _ _ _

/-- Of a point that is not all there, the first coordinate may still be refused. -/
theorem readPoint_refused (hlen : first + 32 ≤ input.length) (h : coordinate bn input first = none) :
    Yields (readPoint bn input first) none := by
  unfold readPoint
  rw [coordinate_bind hlen, h]
  exact ⟨_, rfl⟩

theorem readPoint_panics (hlen : input.length < first + 64)
    (h : first + 32 ≤ input.length → coordinate bn input first ≠ none) :
    readPoint bn input first = panicked := by
  unfold readPoint
  rcases Nat.lt_or_ge input.length (first + 32) with hshort | hlong
  · rw [readWord_panics hshort]
    rfl
  · obtain ⟨px, hpx⟩ := Option.ne_none_iff_exists'.1 (h hlong)
    rw [coordinate_bind hlong, hpx, readWord_panics (show input.length < first + 32 + 32 by omega)]
    rfl

theorem readPoint_ne_panicked :
    readPoint bn input first ≠ panicked ↔
      first + 64 ≤ input.length ∨ PointRefused bn input first := by
  constructor
  · intro hpanicked
    by_contra hnot
    rw [not_or] at hnot
    exact hpanicked (readPoint_panics (by omega) fun hlen hnone => hnot.2 (.inl ⟨hlen, hnone⟩))
  · rintro (hlen | ⟨hlen, hnone⟩ | ⟨hlen, -⟩)
    · exact (readPoint_yields hlen).ne_panicked
    · exact (readPoint_refused hlen hnone).ne_panicked
    · exact (readPoint_yields hlen).ne_panicked

/-- A point that is refused is not read. -/
theorem PointRefused.ne_pure (h : PointRefused bn input first) (p : bn.G1) :
    readPoint bn input first ≠ pure p := by
  intro hp
  have hnone : Yields (readPoint bn input first) none := by
    rcases h with ⟨hlen, hnone⟩ | ⟨hlen, hnone⟩
    · exact readPoint_refused hlen hnone
    · exact hnone ▸ readPoint_yields hlen
  obtain ⟨e, he⟩ := hnone
  exact pure_ne_throw (hp.symm.trans he)

theorem readPoint_agrees (input extra : Bytes) (first : ℕ) :
    Agrees (readPoint bn input first) (readPoint bn (input ++ extra) first) :=
  (readWord_agrees input extra first).bind fun _ => (Agrees.refl _).bind fun _ =>
    (readWord_agrees input extra (first + 32)).bind fun _ => Agrees.refl _

theorem writePoint_ne_panicked (point : bn.G1) : writePoint bn point ≠ panicked := by
  unfold writePoint
  cases bn.affineG1FromJacobian point with
  | none => exact pure_ne_panicked
  | some sum =>
    exact ((yields_orRefuse _ _).bind fun x => (yields_orRefuse _ _).map fun y => _).ne_panicked

end Points

/-! ## Totality -/

/-- There is no panic, and zero bytes up to the full length make no difference. -/
def Total (execute : Bytes → UInt64 → Exec Output) (fullLength : ℕ) (input : Bytes) (cost : UInt64) :
    Prop :=
  execute input cost ≠ panicked ∧ execute input cost = execute (input.rightpad fullLength 0) cost

theorem total_iff_ne_panicked {execute : Bytes → UInt64 → Exec Output} {fullLength : ℕ}
    (h : ∀ extra, Agrees (execute input cost) (execute (input ++ extra) cost)) :
    Total execute fullLength input cost ↔ execute input cost ≠ panicked :=
  ⟨And.left, fun hpanicked => ⟨hpanicked, h _ hpanicked⟩⟩

theorem Bn128Add.execute_agrees (extra : Bytes) :
    Agrees (Bn128Add.execute bn input cost) (Bn128Add.execute bn (input ++ extra) cost) :=
  (readPoint_agrees input extra 0).bind fun _ => (readPoint_agrees input extra 64).bind fun _ =>
    Agrees.refl _

theorem Bn128Mul.execute_agrees (extra : Bytes) :
    Agrees (Bn128Mul.execute bn input cost) (Bn128Mul.execute bn (input ++ extra) cost) :=
  (readPoint_agrees input extra 0).bind fun _ =>
    ((readWord_agrees input extra 64).bind fun _ => Agrees.refl _).bind fun _ => Agrees.refl _

theorem PointRefused.length (h : PointRefused bn input first) : first + 32 ≤ input.length := by
  rcases h with ⟨hlen, -⟩ | ⟨hlen, -⟩ <;> omega

/-- What is done with a point that is there. -/
theorem readPoint_bind_ne_panicked (f : bn.G1 → Exec Output) {rest : Prop}
    (hrest : ∀ p, f p ≠ panicked ↔ rest) (hlen : rest → first + 64 ≤ input.length) :
    readPoint bn input first >>= f ≠ panicked ↔ rest ∨ PointRefused bn input first := by
  rw [bind_ne_panicked, readPoint_ne_panicked]
  constructor
  · rintro ⟨hfirst | hfirst, hf⟩
    · have hpoint : Yields (readPoint bn input first) (pointAt bn input first) :=
        readPoint_yields hfirst
      cases hat : pointAt bn input first with
      | none => exact .inr (.inr ⟨hfirst, hat⟩)
      | some p =>
        rw [hat] at hpoint
        exact .inl ((hrest p).1 (hf p hpoint))
    · exact .inr hfirst
  · rintro (h | h)
    · exact ⟨.inl (hlen h), fun p _ => (hrest p).2 h⟩
    · exact ⟨.inr h, fun p hp => absurd hp (h.ne_pure p)⟩

theorem Bn128Add.execute_ne_panicked :
    Bn128Add.execute bn input cost ≠ panicked ↔
      (128 ≤ input.length ∨ PointRefused bn input 64) ∨ PointRefused bn input 0 := by
  unfold Bn128Add.execute
  apply readPoint_bind_ne_panicked
  · intro p1
    rw [bind_ne_panicked, readPoint_ne_panicked]
    exact and_iff_left fun p2 _ => writePoint_ne_panicked _
  · rintro (h | h)
    · omega
    · have hlen := h.length
      omega

theorem readFr_ne_panicked : readFr bn input first ≠ panicked ↔ first + 32 ≤ input.length := by
  unfold readFr
  constructor
  · intro hpanicked
    by_contra hshort
    rw [readWord_panics (Nat.lt_of_not_le hshort)] at hpanicked
    exact hpanicked rfl
  · intro hlen
    rw [readWord_eq hlen]
    exact (yields_orRefuse _ _).ne_panicked

theorem Bn128Mul.execute_ne_panicked :
    Bn128Mul.execute bn input cost ≠ panicked ↔ 96 ≤ input.length ∨ PointRefused bn input 0 := by
  unfold Bn128Mul.execute
  apply readPoint_bind_ne_panicked
  · intro p
    rw [bind_ne_panicked, readFr_ne_panicked]
    exact and_iff_left fun fr _ => writePoint_ne_panicked _
  · intro h
    omega

/-- The precompiles are total exactly for an input that is long enough, or refused for what there is of
its points. -/
theorem total_iff (bn : BnApi) (input : Bytes) (cost : UInt64) :
    (Total (Bn128Add.execute bn) 128 input cost ↔
      (128 ≤ input.length ∨ PointRefused bn input 64) ∨ PointRefused bn input 0) ∧
    (Total (Bn128Mul.execute bn) 96 input cost ↔
      96 ≤ input.length ∨ PointRefused bn input 0) :=
  ⟨(total_iff_ne_panicked Bn128Add.execute_agrees).trans Bn128Add.execute_ne_panicked,
    (total_iff_ne_panicked Bn128Mul.execute_agrees).trans Bn128Mul.execute_ne_panicked⟩

theorem empty_input_panics :
    ¬ ∀ (bn : BnApi) (input : Bytes) (cost : UInt64),
      Total (Bn128Add.execute bn) 128 input cost ∧ Total (Bn128Mul.execute bn) 96 input cost := by
  intro h
  exact (h atInfinity [] 0).1.1 rfl

end Shadows.Precompiles
