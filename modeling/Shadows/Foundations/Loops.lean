import Mathlib.Order.Basic

/-!
# Loops

A loop takes one turn after the other until a turn exits with a result. It is run with a bound on the
number of its turns, and has no result if these do not suffice.
-/

namespace Foundations

variable {σ β : Type*}

/-- What a turn leads to: the state of the next turn, or the result of the loop. -/
inductive Turn (σ β : Type*) where
  | next (s : σ)
  | exit (b : β)

/-- The loop, with at most `turns` turns. -/
def loop (turn : σ → Turn σ β) : ℕ → σ → Option β
  | 0, _ => none
  | turns + 1, s =>
    match turn s with
    | .next s' => loop turn turns s'
    | .exit b => some b

/-- A loop returns what `result` says of its first state, if every turn that leads to another one
keeps what it says and decreases the variant, and every other turn exits with it. -/
theorem loop_eq_of_variant (turn : σ → Turn σ β) (result : σ → β) (variant : σ → ℕ)
    (hturn : ∀ s, (∃ s', turn s = .next s' ∧ result s' = result s ∧ variant s' < variant s) ∨
      turn s = .exit (result s)) (turns : ℕ) :
    ∀ s, variant s < turns → loop turn turns s = some (result s) := by
  induction turns with
  | zero => exact fun s h => absurd h (Nat.not_lt_zero _)
  | succ turns ih =>
    intro s h
    unfold loop
    rcases hturn s with ⟨s', hnext, hkept, hless⟩ | hexit
    · rw [hnext, ← hkept]
      exact ih s' (by omega)
    · rw [hexit]

/-! ## Visited states -/

/-- The states that a loop comes to from `start`. -/
inductive Visits (turn : σ → Turn σ β) (start : σ) : σ → Prop where
  | start : Visits turn start start
  | next {s s' : σ} (h : Visits turn start s) (hturn : turn s = .next s') : Visits turn start s'

variable {turn : σ → Turn σ β} {start s : σ}

/-- An invariant of the turns holds in every state that the loop comes to. -/
theorem Visits.invariant {P : σ → Prop} (hstart : P start)
    (hnext : ∀ s s', Visits turn start s → P s → turn s = .next s' → P s')
    (h : Visits turn start s) : P s := by
  induction h with
  | start => exact hstart
  | next h hturn ih => exact hnext _ _ h ih hturn

/-- A state that the loop comes to is the first one, or a turn has led to it. -/
theorem Visits.cases_next (h : Visits turn start s) :
    s = start ∨ ∃ s', Visits turn start s' ∧ turn s' = .next s := by
  cases h with
  | start => exact .inl rfl
  | next h hturn => exact .inr ⟨_, h, hturn⟩

/-- What a loop returns from its first state, it returns from every state that it comes to. -/
theorem Visits.loop_eq_some {b : β} (h : Visits turn start s) {turns : ℕ}
    (hloop : loop turn turns start = some b) : ∃ turns', loop turn turns' s = some b := by
  induction h with
  | start => exact ⟨turns, hloop⟩
  | next h hturn ih =>
    obtain ⟨turns', hloop'⟩ := ih
    cases turns' with
    | zero => cases hloop'
    | succ turns' =>
      unfold loop at hloop'
      rw [hturn] at hloop'
      exact ⟨turns', hloop'⟩

/-- The loop returns the result of a turn that exits. -/
theorem Visits.eq_of_exit {b b' : β} (h : Visits turn start s) (hexit : turn s = .exit b)
    {turns : ℕ} (hloop : loop turn turns start = some b') : b' = b := by
  obtain ⟨turns', hloop'⟩ := h.loop_eq_some hloop
  cases turns' with
  | zero => cases hloop'
  | succ turns' =>
    unfold loop at hloop'
    rw [hexit] at hloop'
    exact (Option.some.inj hloop').symm

/-- A loop whose turns decrease a variant comes to a turn that exits, and returns its result. -/
theorem exists_exit_of_variant (variant : σ → ℕ)
    (hless : ∀ s s', Visits turn start s → turn s = .next s' → variant s' < variant s)
    {turns : ℕ} (hturns : variant start < turns) :
    ∃ s b, Visits turn start s ∧ turn s = .exit b ∧ loop turn turns start = some b := by
  have hloop : ∀ turns s, Visits turn start s → variant s < turns →
      ∃ s' b, Visits turn start s' ∧ turn s' = .exit b ∧ loop turn turns s = some b := by
    intro turns
    induction turns with
    | zero => exact fun s _ h => absurd h (Nat.not_lt_zero _)
    | succ turns ih =>
      intro s hs h
      unfold loop
      cases hturn : turn s with
      | next s' =>
        have hless' := hless s s' hs hturn
        exact ih s' (hs.next hturn) (by omega)
      | exit b => exact ⟨s, b, hs, hturn, rfl⟩
  exact hloop turns start .start hturns

end Foundations
