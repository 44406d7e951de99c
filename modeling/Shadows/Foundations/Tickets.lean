import Shadows.Foundations.Runs
import Mathlib.Data.List.Range

/-!
# Tickets

A counter of which some steps of a run take the value and raise it by one, while the others leave it
alone. The values that are taken over a run are consecutive.
-/

namespace Foundations

variable {σ α : Type*} (counter : σ → ℕ) (ticket : σ → α → Option ℕ)

/-- The tickets that are taken over a run, in order. -/
def tickets : σ → List (α × σ) → List ℕ
  | _, [] => []
  | s, (a, s') :: run => (ticket s a).toList ++ tickets s' run

/-- A step takes the value of the counter and raises it, or leaves it alone. -/
structure Counts (s : σ) (a : α) (s' : σ) : Prop where
  taken : ∀ n, ticket s a = some n → n = counter s ∧ counter s' = counter s + 1
  kept : ticket s a = none → counter s' = counter s

variable {counter ticket} {run : List (α × σ)}

theorem Counts.of_none {s s' : σ} {a : α} (hnone : ticket s a = none) (h : counter s' = counter s) :
    Counts counter ticket s a s' where
  taken := by
    intro n hn
    rw [hnone] at hn
    cases hn
  kept := fun _ => h

theorem Counts.of_some {s s' : σ} {a : α} (hsome : ticket s a = some (counter s))
    (h : counter s' = counter s + 1) : Counts counter ticket s a s' where
  taken := by
    intro n hn
    exact ⟨Option.some.inj (hn.symm.trans hsome), h⟩
  kept := by
    intro hnone
    rw [hsome] at hnone
    cases hnone

/-- The tickets start at the counter and have no gaps, and the counter has been raised as often. -/
theorem tickets_eq_range' : ∀ {s : σ}, Each (Counts counter ticket) s run →
    tickets ticket s run = List.range' (counter s) (tickets ticket s run).length ∧
      counter (endState s run) = counter s + (tickets ticket s run).length := by
  induction run with
  | nil => exact fun _ => ⟨rfl, rfl⟩
  | cons x run ih =>
    obtain ⟨a, s'⟩ := x
    intro s h
    obtain ⟨hcounts, hrest⟩ := h
    obtain ⟨hrange, hend⟩ := ih hrest
    have hend' : counter (endState s ((a, s') :: run)) =
        counter s' + (tickets ticket s' run).length := hend
    rw [tickets, hend']
    cases hticket : ticket s a with
    | none =>
      rw [hcounts.kept hticket] at hrange ⊢
      exact ⟨hrange, rfl⟩
    | some n =>
      obtain ⟨rfl, hraised⟩ := hcounts.taken n hticket
      rw [hraised] at hrange ⊢
      rw [Option.toList_some, List.singleton_append, List.length_cons, List.range'_succ, ← hrange]
      exact ⟨rfl, by omega⟩

end Foundations
