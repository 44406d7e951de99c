import Mathlib.Data.List.Basic

/-!
# Runs of a labelled transition system

A run is the list of its labels, each with the state that the step has led to. An invariant is a
property of states; a condition on steps is exact for an invariant if, from a state with the
invariant, a step leads to one exactly if it meets the condition.
-/

namespace Foundations

variable {σ α : Type*}

/-- Every step of the run satisfies `C`. -/
def Each (C : σ → α → σ → Prop) : σ → List (α × σ) → Prop
  | _, [] => True
  | s, (a, s') :: run => C s a s' ∧ Each C s' run

/-- The steps of the run are steps of the system. -/
abbrev IsRun (Step : σ → α → σ → Prop) (s : σ) (run : List (α × σ)) : Prop := Each Step s run

/-- Every state of the run satisfies `P`. -/
def Always (P : σ → Prop) : σ → List (α × σ) → Prop
  | s, [] => P s
  | s, (_, s') :: run => P s ∧ Always P s' run

/-- The state that the run ends in. -/
def endState : σ → List (α × σ) → σ
  | s, [] => s
  | _, (_, s') :: run => endState s' run

variable {Step C D : σ → α → σ → Prop} {P : σ → Prop} {s : σ} {run run' : List (α × σ)}

theorem Each.mono (hCD : ∀ s a s', C s a s' → D s a s') : ∀ {s : σ}, Each C s run → Each D s run := by
  induction run with
  | nil => exact fun _ => trivial
  | cons x run ih => exact fun h => ⟨hCD _ _ _ h.1, ih h.2⟩

theorem Each.and : ∀ {s : σ}, Each C s run → Each D s run →
    Each (fun s a s' => C s a s' ∧ D s a s') s run := by
  induction run with
  | nil => exact fun _ _ => trivial
  | cons x run ih => exact fun h h' => ⟨⟨h.1, h'.1⟩, ih h.2 h'.2⟩

/-- A step that does not satisfy `C` is a step of the run. -/
theorem exists_of_not_each : ∀ {s : σ}, ¬ Each C s run →
    ∃ before a s' after, run = before ++ (a, s') :: after ∧ ¬ C (endState s before) a s' := by
  induction run with
  | nil => exact fun h => absurd trivial h
  | cons x run ih =>
    intro s h
    by_cases hx : C s x.1 x.2
    · obtain ⟨before, a, s', after, rfl, hstep⟩ := ih fun hrest => h ⟨hx, hrest⟩
      exact ⟨x :: before, a, s', after, rfl, hstep⟩
    · exact ⟨[], x.1, x.2, run, rfl, hx⟩

theorem Each.append : ∀ {s : σ}, Each C s (run ++ run') ↔
    Each C s run ∧ Each C (endState s run) run' := by
  induction run with
  | nil => exact (and_iff_right trivial).symm
  | cons x run ih =>
    intro s
    show C s x.1 x.2 ∧ Each C x.2 (run ++ run') ↔ (C s x.1 x.2 ∧ Each C x.2 run) ∧ _
    rw [ih, and_assoc]
    rfl

/-- The states of a run that starts with an invariant. -/
theorem always_of_invariant (hstep : ∀ s a s', P s → Step s a s' → P s') :
    ∀ {s : σ}, P s → IsRun Step s run → Always P s run := by
  induction run with
  | nil => exact fun hs _ => hs
  | cons x run ih => exact fun hs h => ⟨hs, ih (hstep _ _ _ hs h.1) h.2⟩

/-- An invariant that the steps of a run keep holds where each of them starts. -/
theorem Each.of_invariant (hstep : ∀ s a s', P s → C s a s' → P s' ∧ D s a s') :
    ∀ {s : σ}, P s → Each C s run → P (Foundations.endState s run) ∧ Each D s run := by
  induction run with
  | nil => exact fun hs _ => ⟨hs, trivial⟩
  | cons x run ih =>
    intro s hs h
    obtain ⟨hs', hx⟩ := hstep _ _ _ hs h.1
    obtain ⟨hend, hrest⟩ := ih hs' h.2
    exact ⟨hend, hx, hrest⟩

theorem Always.head (h : Always P s run) : P s := by
  cases run with
  | nil => exact h
  | cons x run => exact h.1

theorem Always.endState : ∀ {s : σ}, Always P s run → P (Foundations.endState s run) := by
  induction run with
  | nil => exact fun h => h
  | cons x run ih => exact fun h => ih h.2

/-- A condition that is exact for one step is exact for a run. -/
theorem always_iff_each (hexact : ∀ s a s', P s → Step s a s' → (P s' ↔ C s a s')) :
    ∀ {s : σ}, P s → IsRun Step s run → (Always P s run ↔ Each C s run) := by
  induction run with
  | nil => exact fun hs _ => ⟨fun _ => trivial, fun _ => hs⟩
  | cons x run ih =>
    intro s hs h
    have hx := hexact _ _ _ hs h.1
    constructor
    · rintro ⟨-, hrest⟩
      exact ⟨hx.1 hrest.head, (ih hrest.head h.2).1 hrest⟩
    · rintro ⟨hc, hrest⟩
      have hs' := hx.2 hc
      exact ⟨hs, (ih hs' h.2).2 hrest⟩

end Foundations
