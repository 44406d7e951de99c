import Mathlib.Data.List.Forall2

/-!
# Choices

The ways to choose one element of each of several lists, in lexicographic order: the choice from the
last list changes fastest.
-/

namespace Foundations

variable {α : Type*}

def choices : List (List α) → List (List α)
  | [] => [[]]
  | l :: ls => l.flatMap fun a => (choices ls).map (a :: ·)

theorem mem_choices {ls : List (List α)} : ∀ {p : List α},
    p ∈ choices ls ↔ List.Forall₂ (fun a l => a ∈ l) p ls := by
  induction ls with
  | nil =>
    intro p
    rw [choices, List.mem_singleton, List.forall₂_nil_right_iff]
  | cons l ls ih =>
    intro p
    rw [choices, List.mem_flatMap, List.forall₂_cons_right_iff]
    constructor
    · rintro ⟨a, ha, hp⟩
      obtain ⟨q, hq, rfl⟩ := List.mem_map.1 hp
      exact ⟨a, q, ha, ih.1 hq, rfl⟩
    · rintro ⟨a, q, ha, hq, rfl⟩
      exact ⟨a, ha, List.mem_map.2 ⟨q, ih.2 hq, rfl⟩⟩

theorem choices_append (ls ls' : List (List α)) :
    choices (ls ++ ls') = (choices ls).flatMap fun p => (choices ls').map (p ++ ·) := by
  induction ls with
  | nil => simp [choices]
  | cons l ls ih =>
    rw [List.cons_append, choices, ih, choices, List.flatMap_assoc]
    congr 1
    funext a
    rw [List.map_flatMap, List.flatMap_map]
    congr 1
    funext p
    rw [List.map_map]
    rfl

/-- There is no choice from an empty list. -/
theorem choices_of_empty {ls : List (List α)} (h : [] ∈ ls) : choices ls = [] := by
  induction ls with
  | nil => exact absurd h List.not_mem_nil
  | cons l ls ih =>
    rw [choices]
    rcases List.mem_cons.1 h with rfl | h
    · rfl
    · rw [ih h]
      simp

/-- The choice that comes first takes the first element of every list. -/
theorem choices_head {ls : List (List α)} (h : [] ∉ ls) :
    ∃ p rest, choices ls = p :: rest ∧ List.Forall₂ (fun a l => l.head? = some a) p ls := by
  induction ls with
  | nil => exact ⟨[], [], rfl, .nil⟩
  | cons l ls ih =>
    obtain ⟨hl, hls⟩ := not_or.1 (mt List.mem_cons.2 h)
    obtain ⟨p, rest, hrest, hp⟩ := ih hls
    cases l with
    | nil => exact absurd rfl hl
    | cons a l =>
      refine ⟨a :: p, rest.map (a :: ·) ++ l.flatMap fun a => (p :: rest).map (a :: ·), ?_,
        .cons rfl hp⟩
      rw [choices, List.flatMap_cons, hrest, List.map_cons, List.cons_append]

/-- With only the first element of every list, only the first choice is left. -/
theorem choices_take_one {p : List α} {ls : List (List α)}
    (h : List.Forall₂ (fun a l => l.head? = some a) p ls) :
    choices (ls.map (List.take 1)) = [p] := by
  induction h with
  | nil => rfl
  | @cons a l p ls ha _ ih =>
    obtain ⟨rest, rfl⟩ := List.head?_eq_some_iff.1 ha
    rw [List.map_cons, choices, ih]
    rfl

theorem choices_singletons (p : List α) : choices (p.map fun a => [a]) = [p] := by
  induction p with
  | nil => rfl
  | cons a p ih =>
    rw [List.map_cons, choices, ih]
    rfl

/-- The product that is built up by appending one list after the other. -/
theorem foldl_append_choices (ls : List (List α)) : ∀ res : List (List α),
    ls.foldl (fun res l => res.flatMap fun r => l.map fun el => r ++ [el]) res =
      res.flatMap fun r => (choices ls).map (r ++ ·) := by
  induction ls with
  | nil => simp [choices]
  | cons l ls ih =>
    intro res
    rw [List.foldl_cons, ih, List.flatMap_assoc]
    congr 1
    funext r
    rw [List.flatMap_map, choices, List.map_flatMap]
    congr 1
    funext a
    rw [List.map_map]
    congr 1
    funext p
    simp

end Foundations
