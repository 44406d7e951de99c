import Mathlib.Data.List.Nodup
import Mathlib.Logic.Function.Basic

/-!
# Folds over entries with keys

A fold over the entries of a table, of which every step changes only what belongs to the key of its
entry. Where the keys differ, what belongs to a key is left by the step of its own entry.
-/

namespace Foundations

variable {σ K A V : Type*}

/-- A step changes what is seen under the key of its entry, and nothing else. -/
def Local (step : σ → K × A → σ) (view : σ → K → V) : Prop :=
  ∀ s entry key, key ≠ entry.1 → view (step s entry) key = view s key

variable {step : σ → K × A → σ} {view : σ → K → V} {entries : List (K × A)} {key : K}

theorem Local.foldl_of_not_mem (hstep : Local step view) (hkey : key ∉ entries.map Prod.fst) (s : σ) :
    view (entries.foldl step s) key = view s key := by
  induction entries generalizing s with
  | nil => rfl
  | cons entry entries ih =>
    rw [List.map_cons, List.mem_cons, not_or] at hkey
    rw [List.foldl_cons, ih hkey.2, hstep s entry key hkey.1]

/-- The step of the entry starts with what was there before the fold. -/
theorem Local.foldl_of_mem (hstep : Local step view) (hnodup : (entries.map Prod.fst).Nodup) {a : A}
    (h : (key, a) ∈ entries) (s : σ) :
    ∃ s', view s' key = view s key ∧ view (entries.foldl step s) key = view (step s' (key, a)) key := by
  obtain ⟨before, after, rfl⟩ := List.append_of_mem h
  rw [List.map_append, List.map_cons, List.nodup_middle, List.nodup_cons, List.mem_append,
    not_or] at hnodup
  refine ⟨before.foldl step s, hstep.foldl_of_not_mem hnodup.1.1 s, ?_⟩
  rw [List.foldl_append, List.foldl_cons]
  exact hstep.foldl_of_not_mem hnodup.1.2 _

/-- Entries inserted into an empty table are what the table has. -/
theorem foldl_update_eq_some [DecidableEq K] {value : A} (hnodup : (entries.map Prod.fst).Nodup)
    {table : K → Option A} (hempty : ∀ key, table key = none) :
    entries.foldl (fun (table : K → Option A) entry => Function.update table entry.1 (some entry.2))
      table key = some value ↔ (key, value) ∈ entries := by
  have hlocal : Local (fun (table : K → Option A) (entry : K × A) =>
      Function.update table entry.1 (some entry.2)) (fun table key => table key) :=
    fun table entry key hkey => Function.update_of_ne hkey _ _
  by_cases hmem : key ∈ entries.map Prod.fst
  · obtain ⟨⟨key, a⟩, hentry, rfl⟩ := List.mem_map.1 hmem
    obtain ⟨table', -, hview⟩ := hlocal.foldl_of_mem hnodup hentry table
    rw [hview]
    show Function.update table' key (some a) key = some value ↔ (key, value) ∈ entries
    rw [Function.update_self, Option.some.injEq]
    constructor
    · rintro rfl
      exact hentry
    · intro hvalue
      exact congrArg Prod.snd (List.inj_on_of_nodup_map hnodup hentry hvalue rfl)
  · rw [hlocal.foldl_of_not_mem hmem table, hempty]
    exact iff_of_false nofun fun hentry => hmem (List.mem_map_of_mem hentry)

end Foundations
