import Mathlib.Data.List.Basic
import Mathlib.Data.List.Induction

/-!
# Tables with sweeps

A table gets entries one by one and is swept now and then: a sweep drops the entries that it is not told
to keep. An entry lives as long as it is not overwritten and every sweep keeps it.
-/

namespace Foundations

/-- The operations on a table of values by keys. -/
inductive TableOp (K V : Type*) where
  | put (key : K) (value : V)
  | sweep (keep : K → V → Bool)

namespace TableOp

variable {K V : Type*}

/-- What the operation makes of the entry of a key. -/
def entry [DecidableEq K] (key : K) : TableOp K V → Option V → Option V
  | .put key' value, old => if key' = key then some value else old
  | .sweep keep, old => old.filter (keep key)

/-- The operation leaves the entry alone. -/
def Spares (key : K) (value : V) : TableOp K V → Prop
  | .put key' _ => key' ≠ key
  | .sweep keep => keep key value = true

/-- The value is put under the key, and spared ever after. -/
def Lives (key : K) (value : V) (ops : List (TableOp K V)) : Prop :=
  ∃ before after, ops = before ++ .put key value :: after ∧ ∀ op ∈ after, op.Spares key value

variable {key : K} {value : V} {op : TableOp K V} {ops : List (TableOp K V)}

theorem not_lives_nil : ¬ Lives key value [] := by
  rintro ⟨before, after, h, -⟩
  simp at h

theorem lives_append_singleton :
    Lives key value (ops ++ [op]) ↔
      op = .put key value ∨ Lives key value ops ∧ op.Spares key value := by
  constructor
  · rintro ⟨before, after, h, hafter⟩
    obtain rfl | ⟨after, last, rfl⟩ := after.eq_nil_or_concat'
    · obtain ⟨-, hop⟩ := List.append_inj' h rfl
      exact .inl (List.singleton_inj.1 hop)
    · have h' : ops ++ [op] = (before ++ .put key value :: after) ++ [last] := by
        rw [h, List.append_assoc, List.cons_append]
      obtain ⟨hops, hop⟩ := List.append_inj' h' rfl
      obtain rfl : op = last := List.singleton_inj.1 hop
      refine .inr ⟨⟨before, after, hops, fun op hop => ?_⟩, ?_⟩
      · exact hafter op (List.mem_append_left _ hop)
      · exact hafter op (List.mem_append_right _ (List.mem_singleton_self op))
  · rintro (rfl | ⟨⟨before, after, rfl, hafter⟩, hop⟩)
    · exact ⟨ops, [], rfl, fun _ h => absurd h List.not_mem_nil⟩
    · refine ⟨before, after ++ [op], by rw [List.append_assoc, List.cons_append], ?_⟩
      intro op' hop'
      rcases List.mem_append.1 hop' with h | h
      · exact hafter op' h
      · rw [List.mem_singleton.1 h]
        exact hop

variable [DecidableEq K]

/-- An entry is there after an operation if it was put by it, or if it was there and is spared. -/
theorem entry_eq_some_iff {old : Option V} :
    op.entry key old = some value ↔ op = .put key value ∨ old = some value ∧ op.Spares key value := by
  cases op with
  | put key' value' =>
    by_cases hkey : key' = key
    · subst hkey
      simp [entry, Spares]
    · simp [entry, Spares, hkey]
  | sweep keep => simp [entry, Spares, Option.filter_eq_some_iff]

/-- **The entries of a table.** After some operations on an empty table, the entries are those that
live. -/
theorem foldl_entry_eq_some_iff :
    ops.foldl (fun old op => op.entry key old) none = some value ↔ Lives key value ops := by
  induction ops using List.reverseRecOn with
  | nil => exact ⟨nofun, fun h => absurd h not_lives_nil⟩
  | append_singleton ops op ih =>
    rw [List.foldl_append, List.foldl_cons, List.foldl_nil, entry_eq_some_iff, ih,
      lives_append_singleton]

end TableOp

end Foundations
