import Mathlib.Data.List.Forall2

/-!
# Lists of results that may be missing

A function without a result for every element, applied to each element of a list: the list of the
results, unless one of them is missing. The same for a function that may fail with an error.
-/

namespace Foundations

variable {α β : Type*} {f : α → Option β}

theorem mapM_eq_some {l : List α} : ∀ {bs : List β},
    l.mapM f = some bs ↔ List.Forall₂ (fun a b => f a = some b) l bs := by
  induction l with
  | nil =>
    intro bs
    rw [List.mapM_nil, List.forall₂_nil_left_iff]
    exact Option.some_inj.trans eq_comm
  | cons a l ih =>
    intro bs
    rw [List.mapM_cons, List.forall₂_cons_left_iff]
    simp only [Option.bind_eq_bind, Option.bind_eq_some_iff, ih]
    constructor
    · rintro ⟨b, hb, bs, hbs, hout⟩
      exact ⟨b, bs, hb, hbs, (Option.some.inj hout).symm⟩
    · rintro ⟨b, bs, hb, hbs, rfl⟩
      exact ⟨b, hb, bs, hbs, rfl⟩

theorem mapM_eq_none {l : List α} : l.mapM f = none ↔ ∃ a ∈ l, f a = none := by
  induction l with
  | nil => simp
  | cons a l ih =>
    simp only [List.mapM_cons, List.mem_cons, exists_eq_or_imp, ← ih]
    cases f a with
    | none => simp
    | some b => cases l.mapM f <;> simp

theorem mapM_isSome {l : List α} (h : ∀ a ∈ l, (f a).isSome) : (l.mapM f).isSome := by
  rw [Option.isSome_iff_ne_none, ne_eq, mapM_eq_none]
  rintro ⟨a, ha, hnone⟩
  exact absurd hnone (Option.isSome_iff_ne_none.1 (h a ha))

theorem exists_forall₂ {r : α → β → Prop} {l : List α} :
    (∃ bs, List.Forall₂ r l bs) ↔ ∀ a ∈ l, ∃ b, r a b := by
  induction l with
  | nil => exact iff_of_true ⟨[], .nil⟩ nofun
  | cons a l ih =>
    rw [List.forall_mem_cons, ← ih]
    constructor
    · rintro ⟨bs, h⟩
      cases h with
      | cons hb hbs => exact ⟨⟨_, hb⟩, _, hbs⟩
    · rintro ⟨⟨b, hb⟩, bs, hbs⟩
      exact ⟨b :: bs, .cons hb hbs⟩

section Errors

variable {ε : Type*} {g : α → Except ε β}

theorem mapM_eq_ok {l : List α} : ∀ {bs : List β},
    l.mapM g = .ok bs ↔ List.Forall₂ (fun a b => g a = .ok b) l bs := by
  induction l with
  | nil =>
    intro bs
    rw [List.mapM_nil, List.forall₂_nil_left_iff]
    show Except.ok [] = Except.ok bs ↔ bs = []
    rw [Except.ok.injEq, eq_comm]
  | cons a l ih =>
    intro bs
    rw [List.mapM_cons, List.forall₂_cons_left_iff]
    constructor
    · intro h
      cases hb : g a with
      | error err => rw [hb] at h; cases h
      | ok b =>
        rw [hb] at h
        cases hbs : l.mapM g with
        | error err => rw [hbs] at h; cases h
        | ok bs' =>
          rw [hbs] at h
          cases h
          exact ⟨b, bs', rfl, ih.1 hbs, rfl⟩
    · rintro ⟨b, bs', hb, hbs, rfl⟩
      rw [hb, ih.2 hbs]
      rfl

end Errors

end Foundations
