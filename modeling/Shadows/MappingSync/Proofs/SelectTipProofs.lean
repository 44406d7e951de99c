import Shadows.MappingSync.SyncBlocks
import Mathlib.Data.List.Induction

/-!
# Proofs: the operating tip

`sync_one_block` pops the tips, or the leaves, until it finds a block that is not synced. What it
settles on is characterised by the stack it pops from.
-/

namespace Shadows.MappingSync

open Db

variable {Hash : Type}

/-- The last element of a list without a property. -/
theorem exists_last_of_not_forall {P : Hash → Prop} {l : List Hash} (h : ¬ ∀ x ∈ l, P x) :
    ∃ rest b dropped, l = rest ++ b :: dropped ∧ (∀ x ∈ dropped, P x) ∧ ¬ P b := by
  induction l using List.reverseRecOn with
  | nil => exact absurd (fun x hx => absurd hx List.not_mem_nil) h
  | append_singleton l b ih =>
    by_cases hb : P b
    · have hl : ¬ ∀ x ∈ l, P x := by
        intro hall
        refine h fun x hx => ?_
        rcases List.mem_append.1 hx with hx | hx
        · exact hall x hx
        · rwa [List.mem_singleton.1 hx]
      obtain ⟨rest, c, dropped, rfl, hdropped, hc⟩ := ih hl
      refine ⟨rest, c, dropped ++ [b], by rw [List.append_assoc]; rfl, fun x hx => ?_, hc⟩
      rcases List.mem_append.1 hx with hx | hx
      · exact hdropped x hx
      · rwa [List.mem_singleton.1 hx]
    · exact ⟨l, b, [], rfl, fun x hx => absurd hx List.not_mem_nil, hb⟩

/-! ## The pop loop -/

theorem popUnsynced_none {db : Database Hash} (stack : List Hash) {below : List Hash} :
    popUnsynced db stack = .ok (none, below) ↔ (∀ b ∈ stack, Synced db b) ∧ below = [] := by
  induction stack with
  | nil =>
    simp only [popUnsynced, Except.ok.injEq, Prod.mk.injEq, true_and, List.not_mem_nil,
      false_implies, implies_true, eq_comm]
  | cons tip rest ih =>
    rw [List.forall_mem_cons, popUnsynced]
    cases hsynced : MappingDb.isSynced db tip with
    | error e => simp [Synced, hsynced]
    | ok synced =>
      cases synced with
      | true => simp only [ih, Synced, hsynced, true_and]
      | false => simp [Synced, hsynced]

theorem popUnsynced_some {db : Database Hash} (stack : List Hash) {b : Hash} {below : List Hash} :
    popUnsynced db stack = .ok (some b, below) ↔ ∃ dropped, stack = dropped ++ b :: below ∧
      (∀ x ∈ dropped, Synced db x) ∧ MappingDb.isSynced db b = .ok false := by
  induction stack with
  | nil => simp [popUnsynced]
  | cons tip rest ih =>
    rw [popUnsynced]
    constructor
    · intro h
      cases hsynced : MappingDb.isSynced db tip with
      | error e => simp [hsynced] at h
      | ok synced =>
        cases synced with
        | true =>
          simp only [hsynced] at h
          obtain ⟨dropped, rfl, hdropped, hb⟩ := ih.1 h
          exact ⟨tip :: dropped, rfl, List.forall_mem_cons.2 ⟨hsynced, hdropped⟩, hb⟩
        | false =>
          simp only [hsynced, Except.ok.injEq, Prod.mk.injEq, Option.some.injEq] at h
          obtain ⟨rfl, rfl⟩ := h
          exact ⟨[], rfl, nofun, hsynced⟩
    · rintro ⟨dropped, hstack, hdropped, hb⟩
      cases dropped with
      | nil =>
        rw [List.nil_append, List.cons.injEq] at hstack
        obtain ⟨rfl, rfl⟩ := hstack
        simp only [hb]
      | cons x dropped =>
        rw [List.cons_append, List.cons.injEq] at hstack
        obtain ⟨rfl, rfl⟩ := hstack
        obtain ⟨hx, hrest⟩ := List.forall_mem_cons.1 hdropped
        have hsynced : MappingDb.isSynced db tip = .ok true := hx
        simp only [hsynced]
        exact ih.2 ⟨dropped, rfl, hrest, hb⟩

/-! ## Selecting the operating tip -/

theorem PopsFrom.unique {client : Client Hash} {db : Database Hash} {stack stack' : List Hash}
    (h : PopsFrom client db stack) (h' : PopsFrom client db stack') : stack = stack' := by
  obtain ⟨tips, htips, hstack⟩ := h
  obtain ⟨tips', htips', hstack'⟩ := h'
  rw [htips, Except.ok.injEq] at htips'
  subst htips'
  rw [hstack, Except.ok.injEq] at hstack'
  exact hstack'

theorem popsFrom_of_read {client : Client Hash} {db : Database Hash} {tips ls : List Hash}
    (hread : MetaDb.currentSyncingTips db = .ok tips) (hls : client.leaves = .ok ls) :
    PopsFrom client db (if tips.isEmpty then ls else tips) := by
  refine ⟨tips, hread, ?_⟩
  split_ifs
  · exact hls
  · rfl

theorem selectTip_of_popsFrom {client : Client Hash} {db : Database Hash} {stack : List Hash}
    (h : PopsFrom client db stack) : selectTip client db =
      if stack.isEmpty then .ok .nothing
      else
        match popUnsynced db stack.reverse with
        | .error e => .error e
        | .ok (none, _) => .ok .exhausted
        | .ok (some operatingTip, below) => .ok (.operate operatingTip below.reverse) := by
  obtain ⟨tips, htips, hstack⟩ := h
  unfold selectTip
  simp only [htips]
  generalize (if tips.isEmpty then client.leaves else .ok tips) = start at hstack ⊢
  subst hstack
  rfl

theorem popsFrom_of_selectTip {client : Client Hash} {db : Database Hash}
    {selection : Selection Hash} (h : selectTip client db = .ok selection) :
    ∃ stack, PopsFrom client db stack := by
  unfold selectTip at h
  cases htips : MetaDb.currentSyncingTips db with
  | error e => simp [htips] at h
  | ok tips =>
    simp only [htips] at h
    cases hstack : (if tips.isEmpty then client.leaves else .ok tips) with
    | error e => simp only [hstack, reduceCtorEq] at h
    | ok stack => exact ⟨stack, tips, htips, hstack⟩

theorem selectTip_nothing_iff {client : Client Hash} {db : Database Hash} :
    selectTip client db = .ok .nothing ↔ PopsFrom client db [] := by
  constructor
  · intro h
    obtain ⟨stack, hstack⟩ := popsFrom_of_selectTip h
    rw [selectTip_of_popsFrom hstack] at h
    cases stack with
    | nil => exact hstack
    | cons b rest =>
      rw [if_neg (by simp)] at h
      split at h <;> cases h
  · intro h
    rw [selectTip_of_popsFrom h]
    rfl

theorem selectTip_exhausted_iff {client : Client Hash} {db : Database Hash} :
    selectTip client db = .ok .exhausted ↔
      ∃ stack, PopsFrom client db stack ∧ stack ≠ [] ∧ ∀ b ∈ stack, Synced db b := by
  constructor
  · intro h
    obtain ⟨stack, hstack⟩ := popsFrom_of_selectTip h
    rw [selectTip_of_popsFrom hstack] at h
    split_ifs at h with hempty
    · cases h
    · split at h
      · cases h
      · rename_i below hpop
        have hall := (popUnsynced_none _).1 hpop
        refine ⟨stack, hstack, fun hnil => hempty (List.isEmpty_iff.2 hnil), fun b hb => ?_⟩
        exact hall.1 b (List.mem_reverse.2 hb)
      · cases h
  · rintro ⟨stack, hstack, hne, hall⟩
    have hpop : popUnsynced db stack.reverse = .ok (none, []) :=
      (popUnsynced_none _).2 ⟨fun b hb => hall b (List.mem_reverse.1 hb), rfl⟩
    rw [selectTip_of_popsFrom hstack, if_neg (fun h => hne (List.isEmpty_iff.1 h)), hpop]

theorem selectTip_operate_iff {client : Client Hash} {db : Database Hash} {b : Hash}
    {rest : List Hash} : selectTip client db = .ok (.operate b rest) ↔
      ∃ dropped, PopsFrom client db (rest ++ b :: dropped) ∧ (∀ x ∈ dropped, Synced db x) ∧
        MappingDb.isSynced db b = .ok false := by
  constructor
  · intro h
    obtain ⟨stack, hstack⟩ := popsFrom_of_selectTip h
    rw [selectTip_of_popsFrom hstack] at h
    split_ifs at h with hempty
    · cases h
    · split at h
      · cases h
      · cases h
      · rename_i operatingTip below hpop
        simp only [Except.ok.injEq, Selection.operate.injEq] at h
        obtain ⟨rfl, rfl⟩ := h
        obtain ⟨dropped, hreverse, hdropped, hb⟩ := (popUnsynced_some _).1 hpop
        refine ⟨dropped.reverse, ?_, fun x hx => hdropped x (List.mem_reverse.1 hx), hb⟩
        have hback : stack = below.reverse ++ operatingTip :: dropped.reverse := by
          rw [← List.reverse_reverse stack, hreverse]
          simp
        rw [← hback]
        exact hstack
  · rintro ⟨dropped, hstack, hdropped, hb⟩
    have hpop : popUnsynced db (rest ++ b :: dropped).reverse = .ok (some b, rest.reverse) := by
      refine (popUnsynced_some _).2 ⟨dropped.reverse, by simp, fun x hx => ?_, hb⟩
      exact hdropped x (List.mem_reverse.1 hx)
    rw [selectTip_of_popsFrom hstack, if_neg (by simp), hpop]
    simp only [List.reverse_reverse]

/-- A call of which the stack is not empty and the tests of which do not fail: it finds all of the
stack written, or it settles on the last block that is not. -/
theorem selectTip_cases [DecidableEq Hash] {db : Database Hash} {written : List Hash}
    (h : ∀ b, MappingDb.isSynced db b = .ok (decide (b ∈ written))) {client : Client Hash}
    {stack : List Hash} (hstack : PopsFrom client db stack) (hne : stack ≠ []) :
    (∃ rest b dropped, stack = rest ++ b :: dropped ∧ (∀ x ∈ dropped, x ∈ written) ∧
      b ∉ written ∧ selectTip client db = .ok (.operate b rest)) ∨
    ((∀ x ∈ stack, x ∈ written) ∧ selectTip client db = .ok .exhausted) := by
  have hsynced : ∀ b, b ∈ written → Synced db b := fun b hb => by
    unfold Synced
    rw [h, decide_eq_true hb]
  by_cases hall : ∀ x ∈ stack, x ∈ written
  · right
    exact ⟨hall, selectTip_exhausted_iff.2 ⟨stack, hstack, hne, fun b hb => hsynced b (hall b hb)⟩⟩
  · left
    obtain ⟨rest, b, dropped, rfl, hdropped, hb⟩ := exists_last_of_not_forall hall
    refine ⟨rest, b, dropped, rfl, hdropped, hb, selectTip_operate_iff.2
      ⟨dropped, hstack, fun x hx => hsynced x (hdropped x hx), ?_⟩⟩
    rw [h, decide_eq_false hb]

end Shadows.MappingSync
