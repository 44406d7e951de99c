import Mathlib.Data.Finset.Card
import Mathlib.Data.Finset.Max
import Mathlib.Logic.Function.Iterate

/-!
# Trees given by parent pointers

A `Lineage` says, for every possible node, who its parent is and how deep it sits; a finite set of
nodes is a tree of the lineage (`IsTree`) if it contains the root and is closed under parents, with
depths that increase by one. Trees grow by one node at a time (`IsTree.insert`), and a set of nodes
that contains the leaves and is closed under parents is the whole tree (`IsTree.of_leaves`).

A branch is the path from a tip back to the root; it has one node at each depth
(`IsTree.onBranch_unique`).
-/

namespace Foundations

/-- Parent and depth of every possible node of a rooted tree. -/
structure Lineage (α : Type) where
  /-- The root, its own depth being zero. -/
  root : α
  /-- The parent of a node; the value at the root is irrelevant. -/
  parent : α → α
  /-- The distance from the root. -/
  depth : α → ℕ
  depth_root : depth root = 0

namespace Lineage

variable {α : Type} (l : Lineage α)

/-- A finite set of nodes that forms a tree of the lineage. -/
structure IsTree (nodes : Finset α) : Prop where
  root_mem : l.root ∈ nodes
  parent_mem : ∀ b ∈ nodes, b ≠ l.root → l.parent b ∈ nodes
  depth_parent : ∀ b ∈ nodes, b ≠ l.root → l.depth b = l.depth (l.parent b) + 1

/-- A node of the tree that is the parent of no other. -/
def IsLeaf (nodes : Finset α) (b : α) : Prop :=
  b ∈ nodes ∧ ∀ c ∈ nodes, c ≠ l.root → l.parent c ≠ b

instance [DecidableEq α] (nodes : Finset α) (b : α) : Decidable (l.IsLeaf nodes b) :=
  inferInstanceAs (Decidable (_ ∧ _))

/-- `b` lies on the path from `tip` back to the root. -/
def OnBranch (tip b : α) : Prop := ∃ k ≤ l.depth tip, l.parent^[k] tip = b

variable {l} {nodes : Finset α}

theorem isTree_singleton : l.IsTree {l.root} where
  root_mem := by simp
  parent_mem := by simp
  depth_parent := by simp

namespace IsTree

theorem parent_ne (h : l.IsTree nodes) {b : α} (hb : b ∈ nodes) (hne : b ≠ l.root) :
    l.parent b ≠ b := by
  intro he
  have := h.depth_parent b hb hne
  rw [he] at this
  omega

theorem eq_root_iff (h : l.IsTree nodes) {b : α} (hb : b ∈ nodes) : b = l.root ↔ l.depth b = 0 := by
  constructor
  · rintro rfl; exact l.depth_root
  · intro hz
    by_contra hne
    have := h.depth_parent b hb hne
    omega

theorem insert [DecidableEq α] (h : l.IsTree nodes) {b : α} (hp : l.parent b ∈ nodes)
    (hd : l.depth b = l.depth (l.parent b) + 1) : l.IsTree (insert b nodes) where
  root_mem := Finset.mem_insert_of_mem h.root_mem
  parent_mem := by
    intro c hc hne
    rcases Finset.mem_insert.1 hc with rfl | hc
    · exact Finset.mem_insert_of_mem hp
    · exact Finset.mem_insert_of_mem (h.parent_mem c hc hne)
  depth_parent := by
    intro c hc hne
    rcases Finset.mem_insert.1 hc with rfl | hc
    · exact hd
    · exact h.depth_parent c hc hne

/-- A set that contains every leaf and, with a node, its parent, contains the whole tree: a node
that is not a leaf has a child one level deeper, and the depths of a finite tree are bounded. -/
theorem of_leaves (h : l.IsTree nodes) {S : α → Prop} (hleaf : ∀ b, l.IsLeaf nodes b → S b)
    (hpar : ∀ b ∈ nodes, S b → b ≠ l.root → S (l.parent b)) : ∀ b ∈ nodes, S b := by
  have key : ∀ n, ∀ b ∈ nodes, nodes.sup l.depth - l.depth b = n → S b := by
    intro n
    induction n using Nat.strong_induction_on with
    | _ n ih =>
      intro b hb hn
      by_cases hl : l.IsLeaf nodes b
      · exact hleaf b hl
      · have hchild : ∃ c ∈ nodes, c ≠ l.root ∧ l.parent c = b := by
          by_contra hcon
          push Not at hcon
          exact hl ⟨hb, fun c hc hne => hcon c hc hne⟩
        obtain ⟨c, hc, hne, hcb⟩ := hchild
        have hdc : l.depth c = l.depth b + 1 := by rw [← hcb]; exact h.depth_parent c hc hne
        have hle : l.depth c ≤ nodes.sup l.depth := Finset.le_sup hc
        have hSc : S c := ih _ (by omega) c hc rfl
        rw [← hcb]
        exact hpar c hc hSc hne
  exact fun b hb => key _ b hb rfl

theorem exists_leaf (h : l.IsTree nodes) : ∃ b, l.IsLeaf nodes b := by
  by_contra hcon
  push Not at hcon
  exact h.of_leaves (S := fun _ => False) (fun b hb => hcon b hb) (fun _ _ hf => hf.elim) l.root
    h.root_mem

/-- Induction along a tree, from the root to the children. -/
theorem induction {P : α → Prop} (h : l.IsTree nodes) (hroot : P l.root)
    (hchild : ∀ b ∈ nodes, b ≠ l.root → P (l.parent b) → P b) : ∀ b ∈ nodes, P b := by
  have key : ∀ n, ∀ b ∈ nodes, l.depth b = n → P b := by
    intro n
    induction n with
    | zero =>
      intro b hb hn
      rw [(h.eq_root_iff hb).2 hn]
      exact hroot
    | succ n ih =>
      intro b hb hn
      have hne : b ≠ l.root := fun he => by
        rw [(h.eq_root_iff hb).1 he] at hn
        cases hn
      have hdepth := h.depth_parent b hb hne
      exact hchild b hb hne (ih _ (h.parent_mem b hb hne) (by omega))
  exact fun b hb => key _ b hb rfl

/-! ## Branches -/

/-- Walking back `k` levels stays in the tree and lowers the depth by `k`. -/
theorem iterate_parent (h : l.IsTree nodes) {tip : α} (ht : tip ∈ nodes) :
    ∀ k ≤ l.depth tip, l.parent^[k] tip ∈ nodes ∧ l.depth (l.parent^[k] tip) + k = l.depth tip := by
  intro k
  induction k with
  | zero => intro _; exact ⟨ht, rfl⟩
  | succ k ih =>
    intro hk
    obtain ⟨hm, hd⟩ := ih (by omega)
    have hne : l.parent^[k] tip ≠ l.root := by
      intro he
      rw [he, l.depth_root] at hd
      omega
    rw [Function.iterate_succ_apply']
    refine ⟨h.parent_mem _ hm hne, ?_⟩
    have := h.depth_parent _ hm hne
    omega

theorem mem_of_onBranch (h : l.IsTree nodes) {tip b : α} (ht : tip ∈ nodes)
    (hb : l.OnBranch tip b) : b ∈ nodes := by
  obtain ⟨k, hk, rfl⟩ := hb
  exact (h.iterate_parent ht k hk).1

theorem onBranch_tip (tip : α) : l.OnBranch tip tip := ⟨0, Nat.zero_le _, rfl⟩

/-- A branch goes on to the parent. -/
theorem onBranch_parent (h : l.IsTree nodes) {tip b : α} (ht : tip ∈ nodes)
    (hb : l.OnBranch tip b) (hne : b ≠ l.root) : l.OnBranch tip (l.parent b) := by
  obtain ⟨k, hk, rfl⟩ := hb
  obtain ⟨hm, hd⟩ := h.iterate_parent ht k hk
  have hparent := h.depth_parent _ hm hne
  exact ⟨k + 1, by omega, Function.iterate_succ_apply' _ _ _⟩

/-- A branch has a node at each depth up to that of its tip. -/
theorem exists_onBranch (h : l.IsTree nodes) {tip : α} (ht : tip ∈ nodes) {n : ℕ}
    (hn : n ≤ l.depth tip) : ∃ b, l.OnBranch tip b ∧ l.depth b = n := by
  have hstep := (h.iterate_parent ht (l.depth tip - n) (Nat.sub_le _ _)).2
  exact ⟨_, ⟨l.depth tip - n, Nat.sub_le _ _, rfl⟩, by omega⟩

/-- A branch has at most one node at each depth. -/
theorem onBranch_unique (h : l.IsTree nodes) {tip b c : α} (ht : tip ∈ nodes)
    (hb : l.OnBranch tip b) (hc : l.OnBranch tip c) (hd : l.depth b = l.depth c) : b = c := by
  obtain ⟨k, hk, rfl⟩ := hb
  obtain ⟨m, hm, rfl⟩ := hc
  have h1 := (h.iterate_parent ht k hk).2
  have h2 := (h.iterate_parent ht m hm).2
  have : k = m := by omega
  rw [this]

end IsTree

end Lineage

end Foundations
