import Shadows.Foundations.Lineage

/-!
# A resumable walk from the leaves back to the root

A walker visits the nodes of a growing tree, each once, going back from the leaves. Between two
moves it keeps the set of visited nodes and a stack of nodes still to look at (the top is the last
entry). A move takes the stack, or the leaves of the tree when the stack is empty, drops visited
entries from the top, visits the first one that is not visited and leaves its parent on the stack;
if there is none it leaves the stack empty.

The invariant is `Backed`: the parent of a visited node is visited or on the stack. It makes two
idle moves in a row a proof that the whole tree is visited (`all_visited_of_idle_idle`), and the
number of unvisited nodes bounds the moves until then (`exists_idle_idle`).
-/

namespace Foundations

/-- The walker's state. -/
structure Walker (α : Type) where
  visited : Finset α
  pending : List α

namespace Walker

variable {α : Type} (l : Lineage α) {nodes : Finset α}

/-- The parent of every visited node other than the root is visited or pending. -/
def Backed (w : Walker α) : Prop :=
  ∀ b ∈ w.visited, b ≠ l.root → l.parent b ∈ w.visited ∨ l.parent b ∈ w.pending

/-- The walker has looked at nothing outside the tree. -/
structure Within (nodes : Finset α) (w : Walker α) : Prop where
  visited_sub : w.visited ⊆ nodes
  pending_sub : ∀ b ∈ w.pending, b ∈ nodes

/-- One move, from the stack `stack`, and whether it visited a node. -/
inductive Move [DecidableEq α] (stack : List α) (w : Walker α) : Bool → Walker α → Prop where
  /-- Visit the topmost entry that is not visited. -/
  | visit (rest dropped : List α) (b : α) (hstack : stack = rest ++ b :: dropped)
      (hdropped : ∀ x ∈ dropped, x ∈ w.visited) (hb : b ∉ w.visited) :
      Move stack w true
        ⟨insert b w.visited, if b = l.root then rest else rest ++ [l.parent b]⟩
  /-- Every entry is visited already. -/
  | idle (hstack : ∀ x ∈ stack, x ∈ w.visited) : Move stack w false ⟨w.visited, []⟩

/-- The stack a move starts from: what is pending, or else the leaves. -/
def start (leaves : List α) (w : Walker α) : List α :=
  if w.pending.isEmpty then leaves else w.pending

theorem mem_start_of_mem_pending (leaves : List α) {w : Walker α} {b : α} (h : b ∈ w.pending) :
    b ∈ w.start leaves := by
  have hne : w.pending.isEmpty = false := by
    cases hp : w.pending with
    | nil => rw [hp] at h; exact absurd h List.not_mem_nil
    | cons _ _ => rfl
  simp [start, hne, h]

theorem Within.start_mem {leaves : List α} {w : Walker α} (h : w.Within nodes)
    (hl : ∀ b ∈ leaves, b ∈ nodes) : ∀ b ∈ w.start leaves, b ∈ nodes := by
  intro b hb
  unfold start at hb
  split_ifs at hb
  · exact hl b hb
  · exact h.pending_sub b hb

/-! ## What a move preserves -/

variable {l} [DecidableEq α]

theorem Backed.move {leaves : List α} {w w' : Walker α} {r : Bool} (h : w.Backed l)
    (hm : Move l (w.start leaves) w r w') : w'.Backed l := by
  cases hm with
  | visit rest dropped b hstack hdropped hb =>
    intro c hc hne
    rcases Finset.mem_insert.1 hc with rfl | hc
    · right
      simp [hne]
    · rcases h c hc hne with hv | hp
      · exact Or.inl (Finset.mem_insert_of_mem hv)
      · have hmem := mem_start_of_mem_pending leaves hp
        rw [hstack, List.mem_append, List.mem_cons] at hmem
        rcases hmem with hr | he | hd
        · right
          show l.parent c ∈ if b = l.root then rest else rest ++ [l.parent b]
          split_ifs
          · exact hr
          · exact List.mem_append_left _ hr
        · left; rw [he]; exact Finset.mem_insert_self b _
        · exact Or.inl (Finset.mem_insert_of_mem (hdropped _ hd))
  | idle hstack =>
    intro c hc hne
    rcases h c hc hne with hv | hp
    · exact Or.inl hv
    · exact Or.inl (hstack _ (mem_start_of_mem_pending leaves hp))

theorem Within.move {leaves : List α} {w w' : Walker α} {r : Bool} (ht : l.IsTree nodes)
    (h : w.Within nodes) (hl : ∀ b ∈ leaves, b ∈ nodes) (hm : Move l (w.start leaves) w r w') :
    w'.Within nodes := by
  have hs := h.start_mem hl
  cases hm with
  | visit rest dropped b hstack hdropped hb =>
    have hbn : b ∈ nodes := hs b (by rw [hstack]; simp)
    have hrest : ∀ x ∈ rest, x ∈ nodes := fun x hx => hs x (by rw [hstack]; simp [hx])
    refine ⟨Finset.insert_subset hbn h.visited_sub, ?_⟩
    intro x hx
    by_cases hr : b = l.root
    · simp only [hr, if_true] at hx
      exact hrest x hx
    · simp only [hr, if_false, List.mem_append, List.mem_singleton] at hx
      rcases hx with hx | rfl
      · exact hrest x hx
      · exact ht.parent_mem b hbn hr
  | idle hstack => exact ⟨h.visited_sub, by simp⟩

theorem Move.card_visit {leaves : List α} {w w' : Walker α} (h : w.Within nodes)
    (hl : ∀ b ∈ leaves, b ∈ nodes) (hm : Move l (w.start leaves) w true w') :
    (nodes \ w'.visited).card + 1 = (nodes \ w.visited).card := by
  have hs := h.start_mem hl
  cases hm with
  | visit rest dropped b hstack hdropped hb =>
    have hbn : b ∈ nodes := hs b (by rw [hstack]; simp)
    have heq : nodes \ insert b w.visited = (nodes \ w.visited).erase b := by
      ext x; simp only [Finset.mem_sdiff, Finset.mem_insert, Finset.mem_erase]; tauto
    have hmem : b ∈ nodes \ w.visited := Finset.mem_sdiff.2 ⟨hbn, hb⟩
    show (nodes \ insert b w.visited).card + 1 = _
    rw [heq, Finset.card_erase_add_one hmem]

theorem Move.idle_eq {leaves : List α} {w w' : Walker α} (hm : Move l (w.start leaves) w false w') :
    w' = ⟨w.visited, []⟩ ∧ ∀ x ∈ w.start leaves, x ∈ w.visited := by
  cases hm with
  | idle hstack => exact ⟨rfl, hstack⟩

/-! ## Runs of moves on a tree that does not grow -/

/-- Two idle moves in a row: the second one has found every leaf visited and nothing pending. -/
theorem all_visited_of_idle_idle (ht : l.IsTree nodes) {w w1 w2 : Walker α} {ls ls' : List α}
    (hw : w.Backed l) (hls' : ∀ b, l.IsLeaf nodes b → b ∈ ls')
    (h1 : Move l (w.start ls) w false w1) (h2 : Move l (w1.start ls') w1 false w2) :
    ∀ b ∈ nodes, b ∈ w2.visited := by
  have hb1 := hw.move h1
  obtain ⟨rfl, -⟩ := h1.idle_eq
  obtain ⟨rfl, hall⟩ := h2.idle_eq
  refine ht.of_leaves (fun b hb => hall b ?_) (fun b _ hb hne => ?_)
  · simpa [start] using hls' b hb
  · rcases hb1 b hb hne with hv | hp
    · exact hv
    · exact absurd hp List.not_mem_nil

/-- From any state, at most `2 * u` moves go by before two idle moves in a row, `u` being the
number of unvisited nodes: every visit lowers `u`, and an idle move that is not followed by another
is followed by a visit. -/
theorem exists_idle_idle (ht : l.IsTree nodes) (leaves : ℕ → List α)
    (hl : ∀ k, ∀ b ∈ leaves k, b ∈ nodes) (w : ℕ → Walker α) (r : ℕ → Bool)
    (hw : (w 0).Within nodes) (hm : ∀ k, Move l ((w k).start (leaves k)) (w k) (r k) (w (k + 1))) :
    ∃ k ≤ 2 * (nodes \ (w 0).visited).card, r k = false ∧ r (k + 1) = false := by
  generalize hu : (nodes \ (w 0).visited).card = u
  induction u using Nat.strong_induction_on generalizing leaves w r with
  | _ u ih =>
    have hm0 : Move l ((w 0).start (leaves 0)) (w 0) (r 0) (w 1) := hm 0
    have hm1 : Move l ((w 1).start (leaves 1)) (w 1) (r 1) (w 2) := hm 1
    have hw1 : (w 1).Within nodes := hw.move ht (hl 0) hm0
    cases hr0 : r 0 with
    | true =>
      rw [hr0] at hm0
      have hc := Move.card_visit hw (hl 0) hm0
      obtain ⟨k, hk, hf⟩ := ih (nodes \ (w 1).visited).card (by omega) (fun k => leaves (k + 1))
        (fun k => hl (k + 1)) (fun k => w (k + 1)) (fun k => r (k + 1)) hw1 (fun k => hm (k + 1)) rfl
      exact ⟨k + 1, by omega, hf⟩
    | false =>
      cases hr1 : r 1 with
      | false => exact ⟨0, by omega, hr0, hr1⟩
      | true =>
        rw [hr0] at hm0
        rw [hr1] at hm1
        have hv : (w 1).visited = (w 0).visited := by rw [hm0.idle_eq.1]
        have hc := Move.card_visit hw1 (hl 1) hm1
        rw [hv, hu] at hc
        obtain ⟨k, hk, hf⟩ := ih (nodes \ (w 2).visited).card (by omega) (fun k => leaves (k + 2))
          (fun k => hl (k + 2)) (fun k => w (k + 2)) (fun k => r (k + 2)) (hw1.move ht (hl 1) hm1)
          (fun k => hm (k + 2)) rfl
        exact ⟨k + 2, by omega, hf⟩

end Walker

end Foundations
