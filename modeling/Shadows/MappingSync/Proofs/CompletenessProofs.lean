import Shadows.MappingSync.Proofs.SyncStepProofs

/-!
# Proofs: the mapping sync reaches every block

The invariant holds in every state of a run, also when calls are interrupted, as long as an
interrupted call does not lose the parent of the block it wrote. From a state that satisfies it,
error-free calls stop making progress only when the whole tree is synced.
-/

namespace Shadows.MappingSync

open Db Foundations

variable {Hash : Type} [DecidableEq Hash] {hashing : Hashing} {chain : Chain Hash}

/-! ## The invariant along runs -/

theorem Inv.interrupt {s : SyncState Hash} (h : Inv hashing chain s) {client : Client Hash}
    (hc : client.Serves chain s.tree) (hkept : ParentKept chain s.db client) (e : String) :
    Inv hashing chain (s.sync hashing client (.interrupted e)) := by
  obtain ⟨ls, hls, -⟩ := hc.leaves
  rcases interrupt_spec h hc hls e with
    ⟨rest, b, dropped, db1, hstack, hd, hb, hbt, hrep, htips, hs'⟩ | ⟨-, hs'⟩
  · rw [hs']
    have hread : MetaDb.currentSyncingTips db1 = MetaDb.currentSyncingTips s.db := by
      simp only [MetaDb.currentSyncingTips, htips]
    have hw' : (⟨s.tree, db1, s.written ++ [b]⟩ : SyncState Hash).walker =
        ⟨insert b s.walker.visited, s.walker.pending⟩ := by
      simp only [SyncState.walker, hread]
      congr 1
      ext x
      simp
    refine ⟨h.tree, h.logged, hrep, ?_, by rw [hw', hread]; exact h.readable, ?_, ?_⟩
    · exact List.nodup_append.2 ⟨h.nodup, List.nodup_singleton b,
        fun x hx y hy hxy => hb (by rw [← List.mem_singleton.1 hy, ← hxy]; exact hx)⟩
    · rw [hw']
      exact ⟨Finset.insert_subset hbt h.within.visited_sub, h.within.pending_sub⟩
    · rw [hw']
      intro c hc' hne
      rcases Finset.mem_insert.1 hc' with rfl | hc'
      · rcases hkept _ ls rest c dropped h.readable hls hstack
          (fun x hx => (h.synced_iff x).2 (hd x hx)) (fun hs => hb ((h.synced_iff c).1 hs)) with
          hg | hp | hp
        · exact absurd hg hne
        · exact Or.inl (Finset.mem_insert_of_mem (List.mem_toFinset.2 ((h.synced_iff _).1 hp)))
        · exact Or.inr hp
      · rcases h.backed c hc' hne with hv | hp
        · exact Or.inl (Finset.mem_insert_of_mem hv)
        · exact Or.inr hp
  · rw [hs']
    exact h

theorem inv_of_reachable {mayInterrupt : Database Hash → Client Hash → Prop}
    (hmay : ∀ db client, mayInterrupt db client → ParentKept chain db client) {s : SyncState Hash}
    (hs : Reachable hashing chain mayInterrupt s) : Inv hashing chain s := by
  induction hs with
  | refl => exact inv_init
  | tail _ hstep ih =>
    cases hstep with
    | «import» b hparent hnumber hlog => exact ih.import_block hparent hnumber hlog
    | sync client hclient =>
      obtain ⟨ls, hls, -⟩ := hclient.leaves
      obtain ⟨-, -, -, hinv⟩ := sync_move ih hclient hls
      exact hinv
    | interrupt client e hclient hm => exact ih.interrupt hclient (hmay _ _ hm) e

/-! ## Error-free calls on a tree that does not grow -/

/-- The states that `k` error-free calls go through. -/
def syncs (hashing : Hashing) (clients : ℕ → Client Hash) (s : SyncState Hash) : ℕ → SyncState Hash
  | 0 => s
  | k + 1 => (syncs hashing clients s k).sync hashing (clients k) .succeed

theorem syncs_tree (hashing : Hashing) (clients : ℕ → Client Hash) (s : SyncState Hash) (k : ℕ) :
    (syncs hashing clients s k).tree = s.tree := by
  induction k with
  | zero => rfl
  | succ k ih => exact ih

theorem syncs_db (hashing : Hashing) (clients : ℕ → Client Hash) (s : SyncState Hash) (k : ℕ) :
    (syncs hashing clients s k).db = afterCalls hashing clients s.db k := by
  induction k with
  | zero => rfl
  | succ k ih => simp only [syncs, SyncState.sync, afterCalls, ih]

theorem inv_syncs {s : SyncState Hash} (h : Inv hashing chain s) {clients : ℕ → Client Hash}
    (hc : ∀ k, (clients k).Serves chain s.tree) (k : ℕ) :
    Inv hashing chain (syncs hashing clients s k) := by
  induction k with
  | zero => exact h
  | succ k ih =>
    have hck : (clients k).Serves chain (syncs hashing clients s k).tree := by
      rw [syncs_tree]; exact hc k
    obtain ⟨ls, hls, -⟩ := hck.leaves
    obtain ⟨-, -, -, hinv⟩ := sync_move ih hck hls
    exact hinv

/-- Within `2 * u + 2` calls two in a row answer false, and then every block of the tree is
synced. -/
theorem calls_complete {s : SyncState Hash} (h : Inv hashing chain s) {clients : ℕ → Client Hash}
    (hc : ∀ k, (clients k).Serves chain s.tree) :
    ∃ k, k + 2 ≤ 2 * (unsynced s).card + 2 ∧
      callResult hashing clients s.db k = .ok false ∧
      callResult hashing clients s.db (k + 1) = .ok false ∧
      ∀ b ∈ s.tree, Synced (afterCalls hashing clients s.db (k + 2)) b := by
  have hck : ∀ k, (clients k).Serves chain (syncs hashing clients s k).tree := fun k => by
    rw [syncs_tree]; exact hc k
  have hleaves := fun k => (hc k).leaves
  choose ls hls hleaf using hleaves
  have hmoves := fun k => sync_move (inv_syncs h hc k) (hck k) (hls k)
  choose r hr hmove _ using hmoves
  obtain ⟨k, hk, hk0, hk1⟩ := Walker.exists_idle_idle h.tree ls
    (fun k => leaves_sub (hc k) (hls k)) (fun k => (syncs hashing clients s k).walker) r
    h.within hmove
  rw [h.unsynced_eq]
  have hres : ∀ k, callResult hashing clients s.db k = .ok (r k) := fun k => by
    rw [callResult, ← syncs_db]
    exact hr k
  refine ⟨k, by simpa [syncs] using hk, by rw [hres, hk0], by rw [hres, hk1], fun b hb => ?_⟩
  have hm0 := hmove k
  have hm1 := hmove (k + 1)
  rw [hk0] at hm0
  rw [hk1] at hm1
  have hvis := Walker.all_visited_of_idle_idle h.tree (inv_syncs h hc k).backed
    (fun b hb => (hleaf (k + 1) b).2 hb) hm0 hm1 b hb
  rw [← syncs_db]
  exact ((inv_syncs h hc (k + 2)).synced_iff b).2 (List.mem_toFinset.1 hvis)

/-- **Complete synchronisation.** In every reachable state the parents of the synced blocks are
covered, and from it error-free calls end, after at most `2 * u + 2` of them and with two answers
false in a row, with the whole tree synced. -/
theorem sync_complete {s : SyncState Hash} (hs : Reachable hashing chain NoInterrupt s) :
    ParentsCovered chain s.db ∧
    ∀ clients : ℕ → Client Hash, (∀ k, (clients k).Serves chain s.tree) →
      ∃ k, k + 2 ≤ 2 * (unsynced s).card + 2 ∧
        callResult hashing clients s.db k = .ok false ∧
        callResult hashing clients s.db (k + 1) = .ok false ∧
        ∀ b ∈ s.tree, Synced (afterCalls hashing clients s.db (k + 2)) b := by
  have h := inv_of_reachable (fun _ _ hn => hn.elim) hs
  exact ⟨h.parentsCovered, fun clients hc => calls_complete h hc⟩

theorem sync_complete_line :
    ParentsCovered lineChain lineState.db ∧
      ∃ k, k + 2 ≤ 2 * (unsynced lineState).card + 2 ∧
        callResult numberHashing (fun _ => lineClient) lineState.db k = .ok false ∧
        callResult numberHashing (fun _ => lineClient) lineState.db (k + 1) = .ok false ∧
        ∀ b ∈ lineState.tree,
          Synced (afterCalls numberHashing (fun _ => lineClient) lineState.db (k + 2)) b :=
  have h := sync_complete (lineState_reachable NoInterrupt)
  ⟨h.1, h.2 (fun _ => lineClient) (fun _ => lineClient_serves)⟩

end Shadows.MappingSync
