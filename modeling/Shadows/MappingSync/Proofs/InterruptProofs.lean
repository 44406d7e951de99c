import Shadows.MappingSync.Proofs.CompletenessProofs

/-!
# Proofs: interruptions between the two commits

`sync_one_block` commits the mapping of a block before it commits the tips that contain the parent.
An interruption in between keeps the invariant exactly if the parent is accounted for already
(`parentsCovered_interrupt_iff`). Otherwise the restarted sync drops the synced block from its stack
without looking at its parent, and the ancestors are lost for good.
-/

namespace Shadows.MappingSync

open Db Foundations

variable {Hash : Type} {hashing : Hashing} {chain : Chain Hash}

/-- The topmost entry of a stack that lacks a property is determined by the stack. -/
theorem stack_split_unique {α : Type} {P : α → Prop} {rest rest' dropped dropped' : List α}
    {b b' : α} (he : rest ++ b :: dropped = rest' ++ b' :: dropped') (hb : ¬ P b) (hb' : ¬ P b')
    (hd : ∀ x ∈ dropped, P x) (hd' : ∀ x ∈ dropped', P x) : b = b' := by
  rcases List.append_eq_append_iff.1 he with ⟨mid, hr, htail⟩ | ⟨mid, hr, htail⟩
  · cases mid with
    | nil => exact (List.cons.inj htail).1
    | cons x mid =>
      obtain ⟨-, htail⟩ := List.cons.inj htail
      exact absurd (hd b' (by rw [htail]; simp)) hb'
  · cases mid with
    | nil => exact (List.cons.inj htail).1.symm
    | cons x mid =>
      obtain ⟨-, htail⟩ := List.cons.inj htail
      exact absurd (hd' b (by rw [htail]; simp)) hb

variable [DecidableEq Hash]

/-- An interrupted call keeps the parents covered exactly if it is harmless. -/
theorem parentsCovered_interrupt_iff {s : SyncState Hash} (h : Inv hashing chain s)
    {client : Client Hash} (hc : client.Serves chain s.tree) (e : String) :
    ParentsCovered chain (s.sync hashing client (.interrupted e)).db ↔
      ParentKept chain s.db client := by
  constructor
  · intro hcov tips leaves rest b dropped htips hleaves hstack hdropped hb
    have htips' := h.readable
    rw [htips, Except.ok.injEq] at htips'
    subst htips'
    have hbw : b ∉ s.written := fun hm => hb ((h.synced_iff b).2 hm)
    have hdw : ∀ x ∈ dropped, x ∈ s.written := fun x hx => (h.synced_iff x).1 (hdropped x hx)
    rcases interrupt_spec h hc hleaves e with
      ⟨rest', b', dropped', db1, hstack', hd', hb', hbt, hrep, htips1, hs'⟩ | ⟨hall, -⟩
    · have hbb : b = b' :=
        stack_split_unique (hstack.symm.trans hstack') hbw hb' hdw hd'
      subst hbb
      by_cases hg : b = chain.genesis
      · exact Or.inl hg
      · right
        have hsync : ∀ x, Synced db1 x ↔ x ∈ s.written ++ [b] := fun x => by
          unfold Synced
          rw [hrep.isSynced]
          simp [Chain.commitment]
        rw [hs'] at hcov
        rcases hcov b ((hsync b).2 (by simp)) hg with hp | ⟨tips1, ht1, hp⟩
        · have hpw := (hsync _).1 hp
          rw [List.mem_append, List.mem_singleton] at hpw
          rcases hpw with hpw | hpb
          · exact Or.inl ((h.synced_iff _).2 hpw)
          · exact absurd hpb (h.tree.parent_ne hbt hg)
        · have hread : MetaDb.currentSyncingTips db1 = MetaDb.currentSyncingTips s.db := by
            simp only [MetaDb.currentSyncingTips, htips1]
          rw [hread, htips, Except.ok.injEq] at ht1
          exact Or.inr (ht1 ▸ hp)
    · exact absurd (hall b (by show b ∈ (if _ then _ else _); rw [hstack]; simp)) hbw
  · exact fun hkept => (h.interrupt hc hkept e).parentsCovered

/-- **Interruptions of the mapping sync.** In every run whose interrupted calls are harmless, the
parents of the synced blocks are accounted for and error-free calls complete the synchronisation; and
an interruption of the next call is harmless exactly if the parents are accounted for behind it. -/
theorem interrupted_sync_safe {s : SyncState Hash}
    (hs : Reachable hashing chain (ParentKept chain) s) :
    ParentsCovered chain s.db ∧
      (∀ clients : ℕ → Client Hash, (∀ k, (clients k).Serves chain s.tree) →
        ∃ k, k + 2 ≤ 2 * (unsynced s).card + 2 ∧
          callResult hashing clients s.db k = .ok false ∧
          callResult hashing clients s.db (k + 1) = .ok false ∧
          ∀ b ∈ s.tree, Synced (afterCalls hashing clients s.db (k + 2)) b) ∧
      ∀ (client : Client Hash) (e : String), client.Serves chain s.tree →
        (ParentsCovered chain (s.sync hashing client (.interrupted e)).db ↔
          ParentKept chain s.db client) := by
  have hinv : Inv hashing chain s := inv_of_reachable (fun _ _ hm => hm) hs
  exact ⟨hinv.parentsCovered, fun _ hc => calls_complete hinv hc,
    fun _ e hc => parentsCovered_interrupt_iff hinv hc e⟩

/-! ## A harmless interruption -/

/-- A client of the chain of three blocks with the single leaf `b`. -/
def lineLeafClient (b : Fin 3) : Client (Fin 3) := { lineClient with leaves := .ok [b] }

/-- Genesis is synced before block `1` is imported. -/
def lineGenesisSynced : SyncState (Fin 3) :=
  let s := (SyncState.init lineChain).sync numberHashing (lineLeafClient 0) .succeed
  { s with tree := insert 1 s.tree }

/-- The call for block `1` is interrupted, and then block `2` is imported. -/
def lineInterrupted : SyncState (Fin 3) :=
  let s := lineGenesisSynced.sync numberHashing (lineLeafClient 1) (.interrupted "")
  { s with tree := insert 2 s.tree }

/-- The parent of block `1` is synced when the call for it is interrupted. -/
theorem lineGenesisSynced_kept : ParentKept lineChain lineGenesisSynced.db (lineLeafClient 1) := by
  intro tips leaves rest b dropped htips hleaves hstack _ _
  have hnone : MetaDb.currentSyncingTips lineGenesisSynced.db = .ok [] := rfl
  obtain rfl := Except.ok.inj (hnone.symm.trans htips)
  obtain rfl := Except.ok.inj hleaves
  have hb : b ∈ ([1] : List (Fin 3)) := by
    rw [show [1] = rest ++ b :: dropped from hstack]
    exact List.mem_append_right rest List.mem_cons_self
  obtain rfl := List.mem_singleton.1 hb
  exact .inr (.inl rfl)

theorem lineInterrupted_reachable :
    Reachable numberHashing lineChain (ParentKept lineChain) lineInterrupted := by
  have hgenesis : (lineLeafClient 0).Serves lineChain {0} :=
    ⟨⟨[0], rfl, by decide⟩, fun _ _ => rfl, rfl⟩
  have hone : (lineLeafClient 1).Serves lineChain {1, 0} :=
    ⟨⟨[1], rfl, by decide⟩, fun _ _ => rfl, rfl⟩
  have hsynced : Step numberHashing lineChain (ParentKept lineChain) (SyncState.init lineChain)
      ((SyncState.init lineChain).sync numberHashing (lineLeafClient 0) .succeed) :=
    .sync _ _ hgenesis
  have himported : Step numberHashing lineChain (ParentKept lineChain)
      ((SyncState.init lineChain).sync numberHashing (lineLeafClient 0) .succeed)
      lineGenesisSynced := .import _ 1 (by decide) (by decide) (by decide)
  have hinterrupted : Step numberHashing lineChain (ParentKept lineChain) lineGenesisSynced
      (lineGenesisSynced.sync numberHashing (lineLeafClient 1) (.interrupted "")) :=
    .interrupt _ _ "" hone lineGenesisSynced_kept
  have himported' : Step numberHashing lineChain (ParentKept lineChain)
      (lineGenesisSynced.sync numberHashing (lineLeafClient 1) (.interrupted "")) lineInterrupted :=
    .import _ 2 (by decide) (by decide) (by decide)
  exact (((Relation.ReflTransGen.single hsynced).tail himported).tail hinterrupted).tail himported'

theorem interrupted_sync_safe_line :
    ParentsCovered lineChain lineInterrupted.db ∧
      (∃ k, k + 2 ≤ 2 * (unsynced lineInterrupted).card + 2 ∧
        callResult numberHashing (fun _ => lineClient) lineInterrupted.db k = .ok false ∧
        callResult numberHashing (fun _ => lineClient) lineInterrupted.db (k + 1) = .ok false ∧
        ∀ b ∈ lineInterrupted.tree,
          Synced (afterCalls numberHashing (fun _ => lineClient) lineInterrupted.db (k + 2)) b) ∧
      (ParentsCovered lineChain
          (lineInterrupted.sync numberHashing lineClient (.interrupted "")).db ↔
        ParentKept lineChain lineInterrupted.db lineClient) :=
  have h := interrupted_sync_safe lineInterrupted_reachable
  ⟨h.1, h.2.1 (fun _ => lineClient) (fun _ => lineClient_serves),
    h.2.2 lineClient "" lineClient_serves⟩

/-! ## A lost chain of ancestors -/

/-- Once every leaf is synced and no tip is persisted, the sync looks at nothing else. -/
theorem afterCalls_stuck {log : List (MappingCommitment Hash)} {db : Database Hash}
    {tree : Finset Hash} (hrep : Represents log db)
    (htips : MetaDb.currentSyncingTips db = .ok [])
    (hleaf : ∀ b, chain.lineage.IsLeaf tree b → b ∈ log.map (·.blockHash))
    (hex : ∃ b, chain.lineage.IsLeaf tree b) {clients : ℕ → Client Hash}
    (hc : ∀ k, (clients k).Serves chain tree) (k : ℕ) :
    Represents log (afterCalls hashing clients db k) ∧
      MetaDb.currentSyncingTips (afterCalls hashing clients db k) = .ok [] := by
  induction k with
  | zero => exact ⟨hrep, htips⟩
  | succ k ih =>
    obtain ⟨ihrep, ihtips⟩ := ih
    obtain ⟨ls, hls, hmem⟩ := (hc k).leaves
    obtain ⟨leaf, hl⟩ := hex
    have hne : (if ([] : List Hash).isEmpty then ls else []) ≠ [] :=
      List.ne_nil_of_mem ((hmem leaf).2 hl)
    rcases selectTip_cases ihrep.isSynced (popsFrom_of_read ihtips hls) hne with
      ⟨rest, b, dropped, hstack, -, hb, -⟩ | ⟨-, hsel⟩
    · have hbl : b ∈ ls := by
        show b ∈ (if ([] : List Hash).isEmpty then ls else [])
        rw [hstack]
        simp
      exact absurd (hleaf b ((hmem b).1 hbl)) hb
    · have hnext : afterCalls hashing clients db (k + 1) =
          { afterCalls hashing clients db k with currentSyncingTips := some (.encoded []) } := by
        simp only [afterCalls, syncOneBlock, hsel]
        rfl
      rw [hnext]
      exact ⟨ihrep.with_tips _, rfl⟩

/-- On the line of three blocks, the first call is interrupted after it has written block `2`. Block
`1` is then neither synced nor a tip, and no number of error-free calls ever syncs it. -/
theorem interrupted_sync_loses_ancestors :
    Reachable numberHashing lineChain (fun _ _ => True)
        (lineState.sync numberHashing lineClient (.interrupted "")) ∧
      ¬ ParentsCovered lineChain (lineState.sync numberHashing lineClient (.interrupted "")).db ∧
      ∀ clients : ℕ → Client (Fin 3), (∀ k, (clients k).Serves lineChain lineState.tree) →
        ∀ k, ¬ Synced (afterCalls numberHashing clients
          (lineState.sync numberHashing lineClient (.interrupted "")).db k) 1 := by
  have hinv : Inv numberHashing lineChain lineState :=
    inv_of_reachable (fun _ _ hm => hm) (lineState_reachable (ParentKept lineChain))
  rcases interrupt_spec hinv lineClient_serves rfl "" with
    ⟨rest, b, dropped, db1, hstack, -, -, -, hrep, htips, hs'⟩ | ⟨hall, -⟩
  · have hstack' : ([2] : List (Fin 3)) = rest ++ b :: dropped := hstack
    have hb : b = 2 := by
      have hmem : b ∈ ([2] : List (Fin 3)) := by rw [hstack']; simp
      simpa using hmem
    subst hb
    have hrep' : Represents [lineChain.commitment numberHashing 2] db1 := hrep
    have htips' : MetaDb.currentSyncingTips db1 = .ok [] := by
      unfold MetaDb.currentSyncingTips
      rw [htips]
      rfl
    have hone : ∀ db, Represents [lineChain.commitment numberHashing 2] db → ¬ Synced db 1 := by
      intro db h
      unfold Synced
      rw [h.isSynced]
      simp [Chain.commitment]
    rw [hs']
    refine ⟨?_, fun hcov => ?_, fun clients hc k => ?_⟩
    · rw [← hs']
      exact (lineState_reachable _).tail (.interrupt lineState lineClient "" lineClient_serves trivial)
    · have h2 : Synced db1 2 := by
        unfold Synced
        rw [hrep'.isSynced]
        simp [Chain.commitment]
      rcases hcov 2 h2 (by decide) with h1 | ⟨tips, ht, hmem⟩
      · exact hone db1 hrep' h1
      · rw [htips', Except.ok.injEq] at ht
        rw [← ht] at hmem
        exact absurd hmem List.not_mem_nil
    · have hleaf : ∀ b, lineChain.lineage.IsLeaf lineState.tree b →
          b ∈ [lineChain.commitment numberHashing 2].map (·.blockHash) := by decide
      exact hone _ (afterCalls_stuck hrep' htips' hleaf ⟨2, by decide⟩ hc k).1
  · exact absurd (hall 2 (by decide)) (by decide)

end Shadows.MappingSync
