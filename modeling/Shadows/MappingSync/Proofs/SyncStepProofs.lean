import Shadows.MappingSync.Proofs.SelectTipProofs
import Shadows.Consensus.Proofs.DigestProofs
import Shadows.Db.Proofs.WriteLogProofs

/-!
# Proofs: a call of `sync_one_block` is a move of the walker

On a state that satisfies the invariant `Inv`, a call whose client serves the tree either finds
everything on its stack synced, or it picks the topmost block that is not, appends its commitment to
the log of the database and leaves its parent on the stack. That is a move of the abstract walker
(`sync_move`); an interrupted call does the first half of it (`interrupt_spec`).
-/

namespace Shadows.MappingSync

open Db Consensus Foundations

variable {Hash : Type} {hashing : Hashing} {chain : Chain Hash}

theorem leaves_sub {client : Client Hash} {tree : Finset Hash} (hc : client.Serves chain tree)
    {ls : List Hash} (hls : client.leaves = .ok ls) : ∀ b ∈ ls, b ∈ tree := by
  obtain ⟨ls', hls', hmem⟩ := hc.leaves
  rw [hls, Except.ok.injEq] at hls'
  subst hls'
  exact fun b hb => ((hmem b).1 hb).1

variable [DecidableEq Hash]

/-- The walker a state stands for: the written blocks and the persisted tips. -/
def SyncState.walker (s : SyncState Hash) : Walker Hash where
  visited := s.written.toFinset
  pending := match MetaDb.currentSyncingTips s.db with
    | .ok tips => tips
    | .error _ => []

structure Inv (hashing : Hashing) (chain : Chain Hash) (s : SyncState Hash) : Prop where
  tree : chain.lineage.IsTree s.tree
  logged : ∀ b ∈ s.tree, b ≠ chain.genesis → ∃ log, findLog (chain.header b).digest = .ok log
  represents : Represents (s.written.map (chain.commitment hashing)) s.db
  nodup : s.written.Nodup
  readable : MetaDb.currentSyncingTips s.db = .ok s.walker.pending
  within : s.walker.Within s.tree
  backed : s.walker.Backed chain.lineage

theorem inv_init : Inv hashing chain (SyncState.init chain) where
  tree := Lineage.isTree_singleton
  logged := fun b hb hne => absurd (Finset.mem_singleton.1 hb) hne
  represents := represents_empty
  nodup := List.nodup_nil
  readable := rfl
  within := ⟨by simp [SyncState.init, SyncState.walker],
    fun b hb => absurd hb List.not_mem_nil⟩
  backed := fun b hb _ => absurd hb (by simp [SyncState.init, SyncState.walker])

namespace Inv

variable {s : SyncState Hash}

theorem isSynced_eq (h : Inv hashing chain s) (b : Hash) :
    MappingDb.isSynced s.db b = .ok (decide (b ∈ s.written)) := by
  rw [h.represents.isSynced]
  simp [Chain.commitment]

theorem synced_iff (h : Inv hashing chain s) (b : Hash) : Synced s.db b ↔ b ∈ s.written := by
  unfold Synced
  rw [h.isSynced_eq]
  simp

theorem written_sub (h : Inv hashing chain s) {b : Hash} (hb : b ∈ s.written) : b ∈ s.tree :=
  h.within.visited_sub (List.mem_toFinset.2 hb)

theorem parentsCovered (h : Inv hashing chain s) : ParentsCovered chain s.db := by
  intro b hb hne
  rcases h.backed b (List.mem_toFinset.2 ((h.synced_iff b).1 hb)) hne with hv | hp
  · exact Or.inl ((h.synced_iff _).2 (List.mem_toFinset.1 hv))
  · exact Or.inr ⟨_, h.readable, hp⟩

theorem unsynced_eq (h : Inv hashing chain s) : unsynced s = s.tree \ s.walker.visited := by
  ext b
  simp only [unsynced, Finset.mem_filter, Finset.mem_sdiff, h.isSynced_eq, SyncState.walker,
    List.mem_toFinset, Except.ok.injEq, decide_eq_false_iff_not]

theorem import_block (h : Inv hashing chain s) {b : Hash} (hparent : chain.parent b ∈ s.tree)
    (hnumber : (chain.header b).number.toNat = (chain.header (chain.parent b)).number.toNat + 1)
    (hlog : ensureLog (chain.header b).digest = .ok ()) :
    Inv hashing chain { s with tree := insert b s.tree } where
  tree := h.tree.insert hparent hnumber
  logged := by
    intro c hc hne
    rcases Finset.mem_insert.1 hc with rfl | hc
    · exact (ensureLog_ok_iff _).1 hlog
    · exact h.logged c hc hne
  represents := h.represents
  nodup := h.nodup
  readable := h.readable
  within := ⟨fun c hc => Finset.mem_insert_of_mem (h.within.visited_sub hc),
    fun c hc => Finset.mem_insert_of_mem (h.within.pending_sub c hc)⟩
  backed := h.backed

end Inv

/-! ## Selecting the operating tip -/

/-- On a state that satisfies the invariant the stack is not empty, since the tree has a leaf. -/
theorem selectTip_spec {s : SyncState Hash} (h : Inv hashing chain s) {client : Client Hash}
    (hc : client.Serves chain s.tree) {ls : List Hash} (hls : client.leaves = .ok ls) :
    (∃ rest b dropped, s.walker.start ls = rest ++ b :: dropped ∧ (∀ x ∈ dropped, x ∈ s.written) ∧
      b ∉ s.written ∧ selectTip client s.db = .ok (.operate b rest)) ∨
    ((∀ x ∈ s.walker.start ls, x ∈ s.written) ∧ selectTip client s.db = .ok .exhausted) := by
  refine selectTip_cases h.isSynced_eq (popsFrom_of_read h.readable hls) ?_
  unfold Walker.start
  split_ifs with hp
  · obtain ⟨ls', hls', hmem⟩ := hc.leaves
    obtain ⟨b, hb⟩ := h.tree.exists_leaf
    rw [hls, Except.ok.injEq] at hls'
    subst hls'
    exact List.ne_nil_of_mem ((hmem b).2 hb)
  · simpa using hp

/-! ## Writing the mapping of the operating tip -/

/-- The tips that `sync_one_block` persists after syncing `b`. -/
def tipsAfter (chain : Chain Hash) (b : Hash) (rest : List Hash) : List Hash :=
  if b = chain.genesis then rest else rest ++ [chain.parent b]

/-- The second half of `sync_one_block` on a block of the tree: the first commit appends the
commitment of the block, and the second one replaces the tips. -/
theorem operate_spec {s : SyncState Hash} (h : Inv hashing chain s) {client : Client Hash}
    (hc : client.Serves chain s.tree) {b : Hash} (hb : b ∈ s.tree) (rest : List Hash) :
    ∃ db1 : Database Hash,
      Represents (s.written.map (chain.commitment hashing) ++ [chain.commitment hashing b]) db1 ∧
      db1.currentSyncingTips = s.db.currentSyncingTips ∧
      operate hashing client .succeed b rest s.db =
        (.ok true, { db1 with currentSyncingTips := some (.encoded (tipsAfter chain b rest)) }) ∧
      ∀ e, operate hashing client (.interrupted e) b rest s.db = (.error e, db1) := by
  obtain ⟨db1, hw, hrep, htips⟩ := h.represents.writeHashes (chain.commitment hashing b)
  have hzero : (chain.header b).number = 0 ↔ b = chain.genesis := by
    have : (chain.header b).number = 0 ↔ (chain.header b).number.toNat = 0 :=
      ⟨fun h0 => by rw [h0]; rfl, fun h0 => UInt32.toNat_inj.1 h0⟩
    rw [this]
    exact (h.tree.eq_root_iff hb).symm
  have hhash : (chain.header b).hash = b := chain.header_hash b
  by_cases hg : b = chain.genesis
  · have hsync : syncGenesisBlock hashing client (.ok ()) (chain.header b) s.db = (.ok (), db1) := by
      unfold syncGenesisBlock
      rw [hhash, hg, hc.currentBlock]
      rw [hg] at hw
      simpa [Chain.commitment, Chain.hashes] using hw
    refine ⟨db1, hrep, htips, ?_, fun e => ?_⟩
    · simp only [operate, hc.header b hb, Commits.succeed, hzero.2 hg, if_true, hsync,
        MetaDb.writeCurrentSyncingTips, Database.commit, tipsAfter, if_pos hg]
      rfl
    · simp only [operate, hc.header b hb, Commits.interrupted, hzero.2 hg, if_true, hsync,
        MetaDb.writeCurrentSyncingTips, Database.commit]
  · obtain ⟨log, hlog⟩ := h.logged b hb hg
    have hsync : syncBlock hashing (.ok ()) (chain.header b) s.db = (.ok (), db1) := by
      unfold syncBlock
      rw [hhash, hlog]
      simpa [Chain.commitment, Chain.hashes, hg, hlog] using hw
    have hnz : ¬ (chain.header b).number = 0 := fun h0 => hg (hzero.1 h0)
    refine ⟨db1, hrep, htips, ?_, fun e => ?_⟩
    · simp only [operate, hc.header b hb, Commits.succeed, if_neg hnz, hsync,
        MetaDb.writeCurrentSyncingTips, Database.commit, tipsAfter, if_neg hg]
      rfl
    · simp only [operate, hc.header b hb, Commits.interrupted, if_neg hnz, hsync,
        MetaDb.writeCurrentSyncingTips, Database.commit]

/-! ## Whole calls -/

/-- An error-free call answers whether it visited a block, moves the walker and keeps the
invariant. -/
theorem sync_move {s : SyncState Hash} (h : Inv hashing chain s) {client : Client Hash}
    (hc : client.Serves chain s.tree) {ls : List Hash} (hls : client.leaves = .ok ls) :
    ∃ r, (syncOneBlock hashing client .succeed s.db).1 = .ok r ∧
      Walker.Move chain.lineage (s.walker.start ls) s.walker r
        (s.sync hashing client .succeed).walker ∧
      Inv hashing chain (s.sync hashing client .succeed) := by
  have hsub := leaves_sub hc hls
  rcases selectTip_spec h hc hls with ⟨rest, b, dropped, hstack, hd, hb, hsel⟩ | ⟨hall, hsel⟩
  · have hbt : b ∈ s.tree := h.within.start_mem hsub b (by rw [hstack]; simp)
    obtain ⟨db1, hrep, -, hop, -⟩ := operate_spec h hc hbt rest
    have hcall : syncOneBlock hashing client .succeed s.db =
        (.ok true, { db1 with currentSyncingTips := some (.encoded (tipsAfter chain b rest)) }) := by
      simp only [syncOneBlock, hsel, hop]
    have hs' : s.sync hashing client .succeed =
        ⟨s.tree, { db1 with currentSyncingTips := some (.encoded (tipsAfter chain b rest)) },
          s.written ++ [b]⟩ := by
      simp only [SyncState.sync, hcall, hsel]
    have hw' : (s.sync hashing client .succeed).walker =
        ⟨insert b s.walker.visited, tipsAfter chain b rest⟩ := by
      rw [hs']
      simp only [SyncState.walker, MetaDb.currentSyncingTips, Raw.decode_encoded]
      congr 1
      ext x
      simp
    have hmove : Walker.Move chain.lineage (s.walker.start ls) s.walker true
        (s.sync hashing client .succeed).walker := by
      rw [hw']
      exact .visit rest dropped b hstack (fun x hx => List.mem_toFinset.2 (hd x hx))
        (fun hm => hb (List.mem_toFinset.1 hm))
    refine ⟨true, by rw [hcall], hmove, ?_⟩
    refine ⟨h.tree, h.logged, ?_, ?_, ?_, h.within.move h.tree hsub hmove, h.backed.move hmove⟩
    · rw [hs']
      simpa using hrep.with_tips (some (.encoded (tipsAfter chain b rest)))
    · rw [hs']
      exact List.nodup_append.2 ⟨h.nodup, List.nodup_singleton b,
        fun x hx y hy hxy => hb (by rw [← List.mem_singleton.1 hy, ← hxy]; exact hx)⟩
    · rw [hw', hs']
      rfl
  · have hcall : syncOneBlock hashing client .succeed s.db =
        (.ok false, { s.db with currentSyncingTips := some (.encoded []) }) := by
      simp only [syncOneBlock, hsel]
      rfl
    have hs' : s.sync hashing client .succeed =
        ⟨s.tree, { s.db with currentSyncingTips := some (.encoded []) }, s.written⟩ := by
      simp only [SyncState.sync, hcall, hsel]
    have hw' : (s.sync hashing client .succeed).walker = ⟨s.walker.visited, []⟩ := by
      rw [hs']
      rfl
    have hmove : Walker.Move chain.lineage (s.walker.start ls) s.walker false
        (s.sync hashing client .succeed).walker := by
      rw [hw']
      exact .idle fun x hx => List.mem_toFinset.2 (hall x hx)
    refine ⟨false, by rw [hcall], hmove, ?_⟩
    refine ⟨h.tree, h.logged, ?_, ?_, ?_, h.within.move h.tree hsub hmove, h.backed.move hmove⟩
    · rw [hs']
      exact h.represents.with_tips _
    · rw [hs']
      exact h.nodup
    · rw [hw', hs']
      rfl

/-- An interrupted call either changes nothing, or it writes the topmost unsynced block of its stack
and leaves the persisted tips as they were. -/
theorem interrupt_spec {s : SyncState Hash} (h : Inv hashing chain s) {client : Client Hash}
    (hc : client.Serves chain s.tree) {ls : List Hash} (hls : client.leaves = .ok ls) (e : String) :
    (∃ rest b dropped db1, s.walker.start ls = rest ++ b :: dropped ∧
      (∀ x ∈ dropped, x ∈ s.written) ∧ b ∉ s.written ∧ b ∈ s.tree ∧
      Represents ((s.written ++ [b]).map (chain.commitment hashing)) db1 ∧
      db1.currentSyncingTips = s.db.currentSyncingTips ∧
      s.sync hashing client (.interrupted e) = ⟨s.tree, db1, s.written ++ [b]⟩) ∨
    ((∀ x ∈ s.walker.start ls, x ∈ s.written) ∧ s.sync hashing client (.interrupted e) = s) := by
  rcases selectTip_spec h hc hls with ⟨rest, b, dropped, hstack, hd, hb, hsel⟩ | ⟨hall, hsel⟩
  · left
    have hbt : b ∈ s.tree :=
      h.within.start_mem (leaves_sub hc hls) b (by rw [hstack]; simp)
    obtain ⟨db1, hrep, htips, -, hop⟩ := operate_spec h hc hbt rest
    refine ⟨rest, b, dropped, db1, hstack, hd, hb, hbt, by simpa using hrep, htips, ?_⟩
    simp only [SyncState.sync, syncOneBlock, hsel, hop]
  · right
    refine ⟨hall, ?_⟩
    simp only [SyncState.sync, syncOneBlock, hsel]
    rfl

end Shadows.MappingSync
