import Shadows.Rpc.ChainQueries
import Shadows.Rpc.Proofs.TransactionByHashProofs

/-!
# Proofs: the blocks of the canonical chain

A canonical block that is synced is found by its Ethereum hash and by its number, and both ways lead to the
same answers. Its parent hash is the hash of the block before, so that clients can walk back to genesis.
-/

namespace Shadows.Rpc

open Db MappingSync Consensus Ethereum Foundations

variable {Hash W : Type} {cfg : Config W} {chain : Chain Hash} {codec : BlockCodec}

/-! ## Numbers and parents -/

section Chain

variable {tree : Finset Hash} (rc : RuntimeChain cfg chain tree)

theorem RuntimeChain.number (htree : chain.lineage.IsTree tree) {b : Hash} (hb : b ∈ tree)
    {block : Block} (hblock : (rc.state b).currentBlock = some block) :
    block.header.number = .ofU32 (chain.header b).number := by
  obtain ⟨hreached, hnumber⟩ := rc.reached htree b hb
  rw [hreached.number hblock, hnumber]

/-- The parent hash of a block is the hash of the block of its parent. -/
theorem RuntimeChain.parentHash {b : Hash} (hb : b ∈ tree) (hne : b ≠ chain.genesis)
    {block parent : Block} (hblock : (rc.state b).currentBlock = some block)
    (hparent : (rc.state (chain.parent b)).currentBlock = some parent) :
    block.header.parentHash = cfg.hashing.headerHash parent.header := by
  obtain ⟨input, hdigest, hrun⟩ := (rc.child b hb hne).run
  obtain ⟨mid, hbody, hfin⟩ := runBlock_cases hrun
  obtain ⟨-, -, hcurrent, hmap, hal⟩ := runBody_spec hdigest hbody
  obtain ⟨block', receipts, statuses, hassembled⟩ :=
    assembled_of_finalize (hcurrent.trans hparent) hmap hal hfin
  rw [← hassembled.parentHash, Option.some.inj (hblock.symm.trans hassembled.currentBlock)]

end Chain

/-! ## Looking a block up -/

namespace ServesNode

variable [DecidableEq Hash] {s : SyncState Hash} {best : Hash} {api : BlockApi Hash}
  {rc : RuntimeChain cfg chain s.tree} (h : ServesNode s best api rc)

include h

/-- A canonical block that is synced is found by its Ethereum hash. -/
theorem loadHash_block {b : Hash} (hsynced : Synced s.db b)
    (hbranch : chain.lineage.OnBranch best b) {block : Block}
    (hblock : (rc.state b).currentBlock = some block) :
    loadHash api.client api.backend (cfg.hashing.headerHash block.header) = .ok (some b) := by
  have hb := h.mem_tree hsynced
  have hhash : (chain.hashes cfg.hashing b).blockHash = cfg.hashing.headerHash block.header := by
    rw [rc.hashes_eq hb (h.inv.logged b hb) hblock]
    rfl
  rw [loadHash_congr h.represents (represents_mappingOf s.written),
    loadHash_eq_some_iff h.client h.inv.nodup fun _ => h.inv.written_sub]
  refine ⟨⟨(h.inv.synced_iff b).1 hsynced, hbranch, hhash⟩, fun c hc hbranch' hce => ?_⟩
  have hct := h.inv.written_sub hc
  obtain ⟨block', hblock', -⟩ := rc.exists_block hct
  rw [rc.hashes_eq hct (h.inv.logged c hct) hblock'] at hce
  have heq : block' = block := h.collisionFree c hct b hb block' block hblock' hblock hce
  -- the blocks have the same number, and there is one block of the branch at each
  have hnumber : U256.ofU32 (chain.header c).number = U256.ofU32 (chain.header b).number := by
    rw [← rc.number h.inv.tree hct hblock', ← rc.number h.inv.tree hb hblock, heq]
  apply h.inv.tree.onBranch_unique h.best_mem hbranch' hbranch
  show (chain.header c).number.toNat = (chain.header b).number.toNat
  rw [U256.ofU32_injective hnumber]

/-- The block and the statuses of a block, as they are read by its hash. -/
theorem reads_block {b : Hash} (hb : b ∈ s.tree) :
    api.currentBlock (.hash b) = (rc.state b).currentBlock ∧
      api.currentTransactionStatuses (.hash b) =
        some ((rc.state b).pending.map fun entry => entry.2.1) :=
  ⟨h.reads.currentBlock b hb,
    (h.reads.currentTransactionStatuses b hb).trans (rc.records hb).statuses⟩

end ServesNode

/-! ## The transactions of a block -/

/-- The transactions of a block in full, if every one has its status. -/
theorem mapM_zipIdx_map {α β γ δ : Type} (g : α → β) (k : α → γ) (f : β → γ → δ) (l : List α) :
    (l.map g).zipIdx.mapM (fun (entry : β × ℕ) => (l.map k)[entry.2]?.map (f entry.1)) =
      some (l.map fun x => f (g x) (k x)) := by
  rw [mapM_eq_some, List.forall₂_iff_get]
  refine ⟨by simp, fun i hi hi' => ?_⟩
  simp only [List.length_zipIdx, List.length_map] at hi
  simp [hi]

section Transactions

variable {tree : Finset Hash} {rc : RuntimeChain cfg chain tree} {b : Hash} {block : Block}

/-- The transactions of a block as they are shown. -/
def shownTransactions (codec : BlockCodec) (block : Block)
    (pending : List (Transaction × TransactionStatus × Receipt)) : List RpcTransaction :=
  pending.map fun entry => transactionBuild codec entry.1 (some block) (some entry.2.1)

/-- The block is shown with all its transactions, in full or by their hashes. -/
theorem blockTransactions_eq (codec : BlockCodec) (hb : b ∈ tree)
    (hblock : (rc.state b).currentBlock = some block) :
    blockTransactions codec block (((rc.state b).pending.map fun entry => entry.2.1).map some) true =
        some (.full (shownTransactions codec block (rc.state b).pending)) ∧
      blockTransactions codec block (((rc.state b).pending.map fun entry => entry.2.1).map some) false =
        some (.hashes ((shownTransactions codec block (rc.state b).pending).map
          RpcTransaction.hash)) := by
  unfold blockTransactions shownTransactions
  rw [transactions_eq_pending hb hblock]
  constructor
  · rw [if_pos rfl, List.map_map]
    have hfull := mapM_zipIdx_map (fun entry : Transaction × TransactionStatus × Receipt => entry.1)
      (fun entry => some entry.2.1) (fun transaction (status : Option TransactionStatus) =>
        transactionBuild codec transaction (some block) (some (status.getD defaultStatus)))
      (rc.state b).pending
    exact congrArg (Option.map BlockTransactions.full) hfull
  · rw [if_neg Bool.false_ne_true, List.map_map, List.map_map]
    rfl

/-- The transaction at an index is the one that is shown there with the block. -/
theorem transactionAt_eq_shown {Hash' : Type} {api : BlockApi Hash'} {id : BlockId Hash'}
    (hb : b ∈ tree) (hblock : (rc.state b).currentBlock = some block)
    (hread : api.currentBlock id = some block)
    (hstatuses : api.currentTransactionStatuses id =
      some ((rc.state b).pending.map fun entry => entry.2.1)) {index : Index}
    {transaction : RpcTransaction}
    (hindex : (shownTransactions codec block (rc.state b).pending)[index.value.toNat]? =
      some transaction) :
    transactionAt codec api id index = some (some transaction) := by
  unfold shownTransactions at hindex
  rw [List.getElem?_map, Option.map_eq_some_iff] at hindex
  obtain ⟨entry, hentry, rfl⟩ := hindex
  unfold transactionAt
  rw [hread, hstatuses]
  dsimp only
  rw [transactions_eq_pending hb hblock, List.getElem?_map, List.getElem?_map, hentry]
  rfl

/-- The number of a block, as a parameter of a request. -/
theorem saturatedU32_toUInt64 (number : UInt32) : saturatedU32 number.toUInt64 = number := by
  unfold saturatedU32
  apply UInt32.toNat_inj.1
  have hlt := number.toNat_lt
  rw [UInt32.toNat_toUInt64, UInt32.toNat_ofNat', Nat.min_eq_left (by omega)]
  exact Nat.mod_eq_of_lt hlt

end Transactions

/-! ## Interfaces -/

section Interfaces

variable [DecidableEq Hash] {s : SyncState Hash} {best : Hash} {api : BlockApi Hash}
  {rc : RuntimeChain cfg chain s.tree}

theorem richBlockBuild_transactions {block : Block} {statuses : List (Option TransactionStatus)}
    {full : Bool} {transactions : BlockTransactions} (hash : Option H256)
    (h : blockTransactions codec block statuses full = some transactions) :
    ∃ rich : Rich RpcBlock, richBlockBuild codec block statuses hash full = some rich ∧
      rich.inner.transactions = transactions ∧ rich.inner.parentHash = block.header.parentHash ∧
      rich.inner.number = some block.header.number ∧
      rich.inner.hash = some (hash.getD (codec.hashing.headerHash block.header)) := by
  unfold richBlockBuild
  rw [h]
  exact ⟨_, rfl, rfl, rfl, rfl, rfl⟩

theorem nativeBlockId_num (number : UInt32) :
    api.nativeBlockId (some (.num number.toUInt64)) = some (.number number) :=
  congrArg (fun n => some (BlockId.number n)) (saturatedU32_toUInt64 number)

/-- By number, every canonical block is shown, synced or not. -/
theorem blockByNumber_eq (hnumbers : api.ReadsNumbers chain best rc.state) {b : Hash}
    (hb : b ∈ s.tree) (hbranch : chain.lineage.OnBranch best b) {block : Block}
    (hblock : (rc.state b).currentBlock = some block) (full : Bool) :
    blockByNumber codec api (.num (chain.header b).number.toUInt64) full =
      (richBlockBuild codec block (((rc.state b).pending.map fun entry => entry.2.1).map some)
        (some (codec.hashing.headerHash block.header)) full).map some := by
  unfold blockByNumber
  rw [nativeBlockId_num]
  dsimp only
  rw [hnumbers.currentBlock b hbranch, hnumbers.currentTransactionStatuses b hbranch, hblock,
    (rc.records hb).statuses]

variable (h : ServesNode s best api rc)

include h

/-- By hash, a canonical block that is synced is shown. -/
theorem blockByHash_eq (hcodec : codec.hashing = cfg.hashing) {b : Hash} (hsynced : Synced s.db b)
    (hbranch : chain.lineage.OnBranch best b) {block : Block}
    (hblock : (rc.state b).currentBlock = some block) (full : Bool) :
    blockByHash codec api (cfg.hashing.headerHash block.header) full =
      (richBlockBuild codec block (((rc.state b).pending.map fun entry => entry.2.1).map some)
        (some (codec.hashing.headerHash block.header)) full).map fun rich => .ok (some rich) := by
  obtain ⟨hread, hstatuses⟩ := h.reads_block (h.mem_tree hsynced)
  unfold blockByHash
  rw [h.loadHash_block hsynced hbranch hblock]
  dsimp only
  rw [hread, hblock, hstatuses, hcodec]

/-- **Interfaces.** For every canonical block that is synced, by its hash and by its number, with the block
in full or by index: all methods show the same transactions, which are those that the runtime has accepted,
in order. -/
theorem interfaces_agree (hmatches : codec.Matches cfg)
    (hnumbers : api.ReadsNumbers chain best rc.state) {b : Hash} (hsynced : Synced s.db b)
    (hbranch : chain.lineage.OnBranch best b) {block : Block}
    (hblock : (rc.state b).currentBlock = some block) :
    ∃ transactions, transactions.length = (rc.accepted b).length ∧
      (∀ (i : ℕ) transaction shown, (rc.accepted b)[i]? = some transaction →
        transactions[i]? = some shown → ∃ creates,
          shown = (transactionBuild codec transaction none none).mined
            (cfg.hashing.headerHash block.header) block.header.number (.ofU32 (.ofNat i)) creates) ∧
      ShowsTransactions codec api (cfg.hashing.headerHash block.header)
        (.num (chain.header b).number.toUInt64) transactions := by
  have hb := h.mem_tree hsynced
  have hcodec := hmatches.hashing
  obtain ⟨hread, hstatuses⟩ := h.reads_block hb
  rw [hblock] at hread
  have hread' := (hnumbers.currentBlock b hbranch).trans hblock
  have hstatuses' := (hnumbers.currentTransactionStatuses b hbranch).trans (rc.records hb).statuses
  obtain ⟨hfull, hhashes⟩ := blockTransactions_eq codec hb hblock
  have hlength : (shownTransactions codec block (rc.state b).pending).length =
      block.transactions.length := by
    rw [shownTransactions, transactions_eq_pending hb hblock, List.length_map, List.length_map]
  have hload := h.loadHash_block hsynced hbranch hblock
  refine ⟨shownTransactions codec block (rc.state b).pending, ?_, ?_, ?_⟩
  · rw [shownTransactions, List.length_map, ← (rc.records hb).transactions, List.length_map]
  · intro i transaction shown htransaction hshown
    obtain ⟨status, receipt, event, source, before, outcome, after, hentry, hstatus, -, ⟨_, -, hat⟩,
      hrecorded⟩ := rc.exists_entry hb htransaction
    rw [shownTransactions, List.getElem?_map, hentry, Option.map_some, Option.some.injEq] at hshown
    rw [← hshown, ← hstatus]
    exact ⟨_, transactionBuild_mined hmatches hat.signer hrecorded block⟩
  · exact {
      full := by
        obtain ⟨rich, hrich, htransactions, -⟩ := richBlockBuild_transactions
          (some (codec.hashing.headerHash block.header)) hfull
        refine ⟨rich, ?_, ?_, htransactions⟩
        · rw [blockByHash_eq h hcodec hsynced hbranch hblock, hrich, Option.map_some]
        · rw [blockByNumber_eq hnumbers hb hbranch hblock, hrich, Option.map_some]
      hashes := by
        obtain ⟨rich, hrich, htransactions, -⟩ := richBlockBuild_transactions
          (some (codec.hashing.headerHash block.header)) hhashes
        refine ⟨rich, ?_, ?_, htransactions⟩
        · rw [blockByHash_eq h hcodec hsynced hbranch hblock, hrich, Option.map_some]
        · rw [blockByNumber_eq hnumbers hb hbranch hblock, hrich, Option.map_some]
      byHash := by
        intro index transaction hindex
        unfold transactionByBlockHashAndIndex
        rw [hload]
        dsimp only
        rw [transactionAt_eq_shown hb hblock hread hstatuses hindex, Option.map_some]
      byNumber := by
        intro index transaction hindex
        unfold transactionByBlockNumberAndIndex
        rw [nativeBlockId_num]
        exact transactionAt_eq_shown hb hblock hread' hstatuses' hindex
      countByHash := by
        unfold blockTransactionCountByHash
        rw [hload]
        dsimp only
        rw [hread, hlength]
        rfl
      countByNumber := by
        unfold blockTransactionCountByNumber
        rw [nativeBlockId_num, Option.bind_some, hread', hlength]
        rfl }

/-! ## Ancestors -/

omit h in
/-- The answer for a canonical block without its transactions in full, as both methods give it. -/
theorem exists_rich (codec : BlockCodec) (hnumbers : api.ReadsNumbers chain best rc.state) {b : Hash}
    (hb : b ∈ s.tree) (hbranch : chain.lineage.OnBranch best b) {block : Block}
    (hblock : (rc.state b).currentBlock = some block) :
    ∃ rich : Rich RpcBlock,
      richBlockBuild codec block (((rc.state b).pending.map fun entry => entry.2.1).map some)
        (some (codec.hashing.headerHash block.header)) false = some rich ∧
      blockByNumber codec api (.num (chain.header b).number.toUInt64) false = some (some rich) ∧
      rich.inner.parentHash = block.header.parentHash ∧
      rich.inner.number = some block.header.number ∧
      rich.inner.hash = some (codec.hashing.headerHash block.header) := by
  obtain ⟨-, hhashes⟩ := blockTransactions_eq codec hb hblock
  obtain ⟨rich, hrich, -, hparent, hnumber, hhash⟩ :=
    richBlockBuild_transactions (some (codec.hashing.headerHash block.header)) hhashes
  refine ⟨rich, hrich, ?_, hparent, hnumber, hhash⟩
  rw [blockByNumber_eq hnumbers hb hbranch hblock, hrich, Option.map_some]

/-- Walking back from a canonical block. -/
theorem walkBack_eq (hcodec : codec.hashing = cfg.hashing)
    (hnumbers : api.ReadsNumbers chain best rc.state)
    (hsynced : ∀ b, chain.lineage.OnBranch best b → Synced s.db b) :
    ∀ (k : ℕ) (b : Hash) (block : Block), chain.lineage.OnBranch best b →
      (rc.state b).currentBlock = some block → k ≤ (chain.header b).number.toNat →
        ∃ number rich, number.toNat + k = (chain.header b).number.toNat ∧
          walkBack codec api k (cfg.hashing.headerHash block.header) = some (.ok (some rich)) ∧
          blockByNumber codec api (.num number.toUInt64) false = some (some rich) ∧
          rich.inner.number = some (.ofU32 number) := by
  intro k
  induction k with
  | zero =>
    intro b block hbranch hblock _
    have hb := h.mem_tree (hsynced b hbranch)
    obtain ⟨rich, hrich, hbynumber, -, hnumber, -⟩ :=
      exists_rich codec hnumbers hb hbranch hblock
    refine ⟨(chain.header b).number, rich, rfl, ?_, hbynumber, ?_⟩
    · rw [walkBack, blockByHash_eq h hcodec (hsynced b hbranch) hbranch hblock, hrich,
        Option.map_some]
    · rw [hnumber, rc.number h.inv.tree hb hblock]
  | succ k ih =>
    intro b block hbranch hblock hk
    have hb := h.mem_tree (hsynced b hbranch)
    have hne : b ≠ chain.genesis := fun heq => by
      rw [heq, chain.genesis_number] at hk
      exact Nat.not_succ_le_zero k hk
    have hbranch' := h.inv.tree.onBranch_parent h.best_mem hbranch hne
    have hdepth : (chain.header b).number.toNat =
      (chain.header (chain.parent b)).number.toNat + 1 := h.inv.tree.depth_parent b hb hne
    obtain ⟨parent, hparent, -⟩ := rc.exists_block (h.inv.tree.parent_mem b hb hne)
    obtain ⟨rich, hrich, -, hparentHash, -⟩ :=
      exists_rich codec hnumbers hb hbranch hblock
    obtain ⟨number, found, hnumber, hwalk, hfound⟩ :=
      ih (chain.parent b) parent hbranch' hparent (by omega)
    refine ⟨number, found, by omega, ?_, hfound⟩
    rw [walkBack, blockByHash_eq h hcodec (hsynced b hbranch) hbranch hblock, hrich,
      Option.map_some]
    dsimp only
    rw [hparentHash, rc.parentHash hb hne hblock hparent]
    exact hwalk

/-- The genesis block has the parent hash zero, which no block has. -/
theorem walkBack_genesis {block : Block} (hblock : (rc.state chain.genesis).currentBlock = some block)
    (hzero : ∀ b ∈ s.tree, ∀ block, (rc.state b).currentBlock = some block →
      cfg.hashing.headerHash block.header ≠ 0) (k : ℕ) :
    walkBack codec api k block.header.parentHash = some (.ok none) := by
  obtain ⟨world, timestamp, hstore⟩ := rc.genesis
  obtain ⟨gasUsed, -, hstate⟩ := storeBlock_eq_some hstore
  rw [hstate, Option.some.injEq] at hblock
  have hparent : block.header.parentHash = 0 := by
    rw [← hblock]
    rfl
  have hload : loadHash api.client api.backend 0 = .ok none := by
    rw [loadHash_congr h.represents (represents_mappingOf s.written)]
    obtain ⟨r, hr⟩ := exists_loadHash cfg.hashing chain api.client s.written 0
    cases r with
    | none => exact hr
    | some c =>
      obtain ⟨⟨hc, -, hce⟩, -⟩ :=
        (loadHash_eq_some_iff h.client h.inv.nodup (fun _ => h.inv.written_sub) _ c).1 hr
      have hct := h.inv.written_sub hc
      obtain ⟨block', hblock', -⟩ := rc.exists_block hct
      rw [rc.hashes_eq hct (h.inv.logged c hct) hblock'] at hce
      exact absurd hce (hzero c hct block' hblock')
  have hnone : blockByHash codec api 0 false = some (.ok none) := by
    unfold blockByHash
    rw [hload]
  rw [hparent]
  cases k with
  | zero => exact hnone
  | succ k => rw [walkBack, hnone]

/-- Walking back beyond genesis. -/
theorem walkBack_none (hcodec : codec.hashing = cfg.hashing)
    (hnumbers : api.ReadsNumbers chain best rc.state)
    (hsynced : ∀ b, chain.lineage.OnBranch best b → Synced s.db b)
    (hzero : ∀ b ∈ s.tree, ∀ block, (rc.state b).currentBlock = some block →
      cfg.hashing.headerHash block.header ≠ 0) :
    ∀ (k : ℕ) (b : Hash) (block : Block), chain.lineage.OnBranch best b →
      (rc.state b).currentBlock = some block → (chain.header b).number.toNat < k →
        walkBack codec api k (cfg.hashing.headerHash block.header) = some (.ok none) := by
  intro k
  induction k with
  | zero => exact fun b block _ _ hk => absurd hk (Nat.not_lt_zero _)
  | succ k ih =>
    intro b block hbranch hblock hk
    have hb := h.mem_tree (hsynced b hbranch)
    obtain ⟨rich, hrich, -, hparentHash, -⟩ := exists_rich codec hnumbers hb hbranch hblock
    rw [walkBack, blockByHash_eq h hcodec (hsynced b hbranch) hbranch hblock, hrich,
      Option.map_some]
    dsimp only
    rw [hparentHash]
    by_cases hne : b = chain.genesis
    · subst hne
      exact walkBack_genesis h hblock hzero k
    · have hdepth : (chain.header b).number.toNat =
        (chain.header (chain.parent b)).number.toNat + 1 := h.inv.tree.depth_parent b hb hne
      obtain ⟨parent, hparent, -⟩ := rc.exists_block (h.inv.tree.parent_mem b hb hne)
      rw [rc.parentHash hb hne hblock hparent]
      exact ih (chain.parent b) parent (h.inv.tree.onBranch_parent h.best_mem hbranch hne) hparent (by omega)

/-- **Ancestors.** On a synced branch, a client that starts with the latest block and follows the parent
hashes gets the block of every number down to zero, the same as by number, and then, as no block has the
hash zero, nothing. -/
theorem ancestors_reached (hcodec : codec.hashing = cfg.hashing)
    (hnumbers : api.ReadsNumbers chain best rc.state) (hbest : api.bestHash = best)
    (hsynced : ∀ b, chain.lineage.OnBranch best b → Synced s.db b) :
    ∃ (latest : Rich RpcBlock) (hash : H256),
      blockByNumber codec api .latest false = some (some latest) ∧ latest.inner.hash = some hash ∧
      (∀ k ≤ (chain.header best).number.toNat, ∃ (number : UInt32) (rich : Rich RpcBlock),
        number.toNat + k = (chain.header best).number.toNat ∧
          walkBack codec api k hash = some (.ok (some rich)) ∧
          blockByNumber codec api (.num number.toUInt64) false = some (some rich) ∧
          rich.inner.number = some (.ofU32 number)) ∧
      ((∀ b ∈ s.tree, ∀ block, (rc.state b).currentBlock = some block →
          cfg.hashing.headerHash block.header ≠ 0) →
        ∀ k, (chain.header best).number.toNat < k → walkBack codec api k hash = some (.ok none)) := by
  have hbranch : chain.lineage.OnBranch best best := Lineage.IsTree.onBranch_tip best
  obtain ⟨block, hblock, -⟩ := rc.exists_block h.best_mem
  obtain ⟨hread, hstatuses⟩ := h.reads_block h.best_mem
  obtain ⟨rich, hrich, -, -, -, hhash⟩ := exists_rich codec hnumbers h.best_mem hbranch hblock
  have hlatest : blockByNumber codec api .latest false = some (some rich) := by
    unfold blockByNumber ChainApi.nativeBlockId
    rw [Option.getD_some, hbest]
    dsimp only
    rw [hread, hblock, hstatuses]
    dsimp only
    rw [hrich, Option.map_some]
  rw [hcodec] at hhash
  refine ⟨rich, _, hlatest, hhash, fun k hk => ?_, fun hzero k hk => ?_⟩
  · exact walkBack_eq h hcodec hnumbers hsynced k best block hbranch hblock hk
  · exact walkBack_none h hcodec hnumbers hsynced hzero k best block hbranch hblock hk

end Interfaces

/-! ## The line -/

theorem lineAllSynced_serves : ServesNode lineAllSynced 2 (lineNodeApi lineAllSynced.db)
    (lineRuntimeChain lineAllSynced.tree) :=
  lineServesNode lineAllSynced_reachable rfl

theorem lineAllSynced_synced (b : Fin 3) : Synced lineAllSynced.db b := by
  match b with
  | 0 => rfl
  | 1 => rfl
  | 2 => rfl

theorem lineReads_numbers (db : Database (Fin 3)) :
    (lineNodeApi db).ReadsNumbers lineChain 2 lineStates where
  currentBlock := fun b _ => by
    match b with
    | 0 => rfl
    | 1 => rfl
    | 2 => rfl
  currentTransactionStatuses := fun b _ => by
    match b with
    | 0 => rfl
    | 1 => rfl
    | 2 => rfl

theorem interfaces_agree_line :
    ∃ (block : Block) (transactions : List RpcTransaction),
      (lineStates 2).currentBlock = some block ∧ transactions.length = 1 ∧
        ShowsTransactions smallCodec (lineNodeApi lineAllSynced.db)
          (numberHashing.headerHash block.header) (.num 2) transactions := by
  obtain ⟨block, hblock, -⟩ := lineStates_block 2
  obtain ⟨transactions, hlength, -, hshows⟩ := interfaces_agree lineAllSynced_serves
    smallCodec_matches (lineReads_numbers _) (lineAllSynced_synced 2) (lineChain_onBranch 2) hblock
  exact ⟨block, transactions, hblock, hlength, hshows⟩

theorem ancestors_reached_line :
    ∃ (latest rich : Rich RpcBlock) (hash : H256),
      blockByNumber smallCodec (lineNodeApi lineAllSynced.db) .latest false = some (some latest) ∧
        latest.inner.hash = some hash ∧
        walkBack smallCodec (lineNodeApi lineAllSynced.db) 2 hash = some (.ok (some rich)) ∧
        rich.inner.number = some 0 := by
  obtain ⟨latest, hash, hlatest, hhash, hwalk, -⟩ := ancestors_reached lineAllSynced_serves
    smallCodec_matches.hashing (lineReads_numbers _) rfl fun b _ => lineAllSynced_synced b
  obtain ⟨number, rich, hnumber, hfound, -, hrich⟩ := hwalk 2 le_rfl
  have hzero : number = 0 := by
    apply UInt32.toNat_inj.1
    have hbest : (lineChain.header 2).number.toNat = 2 := rfl
    rw [hbest] at hnumber
    exact Nat.add_right_cancel (hnumber.trans (Nat.zero_add 2).symm)
  rw [hzero] at hrich
  exact ⟨latest, rich, hash, hlatest, hhash, hfound, hrich⟩

end Shadows.Rpc
