import Shadows.Rpc.ExecutedLogs
import Shadows.Rpc.Proofs.ChainQueryProofs
import Shadows.Rpc.Proofs.LogRangeProofs

/-!
# Proofs: logs from execution to clients

A branch has a block at every number up to that of its tip. A query for a range visits these blocks, and
what it finds in each is what the receipts there tell.
-/

namespace Shadows.Rpc

open Db MappingSync Consensus Ethereum Foundations

variable {Hash W : Type} {cfg : Config W} {chain : Chain Hash} {tree : Finset Hash}

/-! ## The blocks of a range -/

/-- The numbers of a range name blocks of the branch. -/
theorem exists_blocks (htree : chain.lineage.IsTree tree) {best : Hash} (hbest : best ∈ tree)
    {numbers : List UInt32} (hnumbers : ∀ n ∈ numbers, n ≤ (chain.header best).number) :
    ∃ blocks, List.Forall₂
      (fun n b => chain.lineage.OnBranch best b ∧ (chain.header b).number = n) numbers blocks :=
  exists_forall₂.2 fun n hn => by
    have hle : n.toNat ≤ chain.lineage.depth best := UInt32.le_iff_toNat_le.1 (hnumbers n hn)
    obtain ⟨b, hb, hdepth⟩ := htree.exists_onBranch hbest hle
    exact ⟨b, hb, UInt32.toNat_inj.1 hdepth⟩

/-! ## One block -/

/-- What is stored of a block. -/
theorem RuntimeChain.stored (rc : RuntimeChain cfg chain tree) (htree : chain.lineage.IsTree tree)
    {b : Hash} (hb : b ∈ tree) :
    ∃ block statuses, (rc.state b).currentBlock = some block ∧
      (rc.state b).currentTransactionStatuses = some statuses ∧
      BlockAligned cfg.hashing block ((rc.state b).pending.map fun entry => entry.2.2) statuses := by
  obtain ⟨block, receipts, statuses, hblock, hreceipts, hstatuses, hstored⟩ :=
    Reached.storedBlock (rc.reached htree b hb).1
  rw [(rc.records hb).receipts, Option.some.injEq] at hreceipts
  rw [← hreceipts] at hstored
  exact ⟨block, statuses, hblock, hstatuses, hstored.toBlockAligned⟩

/-- The logs that a query finds in a block are those that its receipts tell. -/
theorem RuntimeChain.logsBuild_eq (rc : RuntimeChain cfg chain tree)
    (htree : chain.lineage.IsTree tree) {b : Hash} (hb : b ∈ tree) (filter : Filter) :
    logsBuild cfg.hashing filter (blockAndStatuses (currentAllOf (rc.state b))) =
      some (executedLogs cfg filter (rc.state b)) := by
  obtain ⟨block, statuses, hblock, hstatuses, haligned⟩ := rc.stored htree hb
  unfold currentAllOf executedLogs
  rw [hblock, hstatuses]
  dsimp only [blockAndStatuses]
  rw [Rpc.logsBuild_eq haligned filter, List.map_map]
  rfl

/-! ## A range -/

theorem logsBuild_append (hashing : Hashing) (filter : Filter)
    (entries entries' : List (Block × List TransactionStatus)) :
    logsBuild hashing filter (entries ++ entries') =
      (logsBuild hashing filter entries).bind fun found =>
        (logsBuild hashing filter entries').map fun found' => found ++ found' := by
  rw [logsBuild_eq_flatMap, logsBuild_eq_flatMap, logsBuild_eq_flatMap, List.flatMap_append]
  rfl

/-- The visits to blocks of the branch find the logs of their receipts. -/
theorem foldlM_visitBlock_branch (rc : RuntimeChain cfg chain tree)
    (htree : chain.lineage.IsTree tree) {best : Hash} (hbest : best ∈ tree) {api : RuntimeApi}
    (hapi : api.ReadsBranch chain best rc.state) (filter : Filter) {numbers : List UInt32}
    {blocks : List Hash}
    (hblocks : List.Forall₂
      (fun n b => chain.lineage.OnBranch best b ∧ (chain.header b).number = n) numbers blocks) :
    ∃ entries, numbers.foldlM (visitBlock api) [] = .ok entries ∧
      logsBuild cfg.hashing filter entries =
        some (blocks.flatMap fun b => executedLogs cfg filter (rc.state b)) := by
  induction hblocks with
  | nil => exact ⟨[], rfl, rfl⟩
  | @cons n b numbers blocks hb _ ih =>
    obtain ⟨hbranch, rfl⟩ := hb
    obtain ⟨entries, hentries, hlogs⟩ := ih
    have hmem := htree.mem_of_onBranch hbest hbranch
    have hvisit : visitBlock api [] (chain.header b).number =
        .ok (blockAndStatuses (currentAllOf (rc.state b))) := by
      unfold visitBlock
      rw [hapi b hbranch]
      rfl
    rw [List.foldlM_cons, hvisit]
    show ∃ entries, List.foldlM _ _ _ = _ ∧ _
    rw [foldlM_visitBlock, hentries]
    refine ⟨_, rfl, ?_⟩
    rw [logsBuild_append, rc.logsBuild_eq htree hmem, hlogs]
    rfl

/-! ## Queries -/

/-- **Logs.** A query for a range visits one canonical block for every number in it, from the last one
down, and answers with the logs in the receipts of each that the filter matches, with their places. A
query by the hash of a canonical block that is synced answers with those of this block. -/
theorem logs_executed [DecidableEq Hash] {s : SyncState Hash} {best : Hash} {api : BlockApi Hash}
    {rc : RuntimeChain cfg chain s.tree} (h : ServesNode s best api rc) {runtimeApi : RuntimeApi}
    (hnumbers : runtimeApi.ReadsBranch chain best rc.state)
    {currentAllAt : Hash →
      Except String (Option Block × Option (List Receipt) × Option (List TransactionStatus))}
    (hhashes : ∀ b ∈ s.tree, currentAllAt b = .ok (currentAllOf (rc.state b))) (filter : Filter) :
    (filter.blockHash = none → ∃ blocks,
      List.Forall₂ (fun n b => chain.lineage.OnBranch best b ∧ (chain.header b).number = n)
        (descending (filter.lowest (chain.header best).number)
          (filter.highest (chain.header best).number)) blocks ∧
      api.toEthApi.logs cfg.hashing runtimeApi currentAllAt (chain.header best).number filter =
        some (.ok (blocks.flatMap fun b => executedLogs cfg filter (rc.state b)))) ∧
    ∀ b block, Synced s.db b → chain.lineage.OnBranch best b →
      (rc.state b).currentBlock = some block →
        filter.blockHash = some (cfg.hashing.headerHash block.header) →
          api.toEthApi.logs cfg.hashing runtimeApi currentAllAt (chain.header best).number filter =
            some (.ok (executedLogs cfg filter (rc.state b))) := by
  have htree := h.inv.tree
  constructor
  · intro hhash
    have hrange : ∀ n ∈ descending (filter.lowest (chain.header best).number)
        (filter.highest (chain.header best).number), n ≤ (chain.header best).number := by
      intro n hn
      rw [← currentNumber_toNat] at hn
      exact le_of_mem_descending (currentNumber_le filter _) hn
    obtain ⟨blocks, hblocks⟩ := exists_blocks htree h.best_mem hrange
    obtain ⟨entries, hentries, hlogs⟩ :=
      foldlM_visitBlock_branch rc htree h.best_mem hnumbers filter hblocks
    refine ⟨blocks, hblocks, ?_⟩
    unfold EthApi.logs queryRange
    rw [hhash]
    dsimp only
    rw [fetchRange_eq_foldlM, rangeFrom_toNat, currentNumber_toNat, hentries, Option.bind_some]
    dsimp only
    rw [hlogs]
    rfl
  · intro b block hsynced hbranch hblock hhash
    have hload : loadHash api.toEthApi.client api.toEthApi.backend
        (cfg.hashing.headerHash block.header) = .ok (some b) := h.loadHash_block hsynced hbranch hblock
    have hmem := h.mem_tree hsynced
    unfold EthApi.logs
    rw [hhash]
    dsimp only
    rw [hload]
    dsimp only
    rw [hhashes b hmem]
    dsimp only
    rw [rc.logsBuild_eq htree hmem]
    rfl

theorem lineRuntimeApi_reads : lineRuntimeApi.ReadsBranch lineChain 2 lineStates := by
  intro b _
  match b with
  | 0 => rfl
  | 1 => rfl
  | 2 => rfl

/-- All logs of the line. -/
theorem logs_executed_line :
    ∃ blocks, List.Forall₂
        (fun n b => lineChain.lineage.OnBranch 2 b ∧ (lineChain.header b).number = n)
        (descending 0 2) blocks ∧
      (lineNodeApi lineAllSynced.db).toEthApi.logs numberHashing lineRuntimeApi
          (fun b => .ok (currentAllOf (lineStates b))) 2
          { anyLog with fromBlock := some (.num 0) } =
        some (.ok (blocks.flatMap fun b => executedLogs countingConfig
          { anyLog with fromBlock := some (.num 0) } (lineStates b))) :=
  (logs_executed lineAllSynced_serves lineRuntimeApi_reads (fun _ _ => rfl)
    { anyLog with fromBlock := some (.num 0) }).1 rfl

end Shadows.Rpc
