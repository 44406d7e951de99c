import Shadows.Rpc.ChainQueries
import Shadows.Rpc.Proofs.TransactionByHashProofs

/-!
# Proofs: what a receipt tells

From the execution of a transaction to its receipt: the runner returns an outcome, an event announces it, the
receipt of the block keeps its exit reason as a state root, the mapping leads to the block, and the receipt
that clients get has it as its status code.
-/

namespace Shadows.Rpc

open Db MappingSync Consensus Ethereum Foundations

variable {Hash W : Type} {cfg : Config W} {chain : Chain Hash}

/-! ## Reading through both APIs -/

/-- The API by hashes has the handlers of the API by ids. -/
theorem toEthApi_reads {api : BlockApi Hash} {tree : Finset Hash} {state : Hash → State W}
    (h : api.ReadsStates tree state) {b : Hash} (hb : b ∈ tree) {block : Block}
    {statuses : List TransactionStatus} {receipts : List Receipt}
    (hblock : (state b).currentBlock = some block)
    (hstatuses : (state b).currentTransactionStatuses = some statuses)
    (hreceipts : (state b).currentReceipts = some receipts) :
    api.toEthApi.Reads b block statuses receipts := by
  have hhandler : api.toEthApi.handler b = ⟨fun b' => (api.handler (.hash b)).currentBlock (.hash b'),
      fun b' => (api.handler (.hash b)).currentReceipts (.hash b'),
      fun b' => (api.handler (.hash b)).currentTransactionStatuses (.hash b')⟩ := by
    unfold EthApi.handler BlockApi.handler BlockApi.toEthApi
    dsimp only
    cases api.overrides (api.onchainStorageSchema (.hash b)) <;> rfl
  refine ⟨?_, ?_, ?_⟩
  · rw [hhandler]
    exact (h.currentBlock b hb).trans hblock
  · rw [hhandler]
    exact (h.currentTransactionStatuses b hb).trans hstatuses
  · rw [hhandler]
    exact (h.currentReceipts b hb).trans hreceipts

/-- The status code is the state root that `do_transact` has put into the receipt. -/
theorem toLowU64Be_ite (reason : ExitReason) :
    (if reason = .succeed then 1 else 0 : H256).toLowU64Be = if reason = .succeed then 1 else 0 := by
  by_cases hreason : reason = .succeed
  · rw [if_pos hreason, if_pos hreason]
    rfl
  · rw [if_neg hreason, if_neg hreason]
    rfl

/-- The logs of an answer are those of the receipt, with their places. -/
theorem map_receiptLog (hashing : Hashing) (block : Block) (status : TransactionStatus)
    (before : Option UInt32) (logs : List Shadows.Log) :
    (logs.mapIdx (receiptLog hashing block status before)).map
      (fun log => Shadows.Log.mk log.address log.topics log.data) = logs := by
  refine List.ext_getElem? fun j => ?_
  rw [List.getElem?_map, List.getElem?_mapIdx]
  cases logs[j]? with
  | none => rfl
  | some log => rfl

/-- The receipt of an entry of `Pending`, from its records. -/
theorem receiptBuild_tells {block : Block} {pending : List (Transaction × TransactionStatus × Receipt)}
    {i : ℕ} {transaction : Transaction} {status : TransactionStatus} {receipt : Receipt}
    {event : Ethereum.Event} {source : H160} {outcome : Outcome}
    (hentry : pending[i]? = some (transaction, status, receipt)) (hlt : i + 1 < 2 ^ 32)
    (hindex : status.transactionIndex = .ofNat i)
    (hrecorded : Recorded cfg source outcome (transaction, status, receipt) event)
    (hgas : gasOf ((pending.map fun entry => entry.2.2).take (i + 1)) < 2 ^ 32) :
    ∃ answer, receiptBuild cfg.hashing block (pending.map fun entry => entry.2.1)
        (pending.map fun entry => entry.2.2) i = some answer ∧
      ReceiptTells cfg block (pending.map fun entry => entry.2.2) i transaction source outcome
        answer := by
  have hreceipt : (pending.map fun entry => entry.2.2)[i]? = some receipt := by
    rw [List.getElem?_map, hentry]
    rfl
  have hstatus : (pending.map fun entry => entry.2.1)[i]? = some status := by
    rw [List.getElem?_map, hentry]
    rfl
  have hupto : (status.transactionIndex + 1).toNat = i + 1 := by
    have hone : (1 : UInt32).toNat = 1 := rfl
    have hlt' : i < 2 ^ 32 := by omega
    rw [hindex, UInt32.toNat_add, UInt32.toNat_ofNat', hone, Nat.mod_eq_of_lt hlt']
    exact Nat.mod_eq_of_lt hlt
  obtain ⟨gas, hcumulative, hgas'⟩ := (cumulativeGas_exact_iff _).2 hgas
  unfold receiptBuild
  rw [hreceipt, Option.bind_some, hstatus, Option.bind_some]
  dsimp only
  rw [hupto, hcumulative, Option.map_some]
  refine ⟨_, rfl, ?_⟩
  exact {
    transactionHash := congrArg some hrecorded.transactionHash
    transactionIndex := congrArg (fun index => some (U256.ofU32 index)) hindex
    blockHash := rfl
    blockNumber := rfl
    signer := congrArg some hrecorded.signer
    target := hrecorded.target
    created := hrecorded.created
    gasUsed := congrArg some hrecorded.usedGas
    cumulativeGasUsed := hgas'
    logs := (map_receiptLog _ _ _ _ _).trans hrecorded.logs
    statusCode := by
      rw [← toLowU64Be_ite, ← hrecorded.stateRoot] }

/-- **Receipts.** A transaction that the runtime has accepted in a canonical block, and that no other synced
block contains, has been executed by the runner when the block was made, and has a receipt as soon as the
block is synced. The receipt tells what the runner has returned for it then, as the event of the execution
does, if the gas used up to it fits into 32 bits. -/
theorem receipt_found [DecidableEq Hash] {s : SyncState Hash} {best : Hash} {api : BlockApi Hash}
    {rc : RuntimeChain cfg chain s.tree} (h : ServesNode s best api rc) {b : Hash} {i : ℕ}
    {transaction : Transaction} (hi : (rc.accepted b)[i]? = some transaction)
    (hb : OnlyIn cfg.hashing s.db rc.accepted (cfg.hashing.transactionHash transaction) b)
    (hbranch : chain.lineage.OnBranch best b) :
    ∃ block receipts source before outcome after, (rc.state b).currentBlock = some block ∧
      (rc.state b).currentReceipts = some receipts ∧
      rc.Executes b i transaction source before outcome after ∧
      (rc.state b).events[i]? = some (.executed source (outcome.created.getD 0)
        (cfg.hashing.transactionHash transaction) outcome.exitReason) ∧
      (gasOf (receipts.take (i + 1)) < 2 ^ 32 → ∃ answer,
        api.toEthApi.transactionReceipt cfg.hashing (cfg.hashing.transactionHash transaction) =
          some (.ok (some answer)) ∧
        ReceiptTells cfg block receipts i transaction source outcome answer) := by
  have htree := h.mem_tree hb.synced
  have hrecords := rc.records htree
  obtain ⟨block, hblock, -⟩ := rc.exists_block htree
  obtain ⟨status, receipt, event, source, before, outcome, after, hentry, hindex, hevent, hexecutes,
    hrecorded⟩ := rc.exists_entry htree hi
  have hlt : i + 1 < 2 ^ 32 :=
    lt_of_le_of_lt (List.getElem?_eq_some_iff.1 hi).1 (h.count b htree)
  have hexecuted : event = .executed source (outcome.created.getD 0)
    (cfg.hashing.transactionHash transaction) outcome.exitReason := hrecorded.executed
  rw [hexecuted] at hevent
  refine ⟨block, _, source, before, outcome, after, hblock, hrecords.receipts, hexecutes, hevent,
    fun hgas => ?_⟩
  have hlocated : locateTransaction api.toEthApi.client api.toEthApi.backend
      (cfg.hashing.transactionHash transaction) = .ok (some (b, .ofNat i)) :=
    locateTransaction_eq_some_iff.2
      ⟨_, h.loadTransactions_some hb hi rfl, h.loadHash_onBranch hb hbranch⟩
  have hposition : (UInt32.ofNat i).toNat = i := by
    rw [UInt32.toNat_ofNat']
    exact Nat.mod_eq_of_lt (by omega)
  obtain ⟨answer, hbuild, htells⟩ := receiptBuild_tells hentry hlt hindex hrecorded hgas
  refine ⟨answer, ?_, htells⟩
  rw [EthApi.transactionReceipt_eq hlocated, hposition,
    EthApi.receiptAt_eq (toEthApi_reads h.reads htree hblock hrecords.statuses hrecords.receipts),
    hbuild]
  rfl

theorem receipt_found_line : ∃ (answer : TransactionReceipt) (source : H160) (before after : ℕ)
    (outcome : Outcome),
    (lineRuntimeChain lineSynced.tree).Executes 2 0 (callWithNonce 7) source before outcome after ∧
      (lineNodeApi lineSynced.db).toEthApi.transactionReceipt numberHashing 7 =
        some (.ok (some answer)) ∧
      answer.blockNumber = some 2 ∧ answer.gasUsed = some outcome.usedGas ∧
      answer.statusCode = some (if outcome.exitReason = .succeed then 1 else 0) := by
  have honly : ∀ c : Fin 3, (7 : H256) ∈ ((lineRuntimeChain lineSynced.tree).accepted c).map
      countingConfig.hashing.transactionHash → c = 2 := by decide
  have hb : OnlyIn countingConfig.hashing lineSynced.db (lineRuntimeChain lineSynced.tree).accepted
      (countingConfig.hashing.transactionHash (callWithNonce 7)) 2 :=
    ⟨rfl, by decide, fun c _ hc => honly c hc⟩
  obtain ⟨block, receipts, source, before, outcome, after, hblock, hreceipts, hexecutes, -, hfound⟩ :=
    receipt_found (i := 0) lineSynced_serves rfl hb (lineChain_onBranch 2)
  have hgas : gasOf (receipts.take 1) < 2 ^ 32 := by
    rw [← Option.some.inj hreceipts]
    decide
  obtain ⟨answer, hanswer, htells⟩ := hfound hgas
  have hnumber : block.header.number = 2 := by
    rw [← Option.some.inj hblock]
    rfl
  exact ⟨answer, source, before, after, outcome, hexecutes, hanswer,
    htells.blockNumber.trans (congrArg some hnumber), htells.gasUsed, htells.statusCode⟩

end Shadows.Rpc
