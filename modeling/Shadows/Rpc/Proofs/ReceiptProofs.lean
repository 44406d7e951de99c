import Shadows.Rpc.Receipts
import Shadows.Ethereum.Proofs.AssemblyProofs
import Shadows.Rpc.Proofs.LogsProofs
import Mathlib.Algebra.Order.BigOperators.Group.List

/-!
# Proofs: receipts and logs

The log index in a receipt is the number of logs in the receipts before, which is where the counter
of a query stands when it comes to the transaction. A block has fewer than `2 ^ 32` transactions: the
runtime counts them in 32 bits, and so does the length prefix of their encoding.
-/

namespace Shadows.Rpc

open Db Ethereum Foundations

/-! ## Sums in 32 bits -/

/-- The sum of narrowed values is the narrowed sum. -/
theorem sum_ofNat {α : Type} (f : α → ℕ) (l : List α) :
    (l.map fun x => UInt32.ofNat (f x)).sum = UInt32.ofNat (l.map f).sum := by
  induction l with
  | nil => rfl
  | cons x l ih =>
    rw [List.map_cons, List.sum_cons, ih, ← UInt32.ofNat_add, List.map_cons, List.sum_cons]

theorem asU32_eq_some {a : U256} {n : UInt32} :
    a.asU32 = some n ↔ a.val < 2 ^ 32 ∧ n = .ofNat a.val := by
  unfold U256.asU32
  by_cases h : a.val < 2 ^ 32
  · rw [if_pos h, Option.some.injEq]
    exact ⟨fun hn => ⟨h, hn.symm⟩, fun hn => hn.2.symm⟩
  · rw [if_neg h]
    exact ⟨fun hn => (Option.some_ne_none n hn.symm).elim, fun hn => absurd hn.1 h⟩

/-- What one receipt has is at most what all of them have. -/
theorem le_sum_map {receipts : List Receipt} {receipt : Receipt} (f : Receipt → ℕ)
    (h : receipt ∈ receipts) : f receipt ≤ (receipts.map f).sum :=
  List.single_le_sum (fun _ _ => Nat.zero_le _) _ (List.mem_map_of_mem h)

/-- The narrowed values, unless one of them does not fit. -/
theorem mapM_asU32_eq_some {receipts : List Receipt} {narrowed : List UInt32} :
    receipts.mapM (fun r : Receipt => r.usedGas.asU32) = some narrowed ↔
      (∀ r ∈ receipts, r.usedGas.val < 2 ^ 32) ∧
        narrowed = receipts.map fun r => UInt32.ofNat r.usedGas.val := by
  rw [mapM_eq_some]
  simp only [asU32_eq_some, List.forall₂_and_left]
  refine and_congr_right fun _ => ?_
  rw [eq_comm, ← List.forall₂_eq_eq_eq, List.forall₂_map_left_iff]
  simp only [eq_comm]

/-- The sum has a result unless a value does not fit, and wraps around. -/
theorem cumulativeGas_eq_some {receipts : List Receipt} {gas : UInt32} :
    cumulativeGas receipts = some gas ↔
      (∀ r ∈ receipts, r.usedGas.val < 2 ^ 32) ∧ gas = .ofNat (gasOf receipts) := by
  unfold cumulativeGas
  rw [Option.map_eq_some_iff]
  constructor
  · rintro ⟨narrowed, hnarrowed, rfl⟩
    obtain ⟨hfits, rfl⟩ := mapM_asU32_eq_some.1 hnarrowed
    exact ⟨hfits, sum_ofNat ..⟩
  · rintro ⟨hfits, rfl⟩
    exact ⟨_, mapM_asU32_eq_some.2 ⟨hfits, rfl⟩, sum_ofNat ..⟩

/-- The cumulative gas is the sum exactly if the sum fits. -/
theorem cumulativeGas_exact_iff (receipts : List Receipt) :
    (∃ gas, cumulativeGas receipts = some gas ∧ gas.toNat = gasOf receipts) ↔
      gasOf receipts < 2 ^ 32 := by
  constructor
  · rintro ⟨gas, -, hgas⟩
    rw [← hgas]
    exact gas.toNat_lt
  · intro hlt
    have hfits : ∀ r ∈ receipts, r.usedGas.val < 2 ^ 32 :=
      fun r hr => lt_of_le_of_lt (le_sum_map (fun r => r.usedGas.val) hr) hlt
    refine ⟨_, cumulativeGas_eq_some.2 ⟨hfits, rfl⟩, ?_⟩
    rw [UInt32.toNat_ofNat']
    exact Nat.mod_eq_of_lt hlt

/-- Up to the receipt `i`, the logs before it are those of the first `i` receipts. -/
theorem preReceiptsLogIndex_take {receipts : List Receipt} {i : ℕ} (hi : i < receipts.length) :
    preReceiptsLogIndex (receipts.take (i + 1)) = some (.ofNat (logsOf (receipts.take i))) := by
  have hlength : (receipts.take (i + 1)).length = i + 1 := List.length_take_of_le hi
  unfold preReceiptsLogIndex
  rw [hlength, if_pos (Nat.succ_pos i), Nat.add_sub_cancel, List.take_take,
    Nat.min_eq_left (Nat.le_succ i), sum_ofNat]
  rfl

/-! ## Positions -/

theorem transactionPositions_logIndex {i : ℕ} (logs : List Shadows.Log) : ∀ k j,
    (transactionPositions i k j logs).map LogPosition.logIndex = List.range' k logs.length := by
  induction logs with
  | nil => exact fun k j => rfl
  | cons log logs ih =>
    intro k j
    rw [transactionPositions, List.map_cons, ih, List.length_cons, List.range'_succ]

/-- The logs of a block are numbered one after the other. -/
theorem positions_logIndex (logs : List (List Shadows.Log)) : ∀ i k,
    (positions i k logs).map LogPosition.logIndex =
      List.range' k (logs.map List.length).sum := by
  induction logs with
  | nil => exact fun i k => rfl
  | cons first rest ih =>
    intro i k
    rw [positions, List.map_append, transactionPositions_logIndex, ih, List.map_cons,
      List.sum_cons, List.range'_append_1]

/-- The position of the logs of transaction `i + m` does not depend on the logs after them: they
start with the number of logs before. -/
theorem positions_eq_flatMap (logs : List (List Shadows.Log)) : ∀ i k,
    positions i k logs = (List.range logs.length).flatMap fun m =>
      transactionPositions (i + m) (k + ((logs.take m).map List.length).sum) 0
        (logs[m]?.getD []) := by
  induction logs with
  | nil => exact fun i k => rfl
  | cons first rest ih =>
    intro i k
    rw [positions, ih, List.length_cons, List.range_succ_eq_map, List.flatMap_cons,
      List.flatMap_map]
    have hhead : transactionPositions (i + 0)
        (k + (((first :: rest).take 0).map List.length).sum) 0 ((first :: rest)[0]?.getD []) =
          transactionPositions i k 0 first := rfl
    have hrest : ∀ m, transactionPositions (i + (m + 1))
        (k + (((first :: rest).take (m + 1)).map List.length).sum) 0
          ((first :: rest)[m + 1]?.getD []) =
        transactionPositions (i + 1 + m)
          (k + first.length + ((rest.take m).map List.length).sum) 0 (rest[m]?.getD []) := by
      intro m
      rw [List.take_succ_cons, List.map_cons, List.sum_cons, List.getElem?_cons_succ,
        Nat.add_comm m 1, Nat.add_assoc, Nat.add_assoc]
    rw [hhead]
    congr 1
    exact (List.flatMap_congr fun m _ => hrest m).symm

/-- Without an address and topics, a filter accepts every log. -/
theorem acceptedPositions_anyLog (ps : List LogPosition) : acceptedPositions anyLog ps = ps := by
  refine List.filter_eq_self.2 fun position _ => decide_eq_true ?_
  exact ⟨FilteredParams.filterAddress_none rfl _, FilteredParams.filterTopics_none rfl _⟩

/-! ## One receipt -/

section Aligned

variable {hashing : Hashing} {block : Block} {statuses : List TransactionStatus}
  {receipts : List Receipt}

/-- The logs of a receipt, the first of which has the number `k + j` in the block, are where a query
finds them. -/
theorem mapIdx_receiptLog {status : TransactionStatus} {i k : ℕ}
    (hindex : status.transactionIndex = .ofNat i)
    (hhash : block.transactions[i]?.map hashing.transactionHash = some status.transactionHash)
    (logs : List Shadows.Log) : ∀ j, j + logs.length < 2 ^ 32 →
      logs.mapIdx (fun m => receiptLog hashing block status (some (.ofNat k)) (j + m)) =
        (transactionPositions i (k + j) j logs).map fun position =>
          position.placed hashing block (.ofNat position.transactionIndex) := by
  induction logs with
  | nil => exact fun j _ => rfl
  | cons log logs ih =>
    intro j hj
    rw [List.length_cons] at hj
    have htransactionLogIndex : U256.ofU64 (.ofNat j) = U256.ofU32 (.ofNat j) := by
      apply Fin.ext
      show (UInt64.ofNat j).toNat = (UInt32.ofNat j).toNat
      rw [UInt64.toNat_ofNat', UInt32.toNat_ofNat']
      omega
    have hfirst : receiptLog hashing block status (some (.ofNat k)) (j + 0) log =
        LogPosition.placed hashing block (.ofNat i) ⟨i, k + j, j, log⟩ := by
      unfold receiptLog LogPosition.placed Log.unplaced
      dsimp only
      rw [Nat.add_zero, hindex, hhash, htransactionLogIndex, Option.getD_some, UInt32.ofNat_add]
    have hrest : (fun m => receiptLog hashing block status (some (.ofNat k)) (j + (m + 1))) =
        fun m => receiptLog hashing block status (some (.ofNat k)) (j + 1 + m) := by
      funext m
      rw [Nat.add_comm m 1, Nat.add_assoc]
    rw [List.mapIdx_cons, hfirst, hrest, ih (j + 1) (by omega), transactionPositions, List.map_cons]
    rfl

/-- The answer for the transaction `i`: its gas is summed up to it, and its logs are those that a
query finds in it. -/
theorem receiptBuild_eq (h : BlockAligned hashing block receipts statuses)
    (hcount : block.transactions.length < 2 ^ 32) {i : ℕ} (hi : i < block.transactions.length) :
    ∃ answer : UInt32 → TransactionReceipt,
      receiptBuild hashing block statuses receipts i =
        (cumulativeGas (receipts.take (i + 1))).map answer ∧
      (∀ gas, (answer gas).cumulativeGasUsed = .ofU32 gas) ∧
      (logsOf receipts < 2 ^ 32 → ∀ gas, (answer gas).logs =
        (transactionPositions i (logsOf (receipts.take i)) 0
          ((receipts.map Receipt.logs)[i]?.getD [])).map fun position =>
            position.placed hashing block (.ofNat position.transactionIndex)) := by
  have hreceipts : i < receipts.length := h.receipts_length.symm ▸ hi
  have hreceipt := List.getElem?_eq_getElem hreceipts
  have hstatus := List.getElem?_eq_getElem (h.statuses_length.symm ▸ hi)
  obtain ⟨hindex, hhash⟩ := h.status hstatus
  have hupto : (UInt32.ofNat i + 1).toNat = i + 1 := by
    rw [UInt32.toNat_add, UInt32.toNat_ofNat']
    show (i % 2 ^ 32 + 1) % 2 ^ 32 = i + 1
    omega
  unfold receiptBuild
  rw [hreceipt, hstatus]
  dsimp only [Option.bind_some]
  rw [hindex, hupto, preReceiptsLogIndex_take hreceipts]
  refine ⟨_, rfl, fun gas => rfl, fun hlogs gas => ?_⟩
  have hfits : receipts[i].logs.length ≤ logsOf receipts :=
    le_sum_map (fun r => r.logs.length) (List.getElem_mem hreceipts)
  have hplaced := mapIdx_receiptLog (k := logsOf (receipts.take i)) hindex hhash receipts[i].logs 0
    (by omega)
  simp only [Nat.zero_add, Nat.add_zero] at hplaced
  rw [List.getElem?_map, hreceipt]
  exact hplaced

end Aligned

/-! ## Stored blocks -/

/-- Every block of a run is stored with its receipts and statuses. -/
theorem Reached.storedBlock {W : Type} {cfg : Config W} {st : State W} (h : Reached cfg st) :
    ∃ block receipts statuses, st.currentBlock = some block ∧ st.currentReceipts = some receipts ∧
      st.currentTransactionStatuses = some statuses ∧
      StoredBlock cfg.hashing block receipts statuses := by
  cases h with
  | genesis world timestamp _ hstore =>
    obtain ⟨gasUsed, hgas, hblock, hreceipts, hstatuses, -⟩ := storeBlock_spec hstore
    refine ⟨_, _, _, hblock, hreceipts, hstatuses, ⟨rfl, rfl, ?_⟩, ?_⟩
    · exact fun i transaction status receipt htransaction => nomatch htransaction
    · exact totalGas_eq hgas
  | block before _ input accepted hbefore hdigest hrun =>
    obtain ⟨mid, hbody, hfin⟩ := runBlock_cases hrun
    obtain ⟨-, -, hcurrent, hmap, hal⟩ := runBody_spec hdigest hbody
    obtain ⟨parent, hparent⟩ := hbefore.currentBlock
    obtain ⟨block, receipts, statuses, hassembled⟩ :=
      assembled_of_finalize (hcurrent.trans hparent) hmap hal hfin
    exact ⟨block, receipts, statuses, hassembled.currentBlock, hassembled.currentReceipts,
      hassembled.currentTransactionStatuses, blockAligned_of_assembled hassembled,
      hassembled.gasUsed⟩

/-! ## The lookup -/

section Lookup

variable {Hash : Type} {api : EthApi Hash} {hashing : Hashing} {id : Hash} {block : Block}
  {statuses : List TransactionStatus} {receipts : List Receipt}

theorem EthApi.receiptAt_eq (h : api.Reads id block statuses receipts) (index : ℕ) :
    api.receiptAt hashing id index =
      (receiptBuild hashing block statuses receipts index).map some := by
  unfold EthApi.receiptAt
  rw [h.currentBlock, h.currentTransactionStatuses, h.currentReceipts]

theorem EthApi.transactionReceipt_eq [DecidableEq Hash] {hash : H256} {index : UInt32}
    (h : locateTransaction api.client api.backend hash = .ok (some (id, index))) :
    api.transactionReceipt hashing hash = (api.receiptAt hashing id index.toNat).map .ok := by
  unfold EthApi.transactionReceipt
  rw [h]

/-- If the sums fit, there is a receipt for every transaction, with the logs that a query finds in
it. -/
theorem EthApi.receiptAt_logs (hreads : api.Reads id block statuses receipts)
    (haligned : BlockAligned hashing block receipts statuses)
    (hcount : block.transactions.length < 2 ^ 32) (hlogs : logsOf receipts < 2 ^ 32)
    (hgas : gasOf receipts < 2 ^ 32) {i : ℕ} (hi : i < block.transactions.length) :
    ∃ receipt, api.receiptAt hashing id i = some (some receipt) ∧
      receipt.logs = (transactionPositions i (logsOf (receipts.take i)) 0
        ((receipts.map Receipt.logs)[i]?.getD [])).map fun position =>
          position.placed hashing block (.ofNat position.transactionIndex) := by
  obtain ⟨answer, hbuild, -, hanswer⟩ := receiptBuild_eq haligned hcount hi
  have hfits : ∀ r ∈ receipts.take (i + 1), r.usedGas.val < 2 ^ 32 := fun r hr =>
    lt_of_le_of_lt (le_sum_map (fun r => r.usedGas.val) (List.mem_of_mem_take hr)) hgas
  rw [receiptAt_eq hreads, hbuild, cumulativeGas_eq_some.2 ⟨hfits, rfl⟩]
  exact ⟨_, rfl, hanswer hlogs _⟩

/-- The logs of the receipts, one after the other, are the logs at the positions in the block. -/
theorem flatMap_receiptLogs (hreads : api.Reads id block statuses receipts)
    (haligned : BlockAligned hashing block receipts statuses)
    (hcount : block.transactions.length < 2 ^ 32) (hlogs : logsOf receipts < 2 ^ 32)
    (hgas : gasOf receipts < 2 ^ 32) :
    ∃ built : List TransactionReceipt, built.length = block.transactions.length ∧
      (∀ i < block.transactions.length, api.receiptAt hashing id i = some built[i]?) ∧
      built.flatMap TransactionReceipt.logs =
        (positions 0 0 (receipts.map Receipt.logs)).map fun position =>
          position.placed hashing block (.ofNat position.transactionIndex) := by
  choose! receipt hat hreceiptLogs using fun i (hi : i < block.transactions.length) =>
    EthApi.receiptAt_logs hreads haligned hcount hlogs hgas hi
  refine ⟨(List.range block.transactions.length).map receipt, ?_, fun i hi => ?_, ?_⟩
  · rw [List.length_map, List.length_range]
  · rw [hat i hi, List.getElem?_map, List.getElem?_range hi, Option.map_some]
  · rw [positions_eq_flatMap, List.length_map, haligned.receipts_length, List.map_flatMap,
      List.flatMap_map]
    refine List.flatMap_congr fun i hi => ?_
    rw [hreceiptLogs i (List.mem_range.1 hi), ← List.map_take, List.map_map, Nat.zero_add,
      Nat.zero_add]
    rfl

end Lookup

/-- **Receipts and queries.** The logs of the receipts of a block, transaction by transaction, are
what a query without a filter answers for the block, and are numbered from `0` on. Whatever the
filter, a query answers with some of them in this order. -/
theorem receipts_agree_logs {Hash : Type} [DecidableEq Hash] {api : EthApi Hash} {hashing : Hashing}
    {id : Hash} {block : Block} {statuses : List TransactionStatus} {receipts : List Receipt}
    (hreads : api.Reads id block statuses receipts)
    (haligned : BlockAligned hashing block receipts statuses)
    (hcount : block.transactions.length < 2 ^ 32) (hlogs : logsOf receipts < 2 ^ 32)
    (hgas : gasOf receipts < 2 ^ 32) :
    ∃ built : List TransactionReceipt, built.length = block.transactions.length ∧
      (∀ i < block.transactions.length, api.receiptAt hashing id i = some built[i]?) ∧
      (∀ hash index, locateTransaction api.client api.backend hash = .ok (some (id, index)) →
        index.toNat < block.transactions.length →
          api.transactionReceipt hashing hash = some (.ok built[index.toNat]?)) ∧
      logsBuild hashing anyLog [(block, statuses)] =
        some (built.flatMap TransactionReceipt.logs) ∧
      (built.flatMap TransactionReceipt.logs).map Log.logIndex =
        (List.range (logsOf receipts)).map (fun k => some (.ofU32 (.ofNat k))) ∧
      ∀ filter, ∃ found, logsBuild hashing filter [(block, statuses)] = some found ∧
        found.Sublist (built.flatMap TransactionReceipt.logs) := by
  obtain ⟨built, hlength, hat, hbuilt⟩ :=
    flatMap_receiptLogs hreads haligned hcount hlogs hgas
  refine ⟨built, hlength, hat, ?_, ?_, ?_, ?_⟩
  · intro hash index hlocated hindex
    rw [EthApi.transactionReceipt_eq hlocated, hat _ hindex]
    rfl
  · rw [logsBuild_eq haligned, acceptedPositions_anyLog, hbuilt]
  · have hnumbers := positions_logIndex (receipts.map Receipt.logs) 0 0
    rw [List.map_map] at hnumbers
    have hnumbers' : (positions 0 0 (receipts.map Receipt.logs)).map LogPosition.logIndex =
        List.range (logsOf receipts) := hnumbers.trans List.range_eq_range'.symm
    rw [hbuilt, List.map_map, ← hnumbers', List.map_map]
    rfl
  · intro filter
    rw [logsBuild_eq haligned, hbuilt]
    exact ⟨_, rfl, List.filter_sublist.map _⟩

theorem soleBlockApi_reads {W : Type} (hashing : Hashing) {st : State W} {block : Block}
    {statuses : List TransactionStatus} {receipts : List Receipt}
    (hblock : st.currentBlock = some block)
    (hstatuses : st.currentTransactionStatuses = some statuses)
    (hreceipts : st.currentReceipts = some receipts) :
    (soleBlockApi hashing st).Reads () block statuses receipts :=
  ⟨hblock, hstatuses, hreceipts⟩

theorem threeCallsState_reached : Reached countingConfig threeCallsState :=
  .block countingGenesis _ threeCalls _ countingGenesis_reached (fun _ => nofun) rfl

theorem receipts_agree_logs_threeCalls :
    ∃ block statuses receipts, threeCallsState.currentBlock = some block ∧
      ∃ built : List TransactionReceipt, built.length = block.transactions.length ∧
        (∀ i < block.transactions.length,
          (soleBlockApi numberHashing threeCallsState).receiptAt numberHashing () i =
            some built[i]?) ∧
        (∀ hash index, locateTransaction (soleBlockApi numberHashing threeCallsState).client
            (soleBlockApi numberHashing threeCallsState).backend hash = .ok (some ((), index)) →
          index.toNat < block.transactions.length →
            (soleBlockApi numberHashing threeCallsState).transactionReceipt numberHashing hash =
              some (.ok built[index.toNat]?)) ∧
        logsBuild numberHashing anyLog [(block, statuses)] =
          some (built.flatMap TransactionReceipt.logs) ∧
        (built.flatMap TransactionReceipt.logs).map Log.logIndex =
          (List.range (logsOf receipts)).map (fun k => some (.ofU32 (.ofNat k))) ∧
        ∀ filter, ∃ found, logsBuild numberHashing filter [(block, statuses)] = some found ∧
          found.Sublist (built.flatMap TransactionReceipt.logs) := by
  obtain ⟨block, receipts, statuses, hblock, hreceipts, hstatuses, hstored⟩ :=
    Reached.storedBlock threeCallsState_reached
  have hblock' : block.transactions = [callWithNonce 0, callWithNonce 1] := by
    rw [← Option.some.inj hblock]
    rfl
  refine ⟨block, statuses, receipts, hblock, receipts_agree_logs
    (soleBlockApi_reads numberHashing hblock hstatuses hreceipts) hstored.toBlockAligned ?_ ?_ ?_⟩
  · rw [hblock']
    decide
  · rw [← Option.some.inj hreceipts]
    decide
  · rw [← Option.some.inj hreceipts]
    decide

end Shadows.Rpc
