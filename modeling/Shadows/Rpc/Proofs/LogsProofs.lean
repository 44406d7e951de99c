import Shadows.Rpc.Logs
import Shadows.Foundations.Partial
import Mathlib.Data.List.Basic

/-!
# Proofs: the logs of a block

Both walks keep the accepted ones of the logs at their positions in the block; what they keep differs
in the transaction index alone.
-/

namespace Shadows.Rpc

open Ethereum

/-! ## Matching never panics -/

namespace FilteredParams

/-- No wildcard of a topic is beyond the topics of the log if the topic is not longer. -/
theorem replace_isSome {log : Log} {multi : List (Option H256)}
    (h : multi.length ≤ log.topics.length) : (replace log (.multiple multi)).isSome := by
  unfold replace
  rw [Option.isSome_map]
  apply Foundations.mapM_isSome
  intro x hx
  obtain ⟨k, hk, rfl⟩ := List.mem_mapIdx.1 hx
  have hlog : k < log.topics.length := lt_of_lt_of_le hk h
  rw [List.getElem?_eq_getElem hlog]
  cases multi[k] <;> rfl

theorem filterTopicsLoop_isSome (log : Log) (flatTopics : List FlatTopic) :
    ∀ out, (filterTopicsLoop log flatTopics out).isSome := by
  induction flatTopics with
  | nil => exact fun _ => rfl
  | cons topic rest ih =>
    intro out
    cases topic with
    | single value =>
      cases value with
      | none => exact ih out
      | some single => exact ih _
    | null => exact ih true
    | multiple multi =>
      unfold filterTopicsLoop
      dsimp only
      split_ifs with hlength
      · rfl
      · have hreplace : (replace log (.multiple (multi.rdropWhile Option.isNone))).isSome :=
          replace_isSome (not_lt.1 hlength)
        obtain ⟨replaced, hreplaced⟩ := Option.isSome_iff_exists.1 hreplace
        rw [hreplaced]
        cases replaced with
        | none => exact ih out
        | some replaced =>
          dsimp only
          split_ifs
          · rfl
          · exact ih false

theorem filterTopics_isSome (params : FilteredParams) (log : Log) :
    (params.filterTopics log).isSome :=
  filterTopicsLoop_isSome log params.flatTopics true

/-- A filter without addresses matches every address. -/
theorem filterAddress_none {filter : Filter} (h : filter.address = none) (log : Log) :
    (new (some filter)).filterAddress log = some true := by
  show (some filter).map _ = _
  rw [Option.map_some, h]

/-- A filter without topics matches all topics. -/
theorem filterTopics_none {filter : Filter} (h : filter.topics = none) (log : Log) :
    (new (some filter)).filterTopics log = some true := by
  unfold filterTopics new
  dsimp only
  rw [h]
  rfl

end FilteredParams

open FilteredParams

/-- The tests of address and topics, which are made also where the filter specifies nothing. -/
theorem andAlso_eq (filter : Filter) (ethereumLog : Shadows.Log) :
    andAlso ((new (some filter)).filterAddress (Log.unplaced ethereumLog))
        ((new (some filter)).filterTopics (Log.unplaced ethereumLog)) =
      some (decide (Accepts filter ethereumLog)) := by
  obtain ⟨topics, htopics⟩ := Option.isSome_iff_exists.1
    (filterTopics_isSome (new (some filter)) (Log.unplaced ethereumLog))
  cases haddress : (new (some filter)).filterAddress (Log.unplaced ethereumLog) with
  | none => exact absurd haddress (Option.some_ne_none _)
  | some address =>
    have haccepts : Accepts filter ethereumLog ↔ address = true ∧ topics = true := by
      unfold Accepts
      rw [haddress, htopics, Option.some.injEq, Option.some.injEq]
    rw [htopics, decide_eq_decide.2 haccepts]
    cases address <;> cases topics <;> rfl

theorem addToQuery_eq (filter : Filter) (ethereumLog : Shadows.Log) :
    addToQuery filter (new (some filter)) (Log.unplaced ethereumLog) =
      some (decide (Accepts filter ethereumLog)) := by
  rw [← andAlso_eq]
  unfold addToQuery
  split
  · rfl
  · next htopics =>
    rw [filterTopics_none htopics]
    exact (andAlso_some_true _).symm
  · next haddress _ => rw [filterAddress_none haddress, andAlso_true]
  · next haddress htopics =>
    rw [filterAddress_none haddress, filterTopics_none htopics, andAlso_true]

/-- Without a block range and a block hash, a subscription adds what a query adds. -/
theorem addLog_eq {filter : Filter} (hfrom : filter.fromBlock = none) (hto : filter.toBlock = none)
    (hhash : filter.blockHash = none) (blockHash : H256) (block : Block) (ethereumLog : Shadows.Log) :
    addLog blockHash (Log.unplaced ethereumLog) block (new (some filter)) =
      some (decide (Accepts filter ethereumLog)) := by
  have hrange : (new (some filter)).filterBlockRange block.header.number.saturatedU64 =
      some true := by
    show (some filter).map _ = _
    rw [Option.map_some, hfrom, hto]
    rfl
  have hblock : (new (some filter)).filterBlockHash blockHash = some true := by
    show (some filter).map _ = _
    rw [Option.map_some, hhash]
  rw [← andAlso_eq]
  show andAlso _ (andAlso _ _) = _
  rw [hrange, hblock, andAlso_true, andAlso_true]

/-! ## The walks -/

theorem acceptedPositions_append (filter : Filter) (ps qs : List LogPosition) :
    acceptedPositions filter (ps ++ qs) =
      acceptedPositions filter ps ++ acceptedPositions filter qs :=
  List.filter_append ..

section Walk

variable {filter : Filter} {add : Log → Option Bool}

/-- The walk over the logs of one transaction, with the counters `k` and `j`. -/
theorem foldlM_logs (hadd : ∀ log, add (Log.unplaced log) = some (decide (Accepts filter log)))
    {place : LogWalk → Shadows.Log → Log} {f : LogPosition → Log} {i : ℕ}
    (logs : List Shadows.Log)
    (hplace : ∀ log ∈ logs, ∀ ret k j, place ⟨ret, .ofNat k, .ofNat j⟩ log = f ⟨i, k, j, log⟩) :
    ∀ ret k j,
    logs.foldlM (fun (walk : LogWalk) ethereumLog =>
      (add (Log.unplaced ethereumLog)).map fun add => walk.advance add (place walk ethereumLog))
      ⟨ret, .ofNat k, .ofNat j⟩ =
    some ⟨ret ++ (acceptedPositions filter (transactionPositions i k j logs)).map f,
      .ofNat (k + logs.length), .ofNat (j + logs.length)⟩ := by
  induction logs with
  | nil =>
    intro ret k j
    show some _ = some _
    rw [show acceptedPositions filter (transactionPositions i k j []) = [] from rfl, List.map_nil,
      List.append_nil]
    rfl
  | cons log logs ih =>
    intro ret k j
    have hstep : (add (Log.unplaced log)).map (fun add =>
        LogWalk.advance ⟨ret, .ofNat k, .ofNat j⟩ add (place ⟨ret, .ofNat k, .ofNat j⟩ log)) =
        some ⟨ret ++ (acceptedPositions filter [⟨i, k, j, log⟩]).map f, .ofNat (k + 1),
          .ofNat (j + 1)⟩ := by
      rw [hadd, hplace log (List.mem_cons_self ..), Option.map_some, UInt32.ofNat_add,
        UInt32.ofNat_add]
      unfold LogWalk.advance acceptedPositions
      by_cases haccepts : Accepts filter log
      · simp [haccepts]
      · simp [haccepts]
    have hcons : transactionPositions i k j (log :: logs) =
        [⟨i, k, j, log⟩] ++ transactionPositions i (k + 1) (j + 1) logs := rfl
    rw [List.foldlM_cons, hstep, hcons, acceptedPositions_append, List.map_append,
      ← List.append_assoc]
    show List.foldlM _ _ _ = _
    rw [ih fun log hlog => hplace log (List.mem_cons_of_mem _ hlog), List.length_cons,
      Nat.add_assoc, Nat.add_assoc, Nat.add_comm 1]

/-- The walk over the logs of transaction `i`. -/
theorem visitTransaction_eq
    (hadd : ∀ log, add (Log.unplaced log) = some (decide (Accepts filter log)))
    {place : LogWalk → Shadows.Log → Log} {f : LogPosition → Log} {i : ℕ}
    (logs : List Shadows.Log)
    (hplace : ∀ log ∈ logs, ∀ ret k j, place ⟨ret, .ofNat k, .ofNat j⟩ log = f ⟨i, k, j, log⟩)
    (ret : List Log) (k : ℕ) (j : UInt32) :
    LogWalk.visitTransaction ⟨ret, .ofNat k, j⟩ add place logs =
      some ⟨ret ++ (acceptedPositions filter (transactionPositions i k 0 logs)).map f,
        .ofNat (k + logs.length), .ofNat (0 + logs.length)⟩ :=
  foldlM_logs hadd logs hplace ret k 0

/-- A walk over a block that keeps of every transaction what `visitTransaction_eq` says. -/
theorem foldlM_transactions {α : Type} {step : LogWalk → α → Option LogWalk}
    {logsOf : α → List Shadows.Log} {f : LogPosition → Log} (entries : List α) : ∀ i k j ret,
    (∀ m entry, entries[m]? = some entry → ∀ ret k j, step ⟨ret, .ofNat k, j⟩ entry =
      some ⟨ret ++ (acceptedPositions filter
          (transactionPositions (i + m) k 0 (logsOf entry))).map f,
        .ofNat (k + (logsOf entry).length), .ofNat (0 + (logsOf entry).length)⟩) →
    (entries.foldlM step ⟨ret, .ofNat k, j⟩).map LogWalk.ret =
      some (ret ++ (acceptedPositions filter (positions i k (entries.map logsOf))).map f) := by
  induction entries with
  | nil =>
    intro i k j ret _
    show some ret = some (ret ++ [])
    rw [List.append_nil]
  | cons entry entries ih =>
    intro i k j ret hstep
    have hrest : ∀ m entry', entries[m]? = some entry' → ∀ ret k j,
        step ⟨ret, .ofNat k, j⟩ entry' =
          some ⟨ret ++ (acceptedPositions filter
              (transactionPositions (i + 1 + m) k 0 (logsOf entry'))).map f,
            .ofNat (k + (logsOf entry').length), .ofNat (0 + (logsOf entry').length)⟩ := by
      intro m entry' hm
      rw [Nat.add_assoc, Nat.add_comm 1]
      exact hstep (m + 1) entry' hm
    rw [List.foldlM_cons, hstep 0 entry rfl]
    show Option.map _ (List.foldlM _ _ _) = _
    rw [ih (i + 1) _ _ _ hrest, List.append_assoc, ← List.map_append, ← acceptedPositions_append]
    rfl

end Walk

theorem transactionPositions_index {i : ℕ} (logs : List Shadows.Log) : ∀ {k j position},
    position ∈ transactionPositions i k j logs → position.transactionIndex = i := by
  induction logs with
  | nil => exact fun h => absurd h List.not_mem_nil
  | cons log logs ih =>
    intro k j position h
    rcases List.mem_cons.1 h with rfl | hrest
    · rfl
    · exact ih hrest

/-- The logs of a list of transactions are each in one of them. -/
theorem positions_index (logs : List (List Shadows.Log)) : ∀ {i k position},
    position ∈ positions i k logs →
      i ≤ position.transactionIndex ∧ position.transactionIndex < i + logs.length := by
  induction logs with
  | nil => exact fun h => absurd h List.not_mem_nil
  | cons first rest ih =>
    intro i k position h
    rcases List.mem_append.1 h with hfirst | hrest
    · rw [transactionPositions_index first hfirst, List.length_cons]
      omega
    · obtain ⟨hlower, hupper⟩ := ih hrest
      rw [List.length_cons]
      omega

/-- `logs_build` adds the logs of a block to those of the blocks before. -/
theorem logsBuildBlock_eq (hashing : Hashing) (filter : Filter) (ret : List Log) (block : Block)
    (statuses : List TransactionStatus) :
    logsBuildBlock hashing filter (new (some filter)) ret block statuses =
      some (ret ++ blockLogs hashing filter block statuses) := by
  refine foldlM_transactions statuses 0 0 0 ret fun m status hm ret k j => ?_
  refine visitTransaction_eq (addToQuery_eq filter) status.logs (fun log _ ret k j => ?_) ret k j
  unfold queriedAt
  rw [Nat.zero_add, hm]
  rfl

theorem logsBuild_eq_flatMap (hashing : Hashing) (filter : Filter)
    (blocksAndStatuses : List (Block × List TransactionStatus)) :
    logsBuild hashing filter blocksAndStatuses =
      some (blocksAndStatuses.flatMap fun entry => blockLogs hashing filter entry.1 entry.2) := by
  have hfold : ∀ ret, blocksAndStatuses.foldlM (fun ret (entry : Block × List TransactionStatus) =>
      logsBuildBlock hashing filter (new (some filter)) ret entry.1 entry.2) ret =
      some (ret ++ blocksAndStatuses.flatMap fun entry =>
        blockLogs hashing filter entry.1 entry.2) := by
    induction blocksAndStatuses with
    | nil => exact fun ret => congrArg some (List.append_nil ret).symm
    | cons entry rest ih =>
      intro ret
      rw [List.foldlM_cons, logsBuildBlock_eq]
      show List.foldlM _ _ _ = _
      rw [ih, List.flatMap_cons, List.append_assoc]
  exact hfold []

/-- Every log that a query finds in a block carries its number. -/
theorem blockNumber_of_mem_blockLogs {hashing : Hashing} {filter : Filter} {block : Block}
    {statuses : List TransactionStatus} {log : Log}
    (h : log ∈ blockLogs hashing filter block statuses) :
    log.blockNumber = some block.header.number := by
  obtain ⟨position, hposition, rfl⟩ := List.mem_map.1 h
  obtain ⟨-, hlt⟩ := positions_index _ (List.mem_filter.1 hposition).1
  rw [List.length_map, Nat.zero_add] at hlt
  unfold queriedAt
  rw [List.getElem?_eq_getElem hlt]
  rfl

/-- The block that `store_block` leaves behind is aligned. -/
theorem blockAligned_of_assembled {W : Type} {cfg : Config W} {accepted : List Transaction}
    {parent block : Block} {st : State W} {receipts : List Receipt}
    {statuses : List TransactionStatus}
    (h : Assembled cfg accepted parent st block receipts statuses) :
    BlockAligned cfg.hashing block receipts statuses where
  receipts_length := by rw [h.transactions, h.receipts_length]
  statuses_length := by rw [h.transactions, h.statuses_length]
  aligned := by
    intro i transaction status receipt htransaction hstatus hreceipt
    rw [h.transactions] at htransaction
    obtain ⟨hindex, hhash, hlogs, -⟩ := h.aligned i _ _ _ htransaction hstatus hreceipt
    exact ⟨hindex, hhash, hlogs⟩

section Aligned

variable {hashing : Hashing} {block : Block} {receipts : List Receipt}
  {statuses : List TransactionStatus}

theorem BlockAligned.status (h : BlockAligned hashing block receipts statuses) {i : ℕ}
    {status : TransactionStatus} (hi : statuses[i]? = some status) :
    status.transactionIndex = .ofNat i ∧
      block.transactions[i]?.map hashing.transactionHash = some status.transactionHash := by
  obtain ⟨hlt, -⟩ := List.getElem?_eq_some_iff.1 hi
  rw [h.statuses_length] at hlt
  have htransaction := List.getElem?_eq_getElem hlt
  have hreceipt := List.getElem?_eq_getElem (h.receipts_length.symm ▸ hlt)
  obtain ⟨hindex, hhash, -⟩ := h.aligned i _ status _ htransaction hi hreceipt
  rw [htransaction, Option.map_some, hhash]
  exact ⟨hindex, rfl⟩

/-- The statuses and the receipts have the same logs. -/
theorem BlockAligned.logs (h : BlockAligned hashing block receipts statuses) :
    statuses.map TransactionStatus.logs = receipts.map Receipt.logs := by
  apply List.ext_getElem?
  intro i
  rw [List.getElem?_map, List.getElem?_map]
  by_cases hlt : i < block.transactions.length
  · have hstatus := List.getElem?_eq_getElem (h.statuses_length.symm ▸ hlt)
    have hreceipt := List.getElem?_eq_getElem (h.receipts_length.symm ▸ hlt)
    obtain ⟨-, -, hlogs⟩ := h.aligned i _ _ _ (List.getElem?_eq_getElem hlt) hstatus hreceipt
    rw [hstatus, hreceipt, Option.map_some, Option.map_some, hlogs]
  · rw [List.getElem?_eq_none (by rw [h.statuses_length]; omega),
      List.getElem?_eq_none (by rw [h.receipts_length]; omega)]
    rfl

/-- The transaction of every receipt is there, and its hash is known where it is needed. -/
theorem BlockAligned.receiptTransactionHash (h : BlockAligned hashing block receipts statuses)
    {i : ℕ} {receipt : Receipt} (hi : receipts[i]? = some receipt) :
    ∃ transactionHash, Rpc.receiptTransactionHash hashing block i receipt = some transactionHash ∧
      ∀ log ∈ receipt.logs,
        transactionHash = block.transactions[i]?.map hashing.transactionHash := by
  obtain ⟨hlt, -⟩ := List.getElem?_eq_some_iff.1 hi
  rw [h.receipts_length] at hlt
  unfold Rpc.receiptTransactionHash
  rw [List.getElem?_eq_getElem hlt]
  split_ifs with hlogs
  · exact ⟨_, rfl, fun _ _ => rfl⟩
  · refine ⟨none, rfl, fun log hlog => ?_⟩
    exact absurd (List.length_pos_of_mem hlog) hlogs

/-- A query answers with the accepted logs, each with the index of its transaction. -/
theorem logsBuild_eq (h : BlockAligned hashing block receipts statuses) (filter : Filter) :
    logsBuild hashing filter [(block, statuses)] =
      some ((acceptedPositions filter (positions 0 0 (receipts.map Receipt.logs))).map fun position =>
        position.placed hashing block (.ofNat position.transactionIndex)) := by
  rw [logsBuild_eq_flatMap, List.flatMap_singleton]
  unfold blockLogs
  rw [h.logs]
  refine congrArg some (List.map_congr_left fun position hposition => ?_)
  obtain ⟨-, hlt⟩ := positions_index _ (List.mem_filter.1 hposition).1
  rw [List.length_map, Nat.zero_add, h.receipts_length, ← h.statuses_length] at hlt
  have hstatus := List.getElem?_eq_getElem hlt
  obtain ⟨hindex, hhash⟩ := h.status hstatus
  unfold queriedAt queriedLog LogPosition.placed
  rw [hstatus, hhash]
  dsimp only
  rw [hindex]

/-- A subscription pushes the accepted logs, each with its number in the block for the index of its
transaction. -/
theorem subscriptionLogs_eq (h : BlockAligned hashing block receipts statuses) {filter : Filter}
    (hfrom : filter.fromBlock = none) (hto : filter.toBlock = none)
    (hhash : filter.blockHash = none) :
    subscriptionLogs hashing block receipts (new (some filter)) =
      some ((acceptedPositions filter (positions 0 0 (receipts.map Receipt.logs))).map fun position =>
        position.placed hashing block (.ofNat position.logIndex)) := by
  have hlogs : receipts.map Receipt.logs = receipts.zipIdx.map fun entry => entry.1.logs := by
    conv_lhs => rw [← List.zipIdx_map_fst 0 receipts, List.map_map]
    rfl
  rw [hlogs]
  refine foldlM_transactions receipts.zipIdx 0 0 0 [] fun m entry hm ret k j => ?_
  rw [List.getElem?_zipIdx, Option.map_eq_some_iff] at hm
  obtain ⟨receipt, hreceipt, rfl⟩ := hm
  rw [Nat.zero_add]
  obtain ⟨transactionHash, hsome, hknown⟩ := h.receiptTransactionHash hreceipt
  rw [hsome, Option.bind_some]
  refine visitTransaction_eq (addLog_eq hfrom hto hhash _ block) receipt.logs
    (fun log hlog ret k j => ?_) ret k j
  unfold pushedLog LogPosition.placed
  rw [hknown log hlog]

end Aligned

/-- **Subscription and query.** What a subscription pushes for a block is what a query answers for
it exactly if every accepted log has, in the block, the number that its transaction has. -/
theorem subscription_agrees_iff {hashing : Hashing} {block : Block} {receipts : List Receipt}
    {statuses : List TransactionStatus} (h : BlockAligned hashing block receipts statuses)
    {filter : Filter} (hfrom : filter.fromBlock = none) (hto : filter.toBlock = none)
    (hhash : filter.blockHash = none) :
    ∃ pushed returned,
      subscriptionLogs hashing block receipts (FilteredParams.new (some filter)) = some pushed ∧
      logsBuild hashing filter [(block, statuses)] = some returned ∧
      (pushed = returned ↔ ∀ position ∈ positions 0 0 (receipts.map Receipt.logs),
        Accepts filter position.log →
          UInt32.ofNat position.logIndex = UInt32.ofNat position.transactionIndex) := by
  refine ⟨_, _, subscriptionLogs_eq h hfrom hto hhash, logsBuild_eq h filter, ?_⟩
  rw [List.map_inj_left]
  constructor
  · intro hsame position hposition haccepts
    have hplaced := hsame position
      (List.mem_filter.2 ⟨hposition, decide_eq_true haccepts⟩)
    have hindex := congrArg Log.transactionIndex hplaced
    exact U256.ofU32_injective (Option.some.inj hindex)
  · intro hsame position hposition
    obtain ⟨hmem, haccepts⟩ := List.mem_filter.1 hposition
    rw [hsame position hmem (of_decide_eq_true haccepts)]

theorem twoLogs_aligned :
    BlockAligned numberHashing twoLogsBlock [twoLogsReceipt] [twoLogsStatus] where
  receipts_length := rfl
  statuses_length := rfl
  aligned := by
    intro i transaction status receipt htransaction hstatus hreceipt
    cases i with
    | zero =>
      obtain rfl := Option.some.inj htransaction
      obtain rfl := Option.some.inj hstatus
      obtain rfl := Option.some.inj hreceipt
      exact ⟨rfl, rfl, rfl⟩
    | succ i => exact absurd htransaction (by simp [twoLogsBlock])

theorem subscription_agrees_iff_twoLogs :
    ∃ pushed returned,
      subscriptionLogs numberHashing twoLogsBlock [twoLogsReceipt]
        (FilteredParams.new (some anyLog)) = some pushed ∧
      logsBuild numberHashing anyLog [(twoLogsBlock, [twoLogsStatus])] = some returned ∧
      (pushed = returned ↔
        ∀ position ∈ positions 0 0 ([twoLogsReceipt].map Receipt.logs),
          Accepts anyLog position.log →
            UInt32.ofNat position.logIndex = UInt32.ofNat position.transactionIndex) :=
  subscription_agrees_iff twoLogs_aligned rfl rfl rfl

/-- A query gives both logs of a transaction its index, a subscription the second one another. -/
theorem secondLog_disagrees :
    BlockAligned numberHashing twoLogsBlock [twoLogsReceipt] [twoLogsStatus] ∧
      subscriptionLogs numberHashing twoLogsBlock [twoLogsReceipt]
          (FilteredParams.new (some anyLog)) ≠
        logsBuild numberHashing anyLog [(twoLogsBlock, [twoLogsStatus])] :=
  ⟨twoLogs_aligned, by decide⟩

end Shadows.Rpc
