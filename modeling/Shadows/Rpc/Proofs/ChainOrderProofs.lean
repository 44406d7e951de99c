import Shadows.Rpc.Proofs.LogSelectionProofs
import Shadows.Rpc.Proofs.ReceiptProofs

/-!
# Proofs: the order of the logs of an answer

The loops visit the blocks from the last one down, so that no log of a block is before one of a block
that is visited earlier. An answer is in the order of the chain exactly if one block has all its logs.
-/

namespace Shadows.Rpc

open Foundations

/-! ## One block -/

section OneBlock

variable {hashing : Hashing} {filter : Filter} {block : Block}
  {statuses : List TransactionStatus}

/-- Logs of one block are before one another by their numbers. -/
theorem before_queriedAt {p q : LogPosition} (hp : p.transactionIndex < statuses.length)
    (hq : q.transactionIndex < statuses.length) :
    (queriedAt hashing block statuses p).Before (queriedAt hashing block statuses q) ↔
      UInt32.ofNat p.logIndex < UInt32.ofNat q.logIndex := by
  have hofU32 : ∀ i j : UInt32, U256.ofU32 i < U256.ofU32 j ↔ i < j := fun i j =>
    UInt32.lt_iff_toNat_lt.symm
  unfold queriedAt
  rw [List.getElem?_eq_getElem hp, List.getElem?_eq_getElem hq]
  dsimp only
  unfold queriedLog Log.Before
  simp [hofU32]

theorem inChainOrder_blockLogs (hashing : Hashing) (filter : Filter) (block : Block)
    (statuses : List TransactionStatus) :
    InChainOrder (blockLogs hashing filter block statuses) ↔ NumberedInOrder filter statuses := by
  unfold InChainOrder blockLogs NumberedInOrder
  rw [List.pairwise_map]
  have hindex : ∀ p ∈ acceptedPositions filter
      (positions 0 0 (statuses.map TransactionStatus.logs)), p.transactionIndex < statuses.length := by
    intro p hp
    obtain ⟨-, hlt⟩ := positions_index _ (List.mem_filter.1 hp).1
    rwa [List.length_map, Nat.zero_add] at hlt
  exact List.Pairwise.iff_of_mem fun hp hq => before_queriedAt (hindex _ hp) (hindex _ hq)

theorem inChainOrder_chainLogs (hashing : Hashing) (chain : GrowingChain) (filter : Filter)
    (n : UInt32) :
    InChainOrder (chainLogs hashing chain filter n) ↔
      (chain.blockAt n).NumberedInOrder filter := by
  unfold chainLogs ChainBlock.NumberedInOrder
  cases (chain.blockAt n).block with
  | none => exact iff_of_true List.Pairwise.nil fun _ h => nomatch h
  | some block =>
    cases (chain.blockAt n).statuses with
    | none => exact iff_of_true List.Pairwise.nil fun _ _ _ h => nomatch h
    | some statuses =>
      rw [inChainOrder_blockLogs]
      constructor
      · rintro h _ - _ ⟨⟩
        exact h
      · exact fun h => h block rfl statuses rfl

/-- With at most `2 ^ 32` logs in the block, their numbers ascend. -/
theorem numberedInOrder_of_le (filter : Filter) {statuses : List TransactionStatus}
    (h : ((statuses.map TransactionStatus.logs).map List.length).sum ≤ 2 ^ 32) :
    NumberedInOrder filter statuses := by
  have hnumbers := positions_logIndex (statuses.map TransactionStatus.logs) 0 0
  have hascend : (positions 0 0 (statuses.map TransactionStatus.logs)).Pairwise
      fun p q => p.logIndex < q.logIndex := by
    rw [← List.pairwise_map (f := LogPosition.logIndex) (R := (· < ·)), hnumbers]
    exact List.pairwise_lt_range' 1
  have hsmall : ∀ p ∈ positions 0 0 (statuses.map TransactionStatus.logs),
      p.logIndex < 2 ^ 32 := by
    intro p hp
    have hmem := List.mem_map_of_mem (f := LogPosition.logIndex) hp
    rw [hnumbers, List.mem_range'_1] at hmem
    omega
  refine (hascend.imp_of_mem fun {p q} hp hq hlt => ?_).filter _
  rw [UInt32.lt_iff_toNat_lt, UInt32.toNat_ofNat_of_lt' (hsmall p hp),
    UInt32.toNat_ofNat_of_lt' (hsmall q hq)]
  exact hlt

end OneBlock

/-! ## Several blocks -/

section Range

variable {hashing : Hashing} {chain : GrowingChain} {filter : Filter}

/-- No log of a block is before one of an earlier block. -/
theorem not_before_of_lt {m n : UInt32} (h : m < n) {a b : Log}
    (ha : a ∈ chainLogs hashing chain filter n) (hb : b ∈ chainLogs hashing chain filter m) :
    ¬ a.Before b := by
  rintro ⟨k, hk, l, hl, hkl⟩
  rw [blockNumber_of_mem_chainLogs ha] at hk
  rw [blockNumber_of_mem_chainLogs hb] at hl
  cases hk
  cases hl
  have hlt : (U256.ofU32 m).val < (U256.ofU32 n).val := UInt32.lt_iff_toNat_lt.1 h
  rcases hkl with hless | ⟨heq, -⟩
  · exact absurd (Fin.lt_def.1 hless) (by omega)
  · rw [heq] at hlt
    exact lt_irrefl _ hlt

theorem inChainOrder_rangeLogs {lo hi : ℕ} (hhi : hi < 2 ^ 32) :
    InChainOrder (rangeLogs hashing chain filter lo hi) ↔
      InOneBlock hashing chain filter lo hi := by
  unfold InChainOrder rangeLogs
  rw [pairwise_flatMap_iff (descending_pairwise lo hhi) fun m n hmn a ha b hb =>
    not_before_of_lt hmn ha hb]
  simp only [inChainOrder_chainLogs]
  constructor
  · rintro ⟨hnumbered, hsingle⟩
    exact ⟨hsingle, hnumbered⟩
  · rintro ⟨hsingle, hnumbered⟩
    exact ⟨hnumbered, hsingle⟩

end Range

/-! ## The methods -/

theorem forall_found_iff {α ε : Type} {answer : α} {P : α → Prop} :
    (∀ found, some (Except.ok (ε := ε) answer) = some (.ok found) → P found) ↔ P answer := by
  constructor
  · exact fun h => h answer rfl
  · rintro h _ ⟨⟩
    exact h

section Methods

variable {Hash : Type} [DecidableEq Hash] {eth : EthApi Hash} {hashing : Hashing}
  {api : RuntimeApi} {chain : GrowingChain} {best : UInt32}
  {currentAllAt : Hash →
    Except String (Option Block × Option (List Receipt) × Option (List TransactionStatus))}

/-- A query by hash looks at one block. -/
theorem logs_ordered_blockHash (halike : eth.ReadsAlike currentAllAt chain best) {filter : Filter}
    {hash : H256} (hhash : filter.blockHash = some hash) :
    (∀ found, eth.logs hashing api currentAllAt best filter = some (.ok found) →
        InChainOrder found) ↔
      ∀ n, eth.Names hash n → (chain.blockAt n).NumberedInOrder filter := by
  rcases EthApi.logs_blockHash hashing api halike hhash with
    ⟨err, herr, err', hlogs⟩ | ⟨-, named, hlength, hnamed, -, hlogs⟩
  · rw [hlogs]
    refine iff_of_true (fun found hfound => ?_) ?_
    · cases Option.some.inj hfound
    rintro n ⟨id, hid, -⟩
    obtain ⟨hashes, hhashes⟩ := (loadHash_ok_iff eth.client eth.backend hash).1 ⟨_, hid⟩
    rw [herr] at hhashes
    cases hhashes
  · simp only [hlogs, forall_found_iff, ← hnamed]
    rcases eq_nil_or_singleton hlength with rfl | ⟨n, rfl⟩
    · exact iff_of_true List.Pairwise.nil fun n hn => absurd hn List.not_mem_nil
    · rw [List.flatMap_singleton, inChainOrder_chainLogs]
      simp

/-- **The order of the logs.** An answer is in the order of the chain exactly if all its logs are in
one block, with ascending numbers. -/
theorem chain_order_iff (hknows : api.Knows chain best)
    (halike : eth.ReadsAlike currentAllAt chain best) (filter : Filter) :
    ((∀ found, eth.logs hashing api currentAllAt best filter = some (.ok found) →
        InChainOrder found) ↔
      (filter.blockHash = none →
        InOneBlock hashing chain filter (filter.lowest best) (filter.highest best)) ∧
      ∀ hash n, filter.blockHash = some hash → eth.Names hash n →
        (chain.blockAt n).NumberedInOrder filter) ∧
    (∀ key last atBlock pool,
      (∀ found, filterLogs hashing api key best (installLog key last atBlock pool filter) =
          some (.ok found) → InChainOrder found) ↔
        InOneBlock hashing chain filter (filter.lowest best) (filter.highest best)) ∧
    ∀ key last atBlock blockNumber pool,
      (∀ found, (filterChanges hashing api key blockNumber best
          (installLog key last atBlock pool filter)).map Prod.fst = some (.ok (.logs found)) →
            InChainOrder found) ↔
        InOneBlock hashing chain filter (fromNumber filter last).toNat (filter.highest best) := by
  refine ⟨?_, fun key last atBlock pool => ?_, fun key last atBlock blockNumber pool => ?_⟩
  · cases hhash : filter.blockHash with
    | none =>
      simp only [EthApi.logs_range hknows hhash, forall_found_iff,
        inChainOrder_rangeLogs (highest_lt filter best)]
      simp
    | some hash =>
      rw [logs_ordered_blockHash halike hhash]
      constructor
      · rintro h
        refine ⟨fun hnone => absurd hnone (Option.some_ne_none hash), ?_⟩
        rintro _ n ⟨⟩ hn
        exact h n hn
      · rintro ⟨-, h⟩ n hn
        exact h hash n rfl hn
  · simp only [filterLogs_installLog hknows, forall_found_iff,
      inChainOrder_rangeLogs (highest_lt filter best)]
  · rw [filterChanges_installLog hknows, ← inChainOrder_rangeLogs (highest_lt filter best)]
    simp

end Methods

/-! ## Two blocks with logs -/

theorem chain_order_iff_logged :
    ((∀ found, loggedEth.logs numberHashing loggedChain.api
          (fun id => loggedChain.api.currentAll id) 2 anyLog = some (.ok found) →
        InChainOrder found) ↔
      (anyLog.blockHash = none →
        InOneBlock numberHashing loggedChain anyLog (anyLog.lowest 2) (anyLog.highest 2)) ∧
      ∀ hash n, anyLog.blockHash = some hash → loggedEth.Names hash n →
        (loggedChain.blockAt n).NumberedInOrder anyLog) ∧
    (∀ key last atBlock pool,
      (∀ found, filterLogs numberHashing loggedChain.api key 2
          (installLog key last atBlock pool anyLog) = some (.ok found) → InChainOrder found) ↔
        InOneBlock numberHashing loggedChain anyLog (anyLog.lowest 2) (anyLog.highest 2)) ∧
    ∀ key last atBlock blockNumber pool,
      (∀ found, (filterChanges numberHashing loggedChain.api key blockNumber 2
          (installLog key last atBlock pool anyLog)).map Prod.fst = some (.ok (.logs found)) →
            InChainOrder found) ↔
        InOneBlock numberHashing loggedChain anyLog (fromNumber anyLog last).toNat
          (anyLog.highest 2) :=
  chain_order_iff (loggedChain.api_knows 2) loggedEth_readsAlike anyLog

theorem fromGenesis_unordered :
    ¬ InChainOrder (rangeLogs numberHashing loggedChain fromGenesis 0 2) := by
  rw [inChainOrder_rangeLogs (by decide)]
  intro h
  -- the blocks `1` and `2` have logs
  exact absurd (h.single 1 (by decide) 2 (by decide) (by decide) (by decide)) (by decide)

/-- Each of the blocks `0` to `2` has logs, and those of the last one come first. -/
theorem lastBlock_first :
    (¬ ∀ found, loggedEth.logs numberHashing loggedChain.api
        (fun id => loggedChain.api.currentAll id) 2 fromGenesis = some (.ok found) →
          InChainOrder found) ∧
    (¬ ∀ found, filterLogs numberHashing loggedChain.api 1 2 (installLog 1 0 0 ∅ fromGenesis) =
        some (.ok found) → InChainOrder found) ∧
    ¬ ∀ found, (filterChanges numberHashing loggedChain.api 1 2 2
        (installLog 1 0 0 ∅ fromGenesis)).map Prod.fst = some (.ok (.logs found)) →
          InChainOrder found := by
  have hknows := loggedChain.api_knows 2
  refine ⟨?_, ?_, fun h => ?_⟩
  · rw [EthApi.logs_range hknows rfl, forall_found_iff]
    exact fromGenesis_unordered
  · rw [filterLogs_installLog hknows, forall_found_iff]
    exact fromGenesis_unordered
  · exact fromGenesis_unordered (h _ (filterChanges_installLog hknows 1 0 0 2 ∅ fromGenesis))

end Shadows.Rpc
