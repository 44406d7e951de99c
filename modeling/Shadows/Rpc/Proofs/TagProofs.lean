import Shadows.Rpc.Proofs.LogRangeProofs
import Shadows.Rpc.Proofs.PollingProofs
import Shadows.Foundations.Segments

/-!
# Proofs: the tag `Earliest`

The ranges of a query and of a poll take the tag for an absent bound, which stands for the best block.
The test of a subscription tells the two apart: as a last block, the tag lets no block pass.
-/

namespace Shadows.Rpc

open FilteredParams Foundations

theorem Renumbered.eq_of_bounds {filter filter' : Filter} (h : Renumbered filter filter')
    (hfrom : filter'.fromBlock = filter.fromBlock) (hto : filter'.toBlock = filter.toBlock) :
    filter' = filter := by
  cases filter
  cases filter'
  cases hfrom
  cases hto
  cases h.blockHash
  cases h.address
  cases h.topics
  rfl

/-- Next to a number in `from_block`, the tag can only be replaced in `to_block`. -/
theorem Renumbered.fromBlock_eq {filter filter' : Filter} (h : Renumbered filter filter')
    {m : UInt64} (hm : filter.fromBlock = some (.num m)) :
    filter'.fromBlock = filter.fromBlock := by
  rcases h.fromBlock with heq | hreplaced
  · exact heq
  · cases hm.symm.trans hreplaced.1

/-! ## Address and topics -/

section Congr

variable {filter filter' : Filter}

/-- What a filter accepts depends on its address and its topics only. -/
theorem accepts_congr (haddress : filter'.address = filter.address)
    (htopics : filter'.topics = filter.topics) (log : Shadows.Log) :
    Accepts filter' log ↔ Accepts filter log := by
  have hflat : (new (some filter')).flatTopics = (new (some filter)).flatTopics := by
    unfold new
    dsimp only
    rw [htopics]
  have haddress' : (new (some filter')).filterAddress (Log.unplaced log) =
      (new (some filter)).filterAddress (Log.unplaced log) := by
    unfold new filterAddress
    dsimp only [Option.map_some]
    rw [haddress]
  unfold Accepts filterTopics
  rw [hflat, haddress']

theorem blockLogs_congr (haddress : filter'.address = filter.address)
    (htopics : filter'.topics = filter.topics) (hashing : Hashing) (block : Block)
    (statuses : List TransactionStatus) :
    blockLogs hashing filter' block statuses = blockLogs hashing filter block statuses := by
  unfold blockLogs acceptedPositions
  refine congrArg _ (List.filter_congr fun position _ => ?_)
  exact decide_eq_decide.2 (accepts_congr haddress htopics position.log)

theorem chainLogs_congr (haddress : filter'.address = filter.address)
    (htopics : filter'.topics = filter.topics) (hashing : Hashing) (chain : GrowingChain) :
    chainLogs hashing chain filter' = chainLogs hashing chain filter := by
  funext n
  unfold chainLogs
  cases (chain.blockAt n).block with
  | none => rfl
  | some block =>
    cases (chain.blockAt n).statuses with
    | none => rfl
    | some statuses => exact blockLogs_congr haddress htopics hashing block statuses

theorem logsBuild_congr (haddress : filter'.address = filter.address)
    (htopics : filter'.topics = filter.topics) (hashing : Hashing)
    (blocksAndStatuses : List (Block × List TransactionStatus)) :
    logsBuild hashing filter' blocksAndStatuses = logsBuild hashing filter blocksAndStatuses := by
  rw [logsBuild_eq_flatMap, logsBuild_eq_flatMap]
  refine congrArg some (List.flatMap_congr fun entry _ => ?_)
  exact blockLogs_congr haddress htopics hashing entry.1 entry.2

end Congr

/-! ## Ranges -/

theorem chainLogs_separated (hashing : Hashing) (chain : GrowingChain) (filter : Filter) :
    Separated (chainLogs hashing chain filter) := by
  intro m n log hm hn
  exact eq_of_mem_chainLogs hm hn

section Ranges

variable {hashing : Hashing} {chain : GrowingChain} {filter : Filter}

/-- Two ranges have the same logs exactly if the blocks that are in only one of them have none that the
filter matches. -/
theorem rangeLogs_eq_iff {lo hi lo' hi' : ℕ} (hhi : hi < 2 ^ 32) (hhi' : hi' < 2 ^ 32) :
    rangeLogs hashing chain filter lo hi = rangeLogs hashing chain filter lo' hi' ↔
      ∀ n : UInt32, ¬ (lo ≤ n.toNat ∧ n.toNat ≤ hi ↔ lo' ≤ n.toNat ∧ n.toNat ≤ hi') →
        chainLogs hashing chain filter n = [] := by
  unfold rangeLogs
  rw [flatMap_eq_flatMap_iff (chainLogs_separated hashing chain filter)
    (descending_pairwise lo hhi) (descending_pairwise lo' hhi')]
  simp only [mem_descending hhi, mem_descending hhi']

/-- A range behind the block `0` has no more logs than the empty one that ends there exactly if the filter
matches none in it. -/
theorem rangeLogs_toGenesis_iff {lo hi : ℕ} (hlo : 0 < lo) (hhi : hi < 2 ^ 32) :
    rangeLogs hashing chain filter lo hi = rangeLogs hashing chain filter lo 0 ↔
      ∀ n : UInt32, lo ≤ n.toNat → n.toNat ≤ hi → chainLogs hashing chain filter n = [] := by
  rw [rangeLogs_eq_iff hhi (by decide)]
  exact ⟨fun h n hn hle => h n (by omega), fun h n hn => h n (by omega) (by omega)⟩

/-- The range from the best block on has the logs of the range from `0` on if there are no others. -/
theorem rangeLogs_fromBest_iff {best : UInt32} {hi : ℕ} (hhi : hi ≤ best.toNat) :
    rangeLogs hashing chain filter best.toNat hi = rangeLogs hashing chain filter 0 hi ↔
      ∀ n < best, n.toNat ≤ hi → chainLogs hashing chain filter n = [] := by
  have hbest := best.toNat_lt
  rw [rangeLogs_eq_iff (by omega) (by omega)]
  simp only [UInt32.lt_iff_toNat_lt]
  exact ⟨fun h n hn hle => h n (by omega), fun h n hn => h n (by omega) (by omega)⟩

end Ranges

/-! ## Installed filters -/

section Installed

variable {hashing : Hashing} {api : RuntimeApi} {chain : GrowingChain} {best : UInt32}

theorem filterLogs_installLog (hknows : api.Knows chain best) (key : U256) (last atBlock : UInt64)
    (pool : FilterPool) (filter : Filter) :
    filterLogs hashing api key best (installLog key last atBlock pool filter) =
      some (.ok (rangeLogs hashing chain filter (filter.lowest best) (filter.highest best))) := by
  unfold filterLogs installLog
  rw [Std.TreeMap.getElem?_insert_self]
  dsimp only
  rw [queryRange_eq hknows, rangeFrom_toNat, currentNumber_toNat]

theorem filterChanges_installLog (hknows : api.Knows chain best) (key : U256)
    (last atBlock blockNumber : UInt64) (pool : FilterPool) (filter : Filter) :
    (filterChanges hashing api key blockNumber best
        (installLog key last atBlock pool filter)).map Prod.fst =
      some (.ok (.logs (rangeLogs hashing chain filter (fromNumber filter last).toNat
        (filter.highest best)))) := by
  obtain ⟨entries, hentries, hlogs⟩ := foldlM_visitBlock_known hknows hashing filter
    (descending (fromNumber filter last).toNat (currentNumber filter best).toNat)
    fun n hn => le_of_mem_descending (currentNumber_le filter best) hn
  unfold filterChanges installLog
  rw [Std.TreeMap.getElem?_insert_self]
  dsimp only [BlockNumber.toMinBlockNum, Option.bind_some]
  rw [fetchDown_eq_foldlM, hentries]
  dsimp only
  rw [logsBuild_eq_flatMap, hlogs, currentNumber_toNat]
  rfl

end Installed

/-! ## Block ranges of a subscription -/

section BlockRange

variable {filter filter' : Filter}

/-- A subscription up to the tag gets no block. -/
theorem filterBlockRange_earliest (hto : filter.toBlock = some .earliest) (n : UInt64) :
    (new (some filter)).filterBlockRange n = some false := by
  show some (_ && _) = _
  rw [hto, Bool.and_false]

/-- A subscription up to the number `0` gets the block `0`, unless it starts later. -/
theorem filterBlockRange_zero (hto : filter.toBlock = some (.num 0)) {n : UInt64} :
    (new (some filter)).filterBlockRange n = some true ↔
      n = 0 ∧ ∀ m, filter.fromBlock = some (.num m) → m = 0 := by
  have hzero : ∀ k : UInt64, k ≤ 0 ↔ k = 0 := by
    intro k
    rw [UInt64.le_iff_toNat_le, ← UInt64.toNat_inj]
    exact Nat.le_zero
  show some (_ && _) = some true ↔ _
  rw [hto, Option.some.injEq, Bool.and_eq_true, decide_eq_true_iff, hzero, and_comm]
  refine and_congr_right fun hn => ?_
  subst hn
  split
  · next m hfrom =>
    rw [decide_eq_true_iff, hzero]
    constructor
    · intro hm m' hm'
      rwa [← BlockNumber.num.inj (Option.some.inj (hfrom.symm.trans hm'))]
    · exact fun h => h m hfrom
  · next hfrom => exact iff_of_true rfl fun m hm => absurd hm (hfrom m)

/-- The tests of the two subscriptions agree if they start at the same positive number. -/
theorem filterBlockRange_iff (hrenumbered : Renumbered filter filter')
    (h : TagReplaced filter.toBlock filter'.toBlock) :
    (∀ n, (new (some filter)).filterBlockRange n = (new (some filter')).filterBlockRange n) ↔
      ∃ m, filter.fromBlock = some (.num m) ∧ 0 < m := by
  constructor
  · intro hsame
    by_contra hnone
    have hzero : (new (some filter')).filterBlockRange 0 = some true := by
      refine (filterBlockRange_zero h.2).2 ⟨rfl, fun m hm => ?_⟩
      rcases hrenumbered.fromBlock with heq | hreplaced
      · by_contra hpos
        exact hnone ⟨m, heq.symm.trans hm, UInt64.pos_iff_ne_zero.2 hpos⟩
      · exact (BlockNumber.num.inj (Option.some.inj (hreplaced.2.symm.trans hm))).symm
    have hfalse := hsame 0
    rw [filterBlockRange_earliest h.1, hzero] at hfalse
    cases hfalse
  · rintro ⟨m, hm, hpos⟩ n
    have heq := (hrenumbered.fromBlock_eq hm).trans hm
    obtain ⟨answer, hanswer⟩ : ∃ answer, (new (some filter')).filterBlockRange n = some answer :=
      ⟨_, rfl⟩
    rw [filterBlockRange_earliest h.1, hanswer]
    cases answer with
    | false => rfl
    | true =>
      obtain ⟨-, hstart⟩ := (filterBlockRange_zero h.2).1 hanswer
      exact absurd (hstart m heq) (UInt64.pos_iff_ne_zero.1 hpos)

end BlockRange

/-! ## Replacing the tag -/

section Replace

variable {hashing : Hashing} {chain : GrowingChain} {best : UInt32} {filter filter' : Filter}

theorem Renumbered.rangeLogs_eq (h : Renumbered filter filter') (lo hi : ℕ) :
    rangeLogs hashing chain filter' lo hi = rangeLogs hashing chain filter lo hi := by
  unfold rangeLogs
  rw [chainLogs_congr h.address h.topics]

theorem le_highest_iff (filter : Filter) (best n : UInt32) :
    n.toNat ≤ filter.highest best ↔ n ≤ best ∧
      ∀ last, boundNumber filter.toBlock = some last → n ≤ last := by
  rw [← currentNumber_toNat, ← UInt32.le_iff_toNat_le]
  exact le_currentNumber_iff filter best n

theorem highest_le (filter : Filter) (best : UInt32) : filter.highest best ≤ best.toNat := by
  rw [← currentNumber_toNat, ← UInt32.le_iff_toNat_le]
  exact currentNumber_le filter best

theorem highest_replaced (h : TagReplaced filter.toBlock filter'.toBlock) (best : UInt32) :
    filter'.highest best = 0 := by
  unfold Filter.highest
  rw [h.2]
  exact Nat.zero_min _

/-- The tag in `to_block` next to a positive number: the range is empty once it is replaced. -/
theorem rangeLogs_toBlock_iff (h : TagReplaced filter.toBlock filter'.toBlock)
    (heq : filter'.fromBlock = filter.fromBlock) {m : UInt64} (hm : filter.fromBlock = some (.num m))
    (hpos : 0 < m) :
    rangeLogs hashing chain filter (filter.lowest best) (filter.highest best) =
        rangeLogs hashing chain filter (filter'.lowest best) (filter'.highest best) ↔
      ∀ n ≤ best, saturatedU32 m ≤ n → chainLogs hashing chain filter n = [] := by
  have hlowest : filter.lowest best = (saturatedU32 m).toNat := by
    unfold Filter.lowest
    rw [hm, toNat_saturatedU32_min]
  have hlowest' : filter'.lowest best = (saturatedU32 m).toNat := by
    unfold Filter.lowest
    rw [heq, hm, toNat_saturatedU32_min]
  have hhighest : filter.highest best = best.toNat := by
    unfold Filter.highest
    rw [h.1]
  have hpositive : 0 < (saturatedU32 m).toNat := by
    have hm0 : 0 < m.toNat := UInt64.lt_iff_toNat_lt.1 hpos
    rw [toNat_saturatedU32_min]
    omega
  rw [hlowest, hlowest', hhighest, highest_replaced h,
    rangeLogs_toGenesis_iff hpositive best.toNat_lt]
  simp only [UInt32.le_iff_toNat_le]
  constructor
  · exact fun hempty n hn hlo => hempty n hlo hn
  · exact fun hempty n hlo hn => hempty n hn hlo

/-- The tag in `from_block`. -/
theorem rangeLogs_fromBlock_iff (h : TagReplaced filter.fromBlock filter'.fromBlock)
    (heq : filter'.toBlock = filter.toBlock) :
    rangeLogs hashing chain filter (filter.lowest best) (filter.highest best) =
        rangeLogs hashing chain filter (filter'.lowest best) (filter'.highest best) ↔
      ∀ n < best, (∀ last, boundNumber filter.toBlock = some last → n ≤ last) →
        chainLogs hashing chain filter n = [] := by
  have hlowest : filter.lowest best = best.toNat := by
    unfold Filter.lowest
    rw [h.1]
  have hlowest' : filter'.lowest best = 0 := by
    unfold Filter.lowest
    rw [h.2]
    exact Nat.zero_min _
  have hhighest' : filter'.highest best = filter.highest best := by
    unfold Filter.highest
    rw [heq]
  rw [hlowest, hlowest', hhighest', rangeLogs_fromBest_iff (highest_le filter best)]
  simp only [le_highest_iff]
  constructor
  · exact fun hempty n hn hlast => hempty n hn ⟨UInt32.le_of_lt hn, hlast⟩
  · exact fun hempty n hn hlast => hempty n hn hlast.2

/-- Filters with the same logs in their ranges, and the same block ranges, get the same results. -/
theorem Renumbered.sameResults {Hash : Type} [DecidableEq Hash] (h : Renumbered filter filter')
    (eth : EthApi Hash) {api : RuntimeApi} (hknows : api.Knows chain best)
    (currentAllAt : Hash →
      Except String (Option Block × Option (List Receipt) × Option (List TransactionStatus)))
    (hquery : rangeLogs hashing chain filter (filter.lowest best) (filter.highest best) =
      rangeLogs hashing chain filter (filter'.lowest best) (filter'.highest best))
    (hpoll : ∀ last,
      rangeLogs hashing chain filter (fromNumber filter last).toNat (filter.highest best) =
        rangeLogs hashing chain filter (fromNumber filter' last).toNat (filter'.highest best))
    (hblocks : ∀ n, (new (some filter)).filterBlockRange n =
      (new (some filter')).filterBlockRange n) :
    SameResults eth hashing api currentAllAt best filter filter' where
  logs := by
    have hrange : queryRange api hashing best filter = queryRange api hashing best filter' := by
      rw [queryRange_eq hknows, queryRange_eq hknows, rangeFrom_toNat, rangeFrom_toNat,
        currentNumber_toNat, currentNumber_toNat, h.rangeLogs_eq, hquery]
    unfold EthApi.logs
    rw [h.blockHash, hrange]
    simp only [logsBuild_congr h.address h.topics]
  filterLogs := by
    intro key last atBlock pool
    rw [filterLogs_installLog hknows, filterLogs_installLog hknows, h.rangeLogs_eq, hquery]
  filterChanges := by
    intro key last atBlock blockNumber pool
    rw [filterChanges_installLog hknows, filterChanges_installLog hknows, h.rangeLogs_eq, hpoll]
  filterBlockRange := hblocks

/-- The first block of a poll does not depend on the tag in `from_block`. -/
theorem fromNumber_replaced (h : TagReplaced filter.fromBlock filter'.fromBlock) (last : UInt64) :
    fromNumber filter' last = fromNumber filter last := by
  have hzero : (saturatedU32 0).toNat = 0 := rfl
  have hbound : boundNumber filter.fromBlock = none := by
    rw [h.1]
    rfl
  have hbound' : boundNumber filter'.fromBlock = some (saturatedU32 0) := by
    rw [h.2]
    rfl
  unfold fromNumber
  rw [hbound, hbound', Option.getD_some, Option.getD_none]
  show (if saturatedU32 last ≤ saturatedU32 0 then saturatedU32 0 else saturatedU32 last) =
    if saturatedU32 last ≤ saturatedU32 last then saturatedU32 last else saturatedU32 last
  rw [ite_self]
  split_ifs with hle
  · rw [UInt32.le_iff_toNat_le, hzero] at hle
    exact UInt32.toNat_inj.1 (by omega)
  · rfl

/-- A subscription from the tag on, or from the number `0` on, has no lower bound. -/
theorem filterBlockRange_fromBlock (h : TagReplaced filter.fromBlock filter'.fromBlock)
    (heq : filter'.toBlock = filter.toBlock) (n : UInt64) :
    (new (some filter)).filterBlockRange n = (new (some filter')).filterBlockRange n := by
  have hzero : decide ((0 : UInt64) ≤ n) = true :=
    decide_eq_true (UInt64.le_iff_toNat_le.2 (Nat.zero_le _))
  show some (_ && _) = some (_ && _)
  rw [h.1, h.2, heq]
  dsimp only
  rw [hzero]

/-- Polls of a filter with the tag in `to_block` find nothing, replaced or not, if the filter matches
no log from a positive number on. -/
theorem rangeLogs_poll_toBlock (h : TagReplaced filter.toBlock filter'.toBlock)
    (heq : filter'.fromBlock = filter.fromBlock) {m : UInt64} (hm : filter.fromBlock = some (.num m))
    (hpos : 0 < m)
    (hempty : ∀ n ≤ best, saturatedU32 m ≤ n → chainLogs hashing chain filter n = [])
    (last : UInt64) :
    rangeLogs hashing chain filter (fromNumber filter last).toNat (filter.highest best) =
      rangeLogs hashing chain filter (fromNumber filter' last).toNat (filter'.highest best) := by
  have hbest := best.toNat_lt
  have hbound : boundNumber filter.fromBlock = some (saturatedU32 m) := by
    rw [hm]
    rfl
  have hfirst : fromNumber filter' last = fromNumber filter last := by
    unfold fromNumber
    rw [heq]
  have hlower : (saturatedU32 m).toNat ≤ (fromNumber filter last).toNat := by
    obtain ⟨-, hfrom⟩ := (fromNumber_le_iff filter last (fromNumber filter last)).1
      (UInt32.le_refl _)
    exact UInt32.le_iff_toNat_le.1 (hfrom _ hbound)
  have hm0 : 0 < m.toNat := UInt64.lt_iff_toNat_lt.1 hpos
  have hpositive : 0 < (fromNumber filter last).toNat := by
    rw [toNat_saturatedU32_min] at hlower
    omega
  have hle := highest_le filter best
  rw [hfirst, highest_replaced h, rangeLogs_toGenesis_iff hpositive (by omega)]
  intro n hlo hhi
  exact hempty n (UInt32.le_iff_toNat_le.2 (by omega)) (UInt32.le_iff_toNat_le.2 (by omega))

end Replace

/-- **The tag `Earliest`.** Replacing the tag by the number `0` changes no result of the log queries
exactly if the tag stands in `to_block` only next to a positive number, from which on the filter
matches no log, and in `from_block` only if the filter matches no log below the best block. -/
theorem earliest_iff {Hash : Type} [DecidableEq Hash] (eth : EthApi Hash) {hashing : Hashing}
    {api : RuntimeApi} {chain : GrowingChain} {best : UInt32} (hknows : api.Knows chain best)
    (currentAllAt : Hash →
      Except String (Option Block × Option (List Receipt) × Option (List TransactionStatus)))
    {filter filter' : Filter} (h : Renumbered filter filter') :
    SameResults eth hashing api currentAllAt best filter filter' ↔
      TagIdle hashing chain best filter filter' := by
  constructor
  · intro hsame
    have hranges : rangeLogs hashing chain filter (filter.lowest best) (filter.highest best) =
        rangeLogs hashing chain filter (filter'.lowest best) (filter'.highest best) := by
      have hanswer := hsame.filterLogs 0 0 0 ∅
      rw [filterLogs_installLog hknows, filterLogs_installLog hknows, h.rangeLogs_eq] at hanswer
      exact Except.ok.inj (Option.some.inj hanswer)
    have hnumber := fun hto => (filterBlockRange_iff h hto).1 hsame.filterBlockRange
    constructor
    · intro hto
      obtain ⟨m, hm, hpos⟩ := hnumber hto
      exact ⟨m, hm, hpos, (rangeLogs_toBlock_iff hto (h.fromBlock_eq hm) hm hpos).1 hranges⟩
    · intro hfrom
      have heq : filter'.toBlock = filter.toBlock := by
        rcases h.toBlock with heq | hreplaced
        · exact heq
        · obtain ⟨m, hm, -⟩ := hnumber hreplaced
          cases hm.symm.trans hfrom.1
      exact (rangeLogs_fromBlock_iff hfrom heq).1 hranges
  · intro hidle
    rcases h.toBlock with hto | hto
    · rcases h.fromBlock with hfrom | hfrom
      · -- nothing is replaced
        obtain rfl := h.eq_of_bounds hfrom hto
        exact ⟨rfl, fun _ _ _ _ => rfl, fun _ _ _ _ _ => rfl, fun _ => rfl⟩
      · have hhighest : filter'.highest best = filter.highest best := by
          unfold Filter.highest
          rw [hto]
        refine h.sameResults eth hknows currentAllAt
          ((rangeLogs_fromBlock_iff hfrom hto).2 (hidle.fromBlock hfrom)) (fun last => ?_)
          (filterBlockRange_fromBlock hfrom hto)
        rw [fromNumber_replaced hfrom, hhighest]
    · obtain ⟨m, hm, hpos, hempty⟩ := hidle.toBlock hto
      have heq := h.fromBlock_eq hm
      exact h.sameResults eth hknows currentAllAt
        ((rangeLogs_toBlock_iff hto heq hm hpos).2 hempty)
        (rangeLogs_poll_toBlock hto heq hm hpos hempty)
        ((filterBlockRange_iff h hto).2 ⟨m, hm, hpos⟩)

theorem fromEarliest_renumbered (bound : Option BlockNumber) :
    Renumbered ⟨some .earliest, bound, none, none, none⟩ ⟨some (.num 0), bound, none, none, none⟩ where
  fromBlock := .inr ⟨rfl, rfl⟩
  toBlock := .inl rfl
  blockHash := rfl
  address := rfl
  topics := rfl

theorem earliest_iff_logged :
    SameResults (soleBlockApi numberHashing threeCallsState) numberHashing loggedChain.api
        (fun _ => .ok (none, none, none)) 2 ⟨some .earliest, none, none, none, none⟩
        ⟨some (.num 0), none, none, none, none⟩ ↔
      TagIdle numberHashing loggedChain 2 ⟨some .earliest, none, none, none, none⟩
        ⟨some (.num 0), none, none, none, none⟩ :=
  earliest_iff _ (loggedChain.api_knows 2) _ (fromEarliest_renumbered none)

/-- On a chain with two logs in each of the blocks `0`, `1` and `2`, a query from the tag on finds two
logs and a query from the number `0` on finds six. A subscription up to the tag does not get the
block `0`, a subscription up to the number `0` does. -/
theorem earliest_differs :
    (∃ found found',
      (soleBlockApi numberHashing threeCallsState).logs numberHashing loggedChain.api
          (fun _ => .ok (none, none, none)) 2 ⟨some .earliest, none, none, none, none⟩ =
        some (.ok found) ∧
      (soleBlockApi numberHashing threeCallsState).logs numberHashing loggedChain.api
          (fun _ => .ok (none, none, none)) 2 ⟨some (.num 0), none, none, none, none⟩ =
        some (.ok found') ∧
      found.length = 2 ∧ found'.length = 6) ∧
    (new (some ⟨none, some .earliest, none, none, none⟩)).filterBlockRange 0 = some false ∧
    (new (some ⟨none, some (.num 0), none, none, none⟩)).filterBlockRange 0 = some true :=
  ⟨⟨_, _, queryRange_eq (loggedChain.api_knows 2) _, queryRange_eq (loggedChain.api_knows 2) _,
    by decide, by decide⟩, rfl, rfl⟩

end Shadows.Rpc
