import Shadows.Rpc.FilterRuns
import Shadows.Ethereum.Proofs.AssemblyProofs
import Shadows.Rpc.Proofs.LogsProofs

/-!
# Proofs: the filter methods

What each method does to the pool, and what a successful poll answers.
-/

namespace Shadows.Rpc

/-- The states that the blocks of a chain have left behind make a growing chain. -/
theorem exists_growingChain {W : Type} {cfg : Ethereum.Config W} (states : UInt32 → Ethereum.State W)
    (hreached : ∀ n, Ethereum.Reached cfg (states n)) (hnumber : ∀ n, (states n).blockNumber = n) :
    ∃ chain : GrowingChain, ∀ n, chain.blockAt n =
      ⟨(states n).currentBlock, (states n).currentReceipts,
        (states n).currentTransactionStatuses⟩ := by
  have hblocks : ∀ n block, (states n).currentBlock = some block →
      block.header.number = .ofU32 n := by
    intro n block hblock
    rw [(hreached n).number hblock, hnumber]
  exact ⟨⟨fun n => ⟨(states n).currentBlock, (states n).currentReceipts,
    (states n).currentTransactionStatuses⟩, hblocks⟩, fun n => rfl⟩

/-! ## Installing and removing -/

/-- The largest id that a pool is given out by its iteration. -/
theorem getLast?_keys_eq_some {pool : FilterPool} {k : U256} (h : pool.keys.getLast? = some k) :
    k ∈ pool ∧ ∀ k' ∈ pool, k' ≤ k := by
  rw [← Std.TreeMap.maxKey?_eq_getLast?_keys,
    Std.TreeMap.maxKey?_eq_some_iff_mem_and_forall] at h
  exact ⟨h.1, fun k' hk' => Nat.isLE_compare.1 (h.2 k' hk')⟩

theorem getLast?_keys_eq_none {pool : FilterPool} (h : pool.keys.getLast? = none) (k : U256) :
    k ∉ pool := by
  rw [List.getLast?_eq_none_iff] at h
  rw [← Std.TreeMap.mem_keys, h]
  exact List.not_mem_nil

/-- A new id is above those in the pool, and either the first one or the successor of one of
them. -/
theorem createFilter_ok {maxStoredFilters : ℕ} {blockNumber : UInt64} {filterType : FilterType}
    {pool pool' : FilterPool} {key : U256}
    (h : createFilter maxStoredFilters blockNumber filterType pool = some (.ok key, pool')) :
    pool' = pool.insert key ⟨.num blockNumber, filterType, blockNumber⟩ ∧
      (∀ k ∈ pool, k.val < key.val) ∧ (key.val = 1 ∨ ∃ k ∈ pool, key.val = k.val + 1) := by
  unfold createFilter at h
  split_ifs at h with hfull
  · simp at h
  · obtain ⟨key', hkey, hout⟩ := Option.map_eq_some_iff.1 h
    simp only [Prod.mk.injEq, Except.ok.injEq] at hout
    obtain ⟨rfl, rfl⟩ := hout
    rw [U256.checkedAdd_eq_some] at hkey
    refine ⟨rfl, ?_⟩
    cases hlast : pool.keys.getLast? with
    | none =>
      rw [hlast] at hkey
      exact ⟨fun k hk => absurd hk (getLast?_keys_eq_none hlast k), .inl hkey⟩
    | some last =>
      rw [hlast] at hkey
      obtain ⟨hmem, hmax⟩ := getLast?_keys_eq_some hlast
      have hsucc : key'.val = last.val + 1 := hkey
      refine ⟨fun k hk => ?_, .inr ⟨last, hmem, hsucc⟩⟩
      have hle : k.val ≤ last.val := hmax k hk
      omega

theorem createFilter_error {maxStoredFilters : ℕ} {blockNumber : UInt64} {filterType : FilterType}
    {pool pool' : FilterPool} {err : FilterError}
    (h : createFilter maxStoredFilters blockNumber filterType pool = some (.error err, pool')) :
    pool' = pool := by
  unfold createFilter at h
  split_ifs at h with hfull
  · simp only [Option.some.injEq, Prod.mk.injEq] at h
    exact h.2.symm
  · obtain ⟨key', -, hout⟩ := Option.map_eq_some_iff.1 h
    simp at hout

theorem uninstallFilter_getElem? (key key' : U256) (pool : FilterPool) :
    (uninstallFilter key pool).2[key']? = pool[key']? ∨
      (uninstallFilter key pool).2[key']? = none := by
  unfold uninstallFilter
  split_ifs
  · dsimp only
    rw [Std.TreeMap.getElem?_erase]
    split_ifs
    · exact .inr rfl
    · exact .inl rfl
  · exact .inl rfl

/-- Expiry removes some filters and leaves the others as they are. -/
theorem expireFilters_getElem? (retainThreshold importedNumber : UInt64) (key : U256)
    (pool : FilterPool) :
    (expireFilters retainThreshold importedNumber pool)[key]? = pool[key]? ∨
      (expireFilters retainThreshold importedNumber pool)[key]? = none := by
  have hfold : ∀ (removeList : List U256) (pool : FilterPool),
      (removeList.foldl (fun pool key => pool.erase key) pool)[key]? = pool[key]? ∨
        (removeList.foldl (fun pool key => pool.erase key) pool)[key]? = none := by
    intro removeList
    induction removeList with
    | nil => exact fun pool => .inl rfl
    | cons removed rest ih =>
      intro pool
      rw [List.foldl_cons]
      rcases ih (pool.erase removed) with hkept | hgone
      · rw [hkept, Std.TreeMap.getElem?_erase]
        split_ifs
        · exact .inr rfl
        · exact .inl rfl
      · exact .inr hgone
  exact hfold _ pool

/-! ## Polling -/

theorem toNat_saturatedU32_min (n : UInt64) : (saturatedU32 n).toNat = min n.toNat (2 ^ 32 - 1) := by
  unfold saturatedU32
  exact UInt32.toNat_ofNat_of_lt' (by show min n.toNat (2 ^ 32 - 1) < 2 ^ 32; omega)

theorem toNat_saturatedU32 {n : UInt64} (h : n.toNat < 2 ^ 32) :
    saturatedU32 n = .ofNat n.toNat := by
  unfold saturatedU32
  rw [Nat.min_eq_left (by omega)]

/-- The number after a block number, which does not overflow at 64 bits. -/
theorem toNat_succ (sample : UInt32) : (sample.toUInt64 + 1).toNat = sample.toNat + 1 := by
  have := sample.toNat_lt
  rw [UInt64.toNat_add, UInt32.toNat_toUInt64]
  show (sample.toNat + 1) % 2 ^ 64 = _
  omega

section Polling

variable {hashing : Hashing} {api : RuntimeApi} {chain : GrowingChain} {best : UInt32}
  {filter : Filter}

/-- One block of the loop, which the chain is known to have. -/
theorem fetchHash_ok (hserves : api.Serves chain best) {n : ℕ} (hn : n ≤ best.toNat)
    {ret ret' : List H256} (h : fetchHash hashing api ret n = .ok ret') :
    ret' = ret ++ ((chain.blockAt (.ofNat n)).block.map fun block =>
      hashing.headerHash block.header).toList := by
  have hbest := best.toNat_lt
  have hn64 : (UInt64.ofNat n).toNat = n := by
    rw [UInt64.toNat_ofNat']
    omega
  have hn32 : UInt32.ofNat n ≤ best := by
    rw [UInt32.le_iff_toNat_le, UInt32.toNat_ofNat']
    omega
  unfold fetchHash at h
  rw [toNat_saturatedU32 (by omega), hn64] at h
  rcases hserves.currentBlock (.ofNat n) hn32 with ⟨err, herr⟩ | hok
  · simp only [herr, reduceCtorEq] at h
  · rw [hok] at h
    cases hblock : (chain.blockAt (.ofNat n)).block with
    | none =>
      rw [hblock] at h
      exact (Except.ok.inj h).symm.trans (List.append_nil ret).symm
    | some block =>
      rw [hblock] at h
      exact (Except.ok.inj h).symm

theorem foldlM_fetchHash_ok (hserves : api.Serves chain best) {hashes : List H256}
    (numbers : List ℕ) (hnumbers : ∀ n ∈ numbers, n ≤ best.toNat) : ∀ ret,
    numbers.foldlM (fetchHash hashing api) ret = .ok hashes →
      hashes = ret ++ numbers.filterMap fun n =>
        (chain.blockAt (.ofNat n)).block.map fun block => hashing.headerHash block.header := by
  induction numbers with
  | nil =>
    intro ret h
    rw [List.filterMap_nil, List.append_nil]
    exact (Except.ok.inj h).symm
  | cons n numbers ih =>
    intro ret h
    rw [List.foldlM_cons] at h
    cases hfetch : fetchHash hashing api ret n with
    | error err =>
      rw [hfetch] at h
      exact absurd h (fun h => nomatch h)
    | ok ret' =>
      rw [hfetch] at h
      have hrest := ih (fun n hn => hnumbers n (List.mem_cons_of_mem _ hn)) ret' h
      rw [fetchHash_ok hserves (hnumbers n (List.mem_cons_self ..)) hfetch] at hrest
      rw [hrest, List.append_assoc, List.filterMap_cons]
      cases (chain.blockAt (.ofNat n)).block <;> rfl

/-- Hashes that are fetched are those of the chain, if the last block is known. -/
theorem fetchHashes_ok (hserves : api.Serves chain best) {last next : UInt64}
    (hnext : next.toNat ≤ best.toNat + 1) {hashes : List H256}
    (h : fetchHashes hashing api last next = .ok hashes) :
    hashes = chainHashes hashing chain last.toNat next.toNat := by
  refine foldlM_fetchHash_ok hserves _ (fun n hn => ?_) [] h
  rw [List.mem_range'_1] at hn
  omega

/-- The logs of the block and the statuses that the chain has. -/
theorem flatMap_blockAndStatuses (chain : GrowingChain) (filter : Filter) (n : UInt32) :
    (blockAndStatuses ((chain.blockAt n).block, (chain.blockAt n).receipts,
      (chain.blockAt n).statuses)).flatMap
        (fun entry => blockLogs hashing filter entry.1 entry.2) =
      chainLogs hashing chain filter n := by
  unfold chainLogs
  cases (chain.blockAt n).block with
  | none => rfl
  | some block =>
    cases (chain.blockAt n).statuses with
    | none => rfl
    | some statuses => exact List.append_nil _

/-- The logs of a block whose statuses are fetched. -/
theorem fetchStatuses_ok (hserves : api.Serves chain best) {n : ℕ} (hn : n ≤ best.toNat)
    {entries : List (Block × List TransactionStatus)} (h : fetchStatuses api n = .ok entries) :
    entries.flatMap (fun entry => blockLogs hashing filter entry.1 entry.2) =
      chainLogs hashing chain filter (.ofNat n) := by
  have hbest := best.toNat_lt
  have hn32 : UInt32.ofNat n ≤ best := by
    rw [UInt32.le_iff_toNat_le, UInt32.toNat_ofNat']
    omega
  unfold fetchStatuses at h
  rcases hserves.currentAll (.ofNat n) hn32 with ⟨err, herr⟩ | hok
  · simp only [herr, reduceCtorEq] at h
  · rw [hok] at h
    rw [← Except.ok.inj h, flatMap_blockAndStatuses]

/-- Below its lower bound the loop does not start, and there is nothing to find. -/
theorem fetchDown_below {first n : ℕ} (hlt : ¬ first ≤ n)
    {entries : List (Block × List TransactionStatus)} (h : fetchDown api first n = .ok entries)
    (log : Log) : log ∈ entries.flatMap (fun entry => blockLogs hashing filter entry.1 entry.2) ↔
      ∃ k, first ≤ k ∧ k ≤ n ∧ log ∈ chainLogs hashing chain filter (.ofNat k) := by
  have hempty : fetchDown api first n = .ok [] := by
    cases n with
    | zero => exact if_neg hlt
    | succ n => exact if_neg hlt
  obtain rfl : entries = [] := Except.ok.inj (h.symm.trans hempty)
  constructor
  · exact fun hlog => absurd hlog List.not_mem_nil
  · rintro ⟨k, hfirst, hk, -⟩
    exact absurd (le_trans hfirst hk) hlt

/-- One turn of the loop. -/
theorem fetchDown_succ {first n : ℕ} (hfirst : first ≤ n + 1)
    {entries : List (Block × List TransactionStatus)}
    (h : fetchDown api first (n + 1) = .ok entries) :
    ∃ here rest, fetchStatuses api (n + 1) = .ok here ∧ fetchDown api first n = .ok rest ∧
      entries = here ++ rest := by
  rw [fetchDown, if_pos hfirst] at h
  cases hfetch : fetchStatuses api (n + 1) with
  | error err =>
    rw [hfetch] at h
    exact absurd h (fun h => nomatch h)
  | ok here =>
    cases hrest : fetchDown api first n with
    | error err =>
      rw [hfetch, hrest] at h
      exact absurd h (fun h => nomatch h)
    | ok rest =>
      rw [hfetch, hrest] at h
      exact ⟨here, rest, rfl, rfl, (Except.ok.inj h).symm⟩

/-- The loop finds the logs of the blocks between its bounds. -/
theorem fetchDown_ok (hserves : api.Serves chain best) {first : ℕ} (n : ℕ) :
    ∀ {entries : List (Block × List TransactionStatus)}, n ≤ best.toNat →
      fetchDown api first n = .ok entries → ∀ log,
        log ∈ entries.flatMap (fun entry => blockLogs hashing filter entry.1 entry.2) ↔
          ∃ k, first ≤ k ∧ k ≤ n ∧ log ∈ chainLogs hashing chain filter (.ofNat k) := by
  induction n with
  | zero =>
    intro entries hn h log
    by_cases hfirst : first ≤ 0
    · rw [fetchDown, if_pos hfirst] at h
      rw [fetchStatuses_ok hserves hn h]
      constructor
      · exact fun hlog => ⟨0, hfirst, le_refl 0, hlog⟩
      · rintro ⟨k, -, hk, hlog⟩
        rwa [Nat.le_zero.1 hk] at hlog
    · exact fetchDown_below hfirst h log
  | succ n ih =>
    intro entries hn h log
    by_cases hfirst : first ≤ n + 1
    · obtain ⟨here, rest, hfetch, hrest, rfl⟩ := fetchDown_succ hfirst h
      rw [List.flatMap_append, List.mem_append, fetchStatuses_ok hserves hn hfetch,
        ih (by omega) hrest]
      constructor
      · rintro (hlog | ⟨k, hfirst', hk, hlog⟩)
        · exact ⟨n + 1, hfirst, le_refl _, hlog⟩
        · exact ⟨k, hfirst', by omega, hlog⟩
      · rintro ⟨k, hfirst', hk, hlog⟩
        rcases Nat.lt_or_ge n k with hlt | hge
        · have hkn : k = n + 1 := by omega
          rw [hkn] at hlog
          exact .inl hlog
        · exact .inr ⟨k, hfirst', hge, hlog⟩
    · exact fetchDown_below hfirst h log

end Polling

theorem toMinBlockNum_eq_some {number : BlockNumber} {n : UInt64}
    (h : number.toMinBlockNum = some n) : number = .num n := by
  cases number with
  | num m => exact congrArg BlockNumber.num (Option.some.inj h)
  | _ => exact absurd h (fun h => nomatch h)

theorem currentNumber_le (filter : Filter) (best : UInt32) : currentNumber filter best ≤ best := by
  unfold currentNumber
  dsimp only
  split_ifs with h
  · exact UInt32.le_refl best
  · exact UInt32.not_lt.1 h

section FilterChanges

variable {cfg : FilterConfig} {api : RuntimeApi} {key : U256} {sample best : UInt32}

/-- The hashes that a poll of a block filter has fetched are its answer. -/
theorem answers_block {last : UInt64} {hashes : List H256}
    (hserves : api.Serves cfg.chain best) (hsample : sample ≤ best)
    (h : fetchHashes cfg.hashing api last (sample.toUInt64 + 1) = .ok hashes) :
    Answers cfg last ⟨sample, best, .hashes hashes⟩ .block := by
  rw [UInt32.le_iff_toNat_le] at hsample
  have hnext := toNat_succ sample
  have hhashes := fetchHashes_ok hserves (by omega) h
  rw [hnext] at hhashes
  exact congrArg FilterChanges.hashes hhashes

/-- The logs of the blocks that a poll of a log filter has fetched are its answer. -/
theorem answers_log {filter : Filter} {last : UInt64}
    {entries : List (Block × List TransactionStatus)} (hserves : api.Serves cfg.chain best)
    (h : fetchDown api (fromNumber filter last).toNat (currentNumber filter best).toNat =
      .ok entries) :
    Answers cfg last ⟨sample, best, .logs (entries.flatMap fun entry =>
      blockLogs cfg.hashing filter entry.1 entry.2)⟩ (.log filter) := by
  have hupper := currentNumber_le filter best
  rw [UInt32.le_iff_toNat_le] at hupper
  refine ⟨_, rfl, fun log => ?_⟩
  rw [fetchDown_ok hserves _ hupper h]
  constructor
  · rintro ⟨k, hlower, hk, hlog⟩
    have hbest := best.toNat_lt
    have hk32 : (UInt32.ofNat k).toNat = k := UInt32.toNat_ofNat_of_lt' (by
      show k < 2 ^ 32
      omega)
    refine ⟨.ofNat k, ?_, ?_, hlog⟩
    · rw [UInt32.le_iff_toNat_le, hk32]
      exact hlower
    · rw [UInt32.le_iff_toNat_le, hk32]
      exact hk
  · rintro ⟨n, hlower, hn, hlog⟩
    refine ⟨n.toNat, UInt32.le_iff_toNat_le.1 hlower, UInt32.le_iff_toNat_le.1 hn, ?_⟩
    rw [UInt32.ofNat_toNat]
    exact hlog

/-- A poll fails with the pool as it is, or moves the filter to the number after the one read first
and answers for the blocks since the last poll. -/
theorem filterChanges_cases {pool pool' : FilterPool}
    {response : Except FilterError FilterChanges}
    (h : filterChanges cfg.hashing api key sample.toUInt64 best pool = some (response, pool')) :
    (∃ err, response = .error err ∧ pool' = pool) ∨
      ∃ changes item last, response = .ok changes ∧ pool[key]? = some item ∧
        item.lastPoll = .num last ∧
        pool' = pool.insert key { item with lastPoll := .num (sample.toUInt64 + 1) } ∧
        (api.Serves cfg.chain best → sample ≤ best →
          Answers cfg last ⟨sample, best, changes⟩ item.filterType) := by
  unfold filterChanges at h
  cases hitem : pool[key]? with
  | none =>
    simp only [hitem, Option.some.injEq, Prod.mk.injEq] at h
    exact .inl ⟨_, h.1.symm, h.2.symm⟩
  | some item =>
    simp only [hitem] at h
    cases htype : item.filterType with
    | block =>
      simp only [htype] at h
      obtain ⟨last, hlast, hout⟩ := Option.map_eq_some_iff.1 h
      cases hfetch : fetchHashes cfg.hashing api last (sample.toUInt64 + 1) with
      | error err =>
        simp only [hfetch, Prod.mk.injEq] at hout
        exact .inl ⟨_, hout.1.symm, hout.2.symm⟩
      | ok hashes =>
        simp only [hfetch, Prod.mk.injEq] at hout
        refine .inr ⟨_, item, last, hout.1.symm, rfl, toMinBlockNum_eq_some hlast, ?_, ?_⟩
        · rw [htype]
          exact hout.2.symm
        · rw [htype]
          exact fun hserves hsample => answers_block hserves hsample hfetch
    | log filter =>
      simp only [htype] at h
      obtain ⟨last, hlast, hout⟩ := Option.bind_eq_some_iff.1 h
      cases hfetch : fetchDown api (fromNumber filter last).toNat
          (currentNumber filter best).toNat with
      | error err =>
        simp only [hfetch, Option.some.injEq, Prod.mk.injEq] at hout
        exact .inl ⟨_, hout.1.symm, hout.2.symm⟩
      | ok entries =>
        simp only [hfetch, logsBuild_eq_flatMap, Option.map_some, Option.some.injEq,
          Prod.mk.injEq] at hout
        refine .inr ⟨_, item, last, hout.1.symm, rfl, toMinBlockNum_eq_some hlast, ?_, ?_⟩
        · rw [htype]
          exact hout.2.symm
        · rw [htype]
          exact fun hserves _ => answers_log hserves hfetch
    | pendingTransaction =>
      simp only [htype, Option.some.injEq, Prod.mk.injEq] at h
      exact .inl ⟨_, h.1.symm, h.2.symm⟩

end FilterChanges

end Shadows.Rpc
