import Shadows.Rpc.LogSelection
import Shadows.Rpc.Proofs.LoadHashProofs
import Shadows.Rpc.Proofs.TagProofs

/-!
# Proofs: `filter_logs` and `logs`

The logs of an answer are put together from the segments of its blocks. Two answers agree exactly if
every block that only one of them looks at has the empty segment.
-/

namespace Shadows.Rpc

open Foundations

theorem eq_nil_or_singleton {α : Type} {l : List α} (h : l.length ≤ 1) : l = [] ∨ ∃ a, l = [a] :=
  (Nat.le_one_iff_eq_zero_or_eq_one.1 h).imp List.length_eq_zero_iff.1 List.length_eq_one_iff.1

/-! ## The range of a filter -/

theorem highest_lt (filter : Filter) (best : UInt32) : filter.highest best < 2 ^ 32 :=
  lt_of_le_of_lt (highest_le filter best) best.toNat_lt

theorem mem_descending_iff_inRange {filter : Filter} {best n : UInt32} :
    n ∈ descending (filter.lowest best) (filter.highest best) ↔ filter.InRange best n :=
  mem_descending (highest_lt filter best)

/-! ## Queries by hash -/

section Hash

variable {Hash : Type} [DecidableEq Hash] {eth : EthApi Hash} {hashing : Hashing}
  {api : RuntimeApi} {chain : GrowingChain} {best : UInt32}
  {currentAllAt : Hash →
    Except String (Option Block × Option (List Receipt) × Option (List TransactionStatus))}
  {filter : Filter} {hash : H256}

/-- `load_hash` only finds canonical blocks, and so blocks with a number. -/
theorem isCanon_of_loadHash {client : HeaderBackend Hash} {db : Db.Database Hash} {id : Hash}
    (h : loadHash client db hash = .ok (some id)) :
    isCanon client id = true ∧ ∃ n, client.number id = .ok (some n) := by
  unfold loadHash at h
  cases hhashes : Db.MappingDb.blockHashes db hash with
  | error err =>
    rw [hhashes] at h
    cases h
  | ok hashes =>
    rw [hhashes] at h
    dsimp only at h
    split at h
    · next out hout =>
      obtain rfl : out = id := Option.some.inj (Except.ok.inj h)
      have hmem : out ∈ hashes.filter (isCanon client) := by
        rw [hout]
        exact List.mem_singleton_self out
      have hcanon := (List.mem_filter.1 hmem).2
      refine ⟨hcanon, ?_⟩
      unfold isCanon at hcanon
      cases hnumber : client.number out with
      | error err =>
        rw [hnumber] at hcanon
        cases hcanon
      | ok number =>
        cases number with
        | none =>
          rw [hnumber] at hcanon
          cases hcanon
        | some n => exact ⟨n, rfl⟩
    · cases h

theorem EthApi.Names.unique {m n : UInt32} (hm : eth.Names hash m) (hn : eth.Names hash n) :
    m = n := by
  obtain ⟨id, hid, hnumber⟩ := hm
  obtain ⟨id', hid', hnumber'⟩ := hn
  rw [hid, Except.ok.injEq, Option.some.injEq] at hid'
  rw [← hid', hnumber, Except.ok.injEq, Option.some.injEq] at hnumber'
  exact hnumber'

/-- The answer to a query by hash: of the one block that the hash names, or of none. -/
theorem EthApi.logs_blockHash (hashing : Hashing) (api : RuntimeApi)
    (halike : eth.ReadsAlike currentAllAt chain best)
    (hhash : filter.blockHash = some hash) :
    (∃ err, Db.MappingDb.blockHashes eth.backend hash = .error err ∧
      ∃ err', eth.logs hashing api currentAllAt best filter = some (.error err')) ∨
    (∃ hashes, Db.MappingDb.blockHashes eth.backend hash = .ok hashes) ∧
      ∃ named : List UInt32, named.length ≤ 1 ∧ (∀ n, n ∈ named ↔ eth.Names hash n) ∧
        (∀ n ∈ named, n ≤ best) ∧
        eth.logs hashing api currentAllAt best filter =
          some (.ok (named.flatMap (chainLogs hashing chain filter))) := by
  unfold EthApi.logs
  rw [hhash]
  dsimp only
  cases hload : loadHash eth.client eth.backend hash with
  | error err =>
    cases hhashes : Db.MappingDb.blockHashes eth.backend hash with
    | error err' => exact .inl ⟨err', rfl, _, rfl⟩
    | ok hashes =>
      obtain ⟨id, hid⟩ := (loadHash_ok_iff eth.client eth.backend hash).2 ⟨hashes, hhashes⟩
      rw [hload] at hid
      cases hid
  | ok id =>
    refine .inr ⟨(loadHash_ok_iff eth.client eth.backend hash).1 ⟨id, hload⟩, ?_⟩
    cases id with
    | none =>
      refine ⟨[], Nat.zero_le 1, fun n => ?_, fun n hn => absurd hn List.not_mem_nil, rfl⟩
      refine iff_of_false List.not_mem_nil ?_
      rintro ⟨id, hid, -⟩
      rw [hload] at hid
      cases hid
    | some id =>
      obtain ⟨hcanon, n, hnumber⟩ := isCanon_of_loadHash hload
      obtain ⟨hle, hall⟩ := halike id n hcanon hnumber
      have hnames : eth.Names hash n := ⟨id, hload, hnumber⟩
      refine ⟨[n], le_refl 1, fun k => ?_, fun k hk => ?_, ?_⟩
      · rw [List.mem_singleton]
        constructor
        · rintro rfl
          exact hnames
        · exact fun hk => hk.unique hnames
      · rwa [List.mem_singleton.1 hk]
      · dsimp only
        rw [hall]
        dsimp only
        rw [logsBuild_eq_flatMap, flatMap_blockAndStatuses, List.flatMap_singleton]
        rfl

/-- A query without a hash has the logs of its range. -/
theorem EthApi.logs_range (hknows : api.Knows chain best) (hhash : filter.blockHash = none) :
    eth.logs hashing api currentAllAt best filter =
      some (.ok (rangeLogs hashing chain filter (filter.lowest best) (filter.highest best))) := by
  unfold EthApi.logs
  rw [hhash]
  dsimp only
  rw [queryRange_eq hknows, rangeFrom_toNat, currentNumber_toNat]

/-- **Installed filters and queries.** The logs of an installed filter are those that a query with
the same filter finds, exactly if a block hash in the filter selects the matching logs of its
range. -/
theorem filterLogs_agrees_iff (hknows : api.Knows chain best)
    (halike : eth.ReadsAlike currentAllAt chain best) (filter : Filter) (key : U256)
    (last atBlock : UInt64) (pool : FilterPool) :
    filterLogs hashing api key best (installLog key last atBlock pool filter) =
        eth.logs hashing api currentAllAt best filter ↔
      ∀ hash, filter.blockHash = some hash →
        eth.SelectsAlike hashing chain best filter hash := by
  rw [filterLogs_installLog hknows]
  cases hhash : filter.blockHash with
  | none =>
    exact iff_of_true (EthApi.logs_range hknows hhash).symm fun hash h =>
      absurd h.symm (Option.some_ne_none hash)
  | some hash =>
    have hone : (∀ h, some hash = some h → eth.SelectsAlike hashing chain best filter h) ↔
        eth.SelectsAlike hashing chain best filter hash := by
      constructor
      · exact fun h => h hash rfl
      · rintro h hash' ⟨⟩
        exact h
    rw [hone]
    rcases EthApi.logs_blockHash hashing api halike hhash with
      ⟨err, herr, err', hlogs⟩ | ⟨hreadable, named, hlength, hnamed, -, hlogs⟩
    · rw [hlogs]
      refine iff_of_false (fun h => ?_) fun h => ?_
      · cases Option.some.inj h
      obtain ⟨hashes, hhashes⟩ := h.readable
      rw [herr] at hhashes
      cases hhashes
    · have hsingle : named.Pairwise (· > ·) := by
        rcases eq_nil_or_singleton hlength with rfl | ⟨n, rfl⟩
        · exact List.Pairwise.nil
        · exact List.pairwise_singleton _ n
      have hsame := flatMap_eq_flatMap_iff (chainLogs_separated hashing chain filter)
        (descending_pairwise (filter.lowest best) (highest_lt filter best)) hsingle
      rw [hlogs, Option.some.injEq, Except.ok.injEq]
      unfold rangeLogs
      rw [hsame]
      simp only [hnamed, mem_descending_iff_inRange]
      constructor
      · exact fun h => ⟨hreadable, fun n hn => h n fun h' => hn h'.symm⟩
      · exact fun h n hn => h.unmatched n fun h' => hn h'.symm

end Hash

/-! ## A filter for one block -/

theorem loggedEth_readsAlike :
    loggedEth.ReadsAlike (fun id => loggedChain.api.currentAll id) loggedChain 2 := by
  intro id n _ hnumber
  simp only [loggedEth] at hnumber
  split_ifs at hnumber with hle
  · cases hnumber
    exact ⟨hle, rfl⟩
  · cases hnumber

theorem secondBlockOnly_selectsAlike :
    loggedEth.SelectsAlike numberHashing loggedChain 2 secondBlockOnly 1 where
  readable := ⟨[1], rfl⟩
  unmatched := by
    intro n hn
    refine absurd ?_ hn
    have hload : loadHash loggedEth.client loggedEth.backend 1 = .ok (some 1) := rfl
    have hlowest : secondBlockOnly.lowest 2 = 1 := by decide
    have hhighest : secondBlockOnly.highest 2 = 1 := by decide
    unfold Filter.InRange
    rw [hlowest, hhighest]
    constructor
    · rintro ⟨id, hid, hnumber⟩
      cases hload.symm.trans hid
      cases hnumber
      exact ⟨le_rfl, le_rfl⟩
    · rintro ⟨hlow, hhigh⟩
      obtain rfl : n = 1 := UInt32.toNat.inj (le_antisymm hhigh hlow)
      exact ⟨1, hload, rfl⟩

/-- Where the range is the block that the hash names, the two agree. -/
theorem filterLogs_agrees_iff_secondBlockOnly :
    filterLogs numberHashing loggedChain.api 1 2 (installLog 1 0 0 ∅ secondBlockOnly) =
      loggedEth.logs numberHashing loggedChain.api (fun id => loggedChain.api.currentAll id) 2
        secondBlockOnly := by
  refine (filterLogs_agrees_iff (loggedChain.api_knows 2) loggedEth_readsAlike secondBlockOnly 1 0 0
    ∅).2 ?_
  rintro hash ⟨⟩
  exact secondBlockOnly_selectsAlike

/-- The logs of the block `1` are asked for, and those of the block `2` are found. -/
theorem secondBlock_ignored :
    filterLogs numberHashing loggedChain.api 1 2 (installLog 1 0 0 ∅ secondBlock) ≠
      loggedEth.logs numberHashing loggedChain.api (fun id => loggedChain.api.currentAll id) 2
        secondBlock := by
  rw [filterLogs_installLog (loggedChain.api_knows 2)]
  decide

end Shadows.Rpc
