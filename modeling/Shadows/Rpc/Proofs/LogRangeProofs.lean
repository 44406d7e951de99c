import Shadows.Rpc.LogQueries
import Shadows.Rpc.Proofs.FilterPoolProofs

/-!
# Proofs: the range of a query

The loop of a query makes one visit to every block of its range, from the last one down. The polls of
an installed filter run the same loop.
-/

namespace Shadows.Rpc

open Foundations

/-! ## Descending block numbers -/

theorem descending_of_lt {lo hi : ℕ} (h : hi < lo) : descending lo hi = [] := by
  unfold descending
  rw [Nat.sub_eq_zero_of_le h]
  rfl

theorem descending_succ {lo hi : ℕ} (h : lo ≤ hi + 1) :
    descending lo (hi + 1) = .ofNat (hi + 1) :: descending lo hi := by
  have hcount : hi + 1 + 1 - lo = (hi + 1 - lo) + 1 := by omega
  have hlast : lo + (hi + 1 - lo) = hi + 1 := by omega
  unfold descending
  rw [hcount, List.range'_1_concat, hlast, List.map_append, List.reverse_append]
  rfl

theorem mem_descending {lo hi : ℕ} (hhi : hi < 2 ^ 32) {n : UInt32} :
    n ∈ descending lo hi ↔ lo ≤ n.toNat ∧ n.toNat ≤ hi := by
  unfold descending
  rw [List.mem_reverse, List.mem_map]
  constructor
  · rintro ⟨k, hk, rfl⟩
    rw [List.mem_range'_1] at hk
    rw [UInt32.toNat_ofNat_of_lt' (by show k < 2 ^ 32; omega)]
    omega
  · rintro ⟨hlo, hle⟩
    refine ⟨n.toNat, ?_, UInt32.ofNat_toNat⟩
    rw [List.mem_range'_1]
    omega

theorem descending_pairwise (lo : ℕ) {hi : ℕ} (hhi : hi < 2 ^ 32) :
    (descending lo hi).Pairwise (· > ·) := by
  unfold descending
  rw [List.pairwise_reverse, List.pairwise_map]
  refine (List.pairwise_lt_range' _).imp_of_mem fun {m n} hm hn hlt => ?_
  rw [List.mem_range'_1] at hm hn
  show UInt32.ofNat m < UInt32.ofNat n
  rw [UInt32.lt_iff_toNat_lt, UInt32.toNat_ofNat_of_lt' (by show m < 2 ^ 32; omega),
    UInt32.toNat_ofNat_of_lt' (by show n < 2 ^ 32; omega)]
  exact hlt

theorem le_of_mem_descending {lo : ℕ} {hi best n : UInt32} (hle : hi ≤ best)
    (h : n ∈ descending lo hi.toNat) : n ≤ best := by
  obtain ⟨-, hn⟩ := (mem_descending hi.toNat_lt).1 h
  rw [UInt32.le_iff_toNat_le] at hle ⊢
  omega

/-! ## The loop -/

/-- A positive number is decremented by one. -/
theorem toNat_saturatingSub_one {n : UInt32} (h : n ≠ 0) :
    n.toNat = (saturatingSub n 1).toNat + 1 := by
  have hpos : 0 < n.toNat := by
    rcases Nat.eq_zero_or_pos n.toNat with hzero | hpos
    · exact absurd (UInt32.toNat_inj.1 hzero) h
    · exact hpos
  have hlt := n.toNat_lt
  have hone : (1 : UInt32).toNat = 1 := rfl
  unfold saturatingSub
  rw [hone, UInt32.toNat_ofNat_of_lt' (by show n.toNat - 1 < 2 ^ 32; omega)]
  omega

/-- A number that is not below the first one is the last of the range. -/
theorem descending_cons {lo : ℕ} {n : UInt32} (h : lo ≤ n.toNat) :
    descending lo n.toNat =
      n :: if n = 0 then [] else descending lo (saturatingSub n 1).toNat := by
  by_cases hzero : n = 0
  · subst hzero
    obtain rfl : lo = 0 := Nat.le_zero.1 h
    rfl
  · have hpred := toNat_saturatingSub_one hzero
    rw [if_neg hzero, hpred, descending_succ (by omega), ← hpred, UInt32.ofNat_toNat]

section Loop

variable (api : RuntimeApi)

/-- The loop visits the blocks from the last one down to the first, each of them once, unless a visit
fails. -/
theorem fetchRange_eq_foldlM (fromNumber currentNumber : UInt32) :
    fetchRange api fromNumber currentNumber =
      some ((descending fromNumber.toNat currentNumber.toNat).foldlM (visitBlock api) []) := by
  -- from a state of the loop, the visits that are still to come
  refine loop_eq_of_variant (rangeTurn api fromNumber)
    (fun s => (descending fromNumber.toNat s.currentNumber.toNat).foldlM (visitBlock api)
      s.blocksAndStatuses) (fun s => s.currentNumber.toNat) (fun s => ?_) (2 ^ 32)
    ⟨currentNumber, []⟩ currentNumber.toNat_lt
  unfold rangeTurn
  by_cases hfrom : fromNumber ≤ s.currentNumber
  · rw [if_pos hfrom, descending_cons (UInt32.le_iff_toNat_le.1 hfrom), List.foldlM_cons]
    cases visitBlock api s.blocksAndStatuses s.currentNumber with
    | error err => exact .inr rfl
    | ok blocksAndStatuses =>
      by_cases hzero : s.currentNumber = 0
      · rw [if_pos hzero]
        exact .inr (if_pos hzero)
      · rw [if_neg hzero]
        have hpred := toNat_saturatingSub_one hzero
        refine .inl ⟨_, if_neg hzero, rfl, ?_⟩
        show (saturatingSub s.currentNumber 1).toNat < s.currentNumber.toNat
        omega
  · have hbelow : s.currentNumber.toNat < fromNumber.toNat := by
      rw [UInt32.le_iff_toNat_le] at hfrom
      omega
    rw [if_neg hfrom, descending_of_lt hbelow]
    exact .inr rfl

/-- A visit adds what the block has to what there is. -/
theorem visitBlock_eq (blocksAndStatuses : List (Block × List TransactionStatus)) (n : ℕ) :
    visitBlock api blocksAndStatuses (.ofNat n) =
      (fetchStatuses api n).map fun entries => blocksAndStatuses ++ entries := by
  unfold visitBlock fetchStatuses
  cases api.currentAll (.ofNat n) with
  | error err => rfl
  | ok all => rfl

/-- What there is before the visits comes first. -/
theorem foldlM_visitBlock (numbers : List UInt32) : ∀ before,
    numbers.foldlM (visitBlock api) before =
      (numbers.foldlM (visitBlock api) []).map fun entries => before ++ entries := by
  induction numbers with
  | nil =>
    intro before
    show Except.ok before = Except.ok (before ++ [])
    rw [List.append_nil]
  | cons n numbers ih =>
    intro before
    rw [List.foldlM_cons, List.foldlM_cons]
    unfold visitBlock
    cases api.currentAll n with
    | error err => rfl
    | ok all =>
      show List.foldlM (visitBlock api) (before ++ blockAndStatuses all) numbers =
        Except.map _ (List.foldlM (visitBlock api) ([] ++ blockAndStatuses all) numbers)
      rw [ih (before ++ blockAndStatuses all), ih ([] ++ blockAndStatuses all)]
      cases List.foldlM (visitBlock api) [] numbers with
      | error err => rfl
      | ok entries =>
        exact congrArg Except.ok (List.append_assoc before (blockAndStatuses all) entries)

/-- The polls of an installed filter run the same loop. -/
theorem fetchDown_eq_foldlM (first n : ℕ) :
    fetchDown api first n = (descending first n).foldlM (visitBlock api) [] := by
  induction n with
  | zero =>
    by_cases hfirst : first ≤ 0
    · obtain rfl := Nat.le_zero.1 hfirst
      rw [fetchDown, if_pos hfirst]
      show fetchStatuses api 0 = (visitBlock api [] (.ofNat 0)).bind Except.ok
      rw [visitBlock_eq]
      cases fetchStatuses api 0 <;> rfl
    · rw [fetchDown, if_neg hfirst, descending_of_lt (Nat.not_le.1 hfirst)]
      rfl
  | succ n ih =>
    by_cases hfirst : first ≤ n + 1
    · rw [fetchDown, if_pos hfirst, descending_succ hfirst, List.foldlM_cons, ih, visitBlock_eq]
      cases fetchStatuses api (n + 1) with
      | error err => rfl
      | ok entries => exact (foldlM_visitBlock api (descending first n) ([] ++ entries)).symm
    · rw [fetchDown, if_neg hfirst, descending_of_lt (Nat.not_le.1 hfirst)]
      rfl

end Loop

/-! ## A chain that the API knows -/

/-- The logs that a filter matches in the blocks from `hi` down to `lo`. -/
def rangeLogs (hashing : Hashing) (chain : GrowingChain) (filter : Filter) (lo hi : ℕ) : List Log :=
  (descending lo hi).flatMap (chainLogs hashing chain filter)

section Known

variable {hashing : Hashing} {api : RuntimeApi} {chain : GrowingChain} {best : UInt32}

/-- The visits to blocks that the API knows find their logs, one block after the other. -/
theorem foldlM_visitBlock_known (h : api.Knows chain best) (hashing : Hashing) (filter : Filter)
    (numbers : List UInt32) (hnumbers : ∀ n ∈ numbers, n ≤ best) :
    ∃ entries, numbers.foldlM (visitBlock api) [] = .ok entries ∧
      entries.flatMap (fun entry => blockLogs hashing filter entry.1 entry.2) =
        numbers.flatMap (chainLogs hashing chain filter) := by
  induction numbers with
  | nil => exact ⟨[], rfl, rfl⟩
  | cons n numbers ih =>
    obtain ⟨entries, hentries, hlogs⟩ := ih fun m hm => hnumbers m (List.mem_cons_of_mem _ hm)
    have hvisit : visitBlock api [] n = .ok (blockAndStatuses ((chain.blockAt n).block,
        (chain.blockAt n).receipts, (chain.blockAt n).statuses)) := by
      unfold visitBlock
      rw [h n (hnumbers n (List.mem_cons_self ..))]
      rfl
    rw [List.foldlM_cons, hvisit]
    show ∃ entries, List.foldlM _ _ _ = _ ∧ _
    rw [foldlM_visitBlock, hentries]
    refine ⟨_, rfl, ?_⟩
    rw [List.flatMap_append, hlogs, List.flatMap_cons, flatMap_blockAndStatuses]

/-- A query for a range of blocks that the API knows answers with their logs. -/
theorem queryRange_eq (h : api.Knows chain best) (filter : Filter) :
    queryRange api hashing best filter =
      some (.ok (rangeLogs hashing chain filter (rangeFrom filter best).toNat
        (currentNumber filter best).toNat)) := by
  obtain ⟨entries, hentries, hlogs⟩ := foldlM_visitBlock_known h hashing filter
    (descending (rangeFrom filter best).toNat (currentNumber filter best).toNat)
    fun n hn => le_of_mem_descending (currentNumber_le filter best) hn
  unfold queryRange
  rw [fetchRange_eq_foldlM, hentries, Option.bind_some]
  dsimp only
  rw [logsBuild_eq_flatMap, hlogs]
  rfl

end Known

/-! ## The bounds -/

/-- A bound that is not a number is no bound. -/
theorem boundNumber_eq_none {bound : Option BlockNumber} (h : ∀ n, bound ≠ some (.num n)) :
    boundNumber bound = none := by
  cases bound with
  | none => rfl
  | some number =>
    cases number with
    | num n => exact absurd rfl (h n)
    | _ => rfl

theorem rangeFrom_toNat (filter : Filter) (best : UInt32) :
    (rangeFrom filter best).toNat = filter.lowest best := by
  unfold rangeFrom Filter.lowest
  split
  · next n hfrom =>
    rw [hfrom]
    exact toNat_saturatedU32_min n
  · next hfrom =>
    rw [boundNumber_eq_none hfrom]
    rfl

theorem currentNumber_toNat (filter : Filter) (best : UInt32) :
    (currentNumber filter best).toNat = filter.highest best := by
  have hbest := best.toNat_lt
  unfold currentNumber Filter.highest
  split
  · next n hto =>
    have hbound : (boundNumber filter.toBlock).getD best = saturatedU32 n := by
      rw [hto]
      rfl
    have hn := toNat_saturatedU32_min n
    rw [hbound]
    dsimp only
    split_ifs with hlt
    · rw [UInt32.lt_iff_toNat_lt] at hlt
      omega
    · rw [UInt32.lt_iff_toNat_lt] at hlt
      omega
  · next hto =>
    rw [boundNumber_eq_none hto]
    exact congrArg UInt32.toNat (ite_self best)

/-- **Queries for a range.** A query returns: its loop visits the blocks of the range, each of them
once, and up to the order it answers with the logs of these blocks that the filter matches. -/
theorem logs_range_exact {Hash : Type} [DecidableEq Hash] (eth : EthApi Hash) (hashing : Hashing)
    {api : RuntimeApi} {chain : GrowingChain} {best : UInt32} (hknows : api.Knows chain best)
    (currentAllAt : Hash →
      Except String (Option Block × Option (List Receipt) × Option (List TransactionStatus)))
    {filter : Filter} (hhash : filter.blockHash = none) :
    fetchRange api (rangeFrom filter best) (currentNumber filter best) =
        some ((descending (filter.lowest best) (filter.highest best)).foldlM (visitBlock api) []) ∧
      ∃ found, eth.logs hashing api currentAllAt best filter = some (.ok found) ∧
        found.Perm ((List.range' (filter.lowest best)
          (filter.highest best + 1 - filter.lowest best)).flatMap fun n =>
            chainLogs hashing chain filter (.ofNat n)) := by
  have hanswer : eth.logs hashing api currentAllAt best filter =
      some (.ok (rangeLogs hashing chain filter (filter.lowest best) (filter.highest best))) := by
    unfold EthApi.logs
    rw [hhash]
    dsimp only
    rw [queryRange_eq hknows, rangeFrom_toNat, currentNumber_toNat]
  refine ⟨?_, _, hanswer, ?_⟩
  · rw [fetchRange_eq_foldlM, rangeFrom_toNat, currentNumber_toNat]
  · have hperm := List.reverse_perm ((List.range' (filter.lowest best)
      (filter.highest best + 1 - filter.lowest best)).map UInt32.ofNat)
    refine (hperm.flatMap_right _).trans ?_
    rw [List.flatMap_map]

theorem GrowingChain.api_knows (chain : GrowingChain) (best : UInt32) :
    chain.api.Knows chain best := fun _ _ => rfl

/-- A query from the block `0` on, over the chain with a block `0`, `1` and `2`. -/
theorem logs_range_exact_fromZero :
    let filter : Filter := { anyLog with fromBlock := some (.num 0) }
    fetchRange loggedChain.api (rangeFrom filter 2) (currentNumber filter 2) =
        some ((descending 0 2).foldlM (visitBlock loggedChain.api) []) ∧
      ∃ found, (soleBlockApi numberHashing threeCallsState).logs numberHashing loggedChain.api
          (fun _ => .ok (none, none, none)) 2 filter = some (.ok found) ∧
        found.Perm ((List.range' 0 3).flatMap fun n =>
          chainLogs numberHashing loggedChain filter (.ofNat n)) :=
  logs_range_exact _ numberHashing (loggedChain.api_knows 2) _ rfl

end Shadows.Rpc
