import Shadows.Rpc.Proofs.LoadHashProofs

/-!
# Proofs: locating a transaction

`load_transactions` gives up unless the transaction mapping has a single entry, although every block
that ever carried the transaction, on any fork, has one: `load_hash` drops the entries of abandoned
forks before it counts, `load_transactions` does not.
-/

namespace Shadows.Rpc

open Db MappingSync Foundations

variable {Hash : Type} [DecidableEq Hash] {hashing : Hashing} {chain : Chain Hash}

/-- The single entry of the transaction mapping, if there is only one. -/
theorem loadTransactions_eq_some_iff (ws : List Hash) (t e : H256) (j : UInt32) :
    loadTransactions (mappingOf hashing chain ws) t = .ok (some (e, j)) ↔
      ∃ m, (ws.map (chain.commitment hashing)).flatMap (·.entries t) = [m] ∧
        m.ethereumBlockHash = e ∧ m.ethereumIndex = j := by
  unfold loadTransactions
  rw [(represents_mappingOf ws).transactionMetadata]
  generalize (ws.map (chain.commitment hashing)).flatMap (·.entries t) = l
  match l with
  | [] => simp
  | [m] => simp
  | _ :: _ :: _ => simp

theorem mem_metadata {ws : List Hash} {t : H256} {b : Hash} {i : ℕ} (hb : b ∈ ws)
    (hi : lastPosition t 0 (chain.hashes hashing b).transactionHashes = some i) :
    (chain.commitment hashing b).entry i ∈
      (ws.map (chain.commitment hashing)).flatMap (·.entries t) := by
  rw [List.mem_flatMap]
  refine ⟨chain.commitment hashing b, List.mem_map_of_mem hb, ?_⟩
  exact MappingCommitment.mem_entries.2 ⟨i, hi, rfl⟩

theorem exists_lastPosition {t : H256} {txs : List H256} (ht : t ∈ txs) :
    ∃ m, lastPosition t 0 txs = some m := by
  rw [← Option.isSome_iff_exists, Option.isSome_iff_ne_none]
  intro hnone
  exact (lastPosition_eq_none txs 0).1 hnone ht

/-- The transaction mapping has a single entry for a transaction exactly if a single one of the
written blocks contains it, and then the entry is that of its last position. -/
theorem metadata_eq_singleton_iff {ws : List Hash} (hnd : ws.Nodup) {t : H256} {b : Hash}
    (hb : b ∈ ws) (ht : t ∈ (chain.hashes hashing b).transactionHashes)
    (m : TransactionMetadata Hash) :
    (ws.map (chain.commitment hashing)).flatMap (·.entries t) = [m] ↔
      (∀ c ∈ ws, t ∈ (chain.hashes hashing c).transactionHashes → c = b) ∧
        ∃ i, lastPosition t 0 (chain.hashes hashing b).transactionHashes = some i ∧
          m = (chain.commitment hashing b).entry i := by
  obtain ⟨i, hi⟩ := exists_lastPosition ht
  have hbm := mem_metadata hb hi
  constructor
  · intro hl
    rw [hl, List.mem_singleton] at hbm
    refine ⟨fun c hc htc => ?_, i, hi, hbm.symm⟩
    obtain ⟨k, hk⟩ := exists_lastPosition htc
    have hcm := mem_metadata hc hk
    rw [hl, List.mem_singleton] at hcm
    have hentry : (chain.commitment hashing c).entry k = (chain.commitment hashing b).entry i :=
      hcm.trans hbm.symm
    exact congrArg TransactionMetadata.blockHash hentry
  · rintro ⟨huniq, k, hk, rfl⟩
    have hnd' : ((ws.map (chain.commitment hashing)).map (·.blockHash)).Nodup := by
      rw [chain.map_blockHash_commitment]
      exact hnd
    apply List.perm_singleton.1
    rw [List.perm_ext_iff_of_nodup (metadata_nodup hnd' t) (List.nodup_singleton _)]
    intro x
    rw [List.mem_singleton]
    constructor
    · intro hx
      obtain ⟨c, hc, hxc⟩ := List.mem_flatMap.1 hx
      obtain ⟨d, hd, rfl⟩ := List.mem_map.1 hc
      obtain ⟨n, hn, rfl⟩ := MappingCommitment.mem_entries.1 hxc
      have htd : t ∈ (chain.hashes hashing d).transactionHashes := by
        obtain ⟨p, -, hp, -⟩ := (lastPosition_eq_some _ 0 n).1 hn
        exact List.mem_of_getElem? hp
      have hdb : d = b := huniq d hd htd
      subst hdb
      have hn' : lastPosition t 0 (chain.hashes hashing d).transactionHashes = some n := hn
      rw [hk, Option.some.injEq] at hn'
      rw [hn']
    · rintro rfl
      exact mem_metadata hb hk

/-- A located transaction has been found in the transaction mapping, and its block is canonical. -/
theorem locateTransaction_eq_some_iff {client : HeaderBackend Hash} {db : Database Hash} {t : H256}
    {b : Hash} {j : UInt32} : locateTransaction client db t = .ok (some (b, j)) ↔
      ∃ e, loadTransactions db t = .ok (some (e, j)) ∧ loadHash client db e = .ok (some b) := by
  constructor
  · intro h
    unfold locateTransaction at h
    cases hload : loadTransactions db t with
    | error e => simp [hload] at h
    | ok found =>
      cases found with
      | none => simp [hload] at h
      | some entry =>
        obtain ⟨e, j'⟩ := entry
        cases hhash : loadHash client db e with
        | error err => simp [hload, hhash] at h
        | ok canonical =>
          cases canonical with
          | none => simp [hload, hhash] at h
          | some id =>
            simp only [hload, hhash, Except.ok.injEq, Option.some.injEq, Prod.mk.injEq] at h
            obtain ⟨rfl, rfl⟩ := h
            exact ⟨e, rfl, hhash⟩
  · rintro ⟨e, hload, hhash⟩
    unfold locateTransaction
    simp only [hload, hhash]

/-- **Locating a canonical transaction.** On the mapping of a fully synced tree, a transaction that
one canonical block contains is found there exactly if no block of the tree outside the branch
contains it too and the index asked for is its last position, cut to 32 bits. -/
theorem locateTransaction_iff {client : HeaderBackend Hash} {tree : Finset Hash} {best : Hash}
    (htree : chain.lineage.IsTree tree) (hbest : best ∈ tree)
    (hc : client.Serves chain tree best) {ws : List Hash} (hnd : ws.Nodup)
    (hfull : ∀ c, c ∈ ws ↔ c ∈ tree)
    (hcontents : ∀ c ∈ tree, ∀ d ∈ tree,
      (chain.hashes hashing c).blockHash = (chain.hashes hashing d).blockHash →
        (chain.hashes hashing c).transactionHashes = (chain.hashes hashing d).transactionHashes)
    {t : H256} {b : Hash} {i : ℕ} (hb : chain.lineage.OnBranch best b)
    (hi : (chain.hashes hashing b).transactionHashes[i]? = some t)
    (hunique : ∀ c, chain.lineage.OnBranch best c →
      t ∈ (chain.hashes hashing c).transactionHashes → c = b) :
    (∃ j : UInt32, locateTransaction client (mappingOf hashing chain ws) t = .ok (some (b, j)) ∧
        j.toNat = i) ↔
      (∀ c ∈ tree, ¬ chain.lineage.OnBranch best c →
        t ∉ (chain.hashes hashing c).transactionHashes) ∧
      ∃ m, (chain.hashes hashing b).transactionHashes[m]? = some t ∧
        (∀ k, m < k → (chain.hashes hashing b).transactionHashes[k]? ≠ some t) ∧
        m % 2 ^ 32 = i := by
  have hbt : b ∈ tree := htree.mem_of_onBranch hbest hb
  have hbw : b ∈ ws := (hfull b).2 hbt
  have ht : t ∈ (chain.hashes hashing b).transactionHashes := List.mem_of_getElem? hi
  have hsub : ∀ c ∈ ws, c ∈ tree := fun c hc => (hfull c).1 hc
  -- a canonical block with the Ethereum hash of `b` contains `t`, hence is `b`
  have hhash : loadHash client (mappingOf hashing chain ws) (chain.hashes hashing b).blockHash =
      .ok (some b) := by
    rw [loadHash_eq_some_iff hc hnd hsub]
    refine ⟨⟨hbw, hb, rfl⟩, fun c hcw hbranch hce => hunique c hbranch ?_⟩
    rw [hcontents c (hsub c hcw) b hbt hce]
    exact ht
  constructor
  · rintro ⟨j, hlocate, hj⟩
    obtain ⟨e, hload, -⟩ := locateTransaction_eq_some_iff.1 hlocate
    obtain ⟨m, hm, -, hindex⟩ := (loadTransactions_eq_some_iff ws t e j).1 hload
    obtain ⟨huniq, k, hk, rfl⟩ := (metadata_eq_singleton_iff hnd hbw ht m).1 hm
    obtain ⟨p, hp, hpt, hmax⟩ := (lastPosition_eq_some _ 0 k).1 hk
    rw [Nat.zero_add] at hp
    subst hp
    refine ⟨fun c hct hnot htc => ?_, k, hpt, hmax, ?_⟩
    · exact hnot (huniq c ((hfull c).2 hct) htc ▸ hb)
    · rw [← hj, ← hindex]
      exact UInt32.toNat_ofNat'.symm
  · rintro ⟨hfork, m, hm, hmax, hmod⟩
    have huniq : ∀ c ∈ ws, t ∈ (chain.hashes hashing c).transactionHashes → c = b := by
      intro c hcw htc
      by_cases hbranch : chain.lineage.OnBranch best c
      · exact hunique c hbranch htc
      · exact absurd htc (hfork c (hsub c hcw) hbranch)
    have hlast : lastPosition t 0 (chain.hashes hashing b).transactionHashes = some m :=
      (lastPosition_eq_some _ 0 m).2 ⟨m, (Nat.zero_add m).symm, hm, hmax⟩
    have hentry := (metadata_eq_singleton_iff hnd hbw ht _).2 ⟨huniq, m, hlast, rfl⟩
    have hload := (loadTransactions_eq_some_iff ws t _ _).2 ⟨_, hentry, rfl, rfl⟩
    refine ⟨UInt32.ofNat m, ?_, by rw [← hmod]; exact UInt32.toNat_ofNat'⟩
    exact locateTransaction_eq_some_iff.2 ⟨_, hload, hhash⟩

theorem forkChain_only_block {t : H256} (c : Fin 3) (hc : forkChain.lineage.OnBranch 1 c)
    (ht : t ∈ (forkChain.hashes numberHashing c).transactionHashes) : c = 1 := by
  rcases (forkChain_onBranch c).1 hc with rfl | rfl
  · exact absurd ht (show t ∉ [] from List.not_mem_nil)
  · rfl

/-- The fork `2` does not contain the second transaction of block `1`. -/
theorem locateTransaction_iff_fork :
    ∃ j : UInt32, locateTransaction forkClient (mappingOf numberHashing forkChain [0, 1, 2]) 8 =
      .ok (some (1, j)) ∧ j.toNat = 1 := by
  refine (locateTransaction_iff forkChain_isTree (by decide) (forkClient_serves _)
    (by decide) (by decide) (by decide) ((forkChain_onBranch 1).2 (Or.inr rfl)) (by decide)
    forkChain_only_block).2 ⟨fun c hc hnot => ?_, 1, by decide, fun k hk => ?_, by decide⟩
  · have hfork : c ≠ 0 ∧ c ≠ 1 := not_or.1 fun h => hnot ((forkChain_onBranch c).2 h)
    clear hnot
    revert c
    decide
  · obtain ⟨k, rfl⟩ : ∃ n, k = n + 2 := ⟨k - 2, by omega⟩
    exact nofun

/-- Block `1` is canonical and its fork `2` contains the same transaction: the whole tree is synced,
and the transaction is not found. -/
theorem locateTransaction_misses_fork :
    forkChain.lineage.IsTree {0, 1, 2} ∧ forkClient.Serves forkChain {0, 1, 2} 1 ∧
      (∀ c ∈ ({0, 1, 2} : Finset (Fin 3)), ∀ d ∈ ({0, 1, 2} : Finset (Fin 3)), c ≠ d →
        (forkChain.hashes numberHashing c).blockHash ≠
          (forkChain.hashes numberHashing d).blockHash) ∧
      forkChain.lineage.OnBranch 1 1 ∧
      (forkChain.hashes numberHashing 1).transactionHashes = [7, 8] ∧
      (∀ c, forkChain.lineage.OnBranch 1 c →
        7 ∈ (forkChain.hashes numberHashing c).transactionHashes → c = 1) ∧
      locateTransaction forkClient (mappingOf numberHashing forkChain [0, 1, 2]) 7 = .ok none :=
  ⟨forkChain_isTree, forkClient_serves _, by decide, (forkChain_onBranch 1).2 (Or.inr rfl),
    by decide, forkChain_only_block, rfl⟩

end Shadows.Rpc
