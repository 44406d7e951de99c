import Shadows.Consensus.Proofs.DigestProofs
import Shadows.Ethereum.Proofs.StoreBlockProofs
import Shadows.Rpc.Proofs.LoadHashProofs

/-!
# Proofs: at most one canonical block has a given Ethereum hash

The Ethereum header contains the number of the block, and a branch has one block at each number. So
the single entry that `load_hash` asks for is there whenever any canonical block has the hash.
-/

namespace Shadows.Rpc

open Db MappingSync Foundations Consensus Ethereum

variable {Hash : Type} [DecidableEq Hash] {chain : Chain Hash} {W : Type} {cfg : Config W}

/-- The mapping names a block by the hash of its Ethereum header. -/
theorem EthereumHeader.blockHash {b : Hash} {header : Header}
    (h : EthereumHeader cfg chain b header) :
    (chain.hashes cfg.hashing b).blockHash = cfg.hashing.headerHash header := by
  obtain ⟨mid, st, block, -, hstore, hblock, rfl, hdigest⟩ := h
  unfold Chain.hashes
  by_cases hg : b = chain.genesis
  · rw [if_pos hg] at hdigest ⊢
    rw [hdigest]
  · rw [if_neg hg] at hdigest ⊢
    obtain ⟨hensure, seals, hseals, hheader⟩ := hdigest
    have htrue : decide (b ≠ chain.genesis) = true := decide_eq_true hg
    rw [htrue] at hstore
    obtain ⟨gasUsed, -, hblock', -, -, -, hpost⟩ := storeBlock_spec hstore
    rw [hblock, Option.some.injEq] at hblock'
    subst hblock'
    rw [if_pos rfl] at hpost
    have hlogs : findLog (chain.header b).digest = findLog st.digest := by
      rw [findLog_eq, findLog_eq, hheader, logs_append, logs_seals hseals, List.append_nil]
    obtain ⟨log, hlog⟩ := (ensureLog_ok_iff _).1 hensure
    have hverdict : verdict (logs mid.digest ++ [.post (.hashes
        (Hashes.fromBlock cfg.hashing (buildBlock cfg mid gasUsed)))]) = .ok log := by
      rw [← hlog, findLog_eq, hpost, logs_append]
      rfl
    obtain ⟨-, rfl⟩ := verdict_append_singleton hverdict
    rw [hlogs, hlog]
    rfl

theorem EthereumHeader.number {b : Hash} {header : Header}
    (h : EthereumHeader cfg chain b header) :
    header.number = U256.ofU32 (chain.header b).number := by
  obtain ⟨mid, st, block, hnumber, hstore, hblock, rfl, -⟩ := h
  obtain ⟨gasUsed, -, hblock', -⟩ := storeBlock_spec hstore
  rw [hblock, Option.some.injEq] at hblock'
  rw [hblock', ← hnumber]
  rfl

/-- Two blocks of one branch with the same Ethereum hash are the same block. -/
theorem eq_of_blockHash_eq {tree : Finset Hash} {best : Hash} (htree : chain.lineage.IsTree tree)
    (hbest : best ∈ tree) {eth : Hash → Header}
    (heth : ∀ b ∈ tree, EthereumHeader cfg chain b (eth b))
    (hinj : ∀ b ∈ tree, ∀ c ∈ tree,
      cfg.hashing.headerHash (eth b) = cfg.hashing.headerHash (eth c) → eth b = eth c)
    {b c : Hash} (hb : chain.lineage.OnBranch best b) (hc : chain.lineage.OnBranch best c)
    (h : (chain.hashes cfg.hashing b).blockHash = (chain.hashes cfg.hashing c).blockHash) :
    b = c := by
  have hbt := htree.mem_of_onBranch hbest hb
  have hct := htree.mem_of_onBranch hbest hc
  rw [(heth b hbt).blockHash, (heth c hct).blockHash] at h
  have heq : eth b = eth c := hinj b hbt c hct h
  have hnumber : U256.ofU32 (chain.header b).number = U256.ofU32 (chain.header c).number := by
    rw [← (heth b hbt).number, ← (heth c hct).number, heq]
  apply htree.onBranch_unique hbest hb hc
  show (chain.header b).number.toNat = (chain.header c).number.toNat
  rw [U256.ofU32_injective hnumber]

/-- **Canonical lookup.** On a mapping database in which blocks of the tree are written once each,
`load_hash` finds exactly the written canonical block with the given Ethereum hash, and nothing if
there is none. -/
theorem loadHash_iff {client : HeaderBackend Hash} {tree : Finset Hash} {best : Hash}
    (htree : chain.lineage.IsTree tree) (hbest : best ∈ tree)
    (hc : client.Serves chain tree best) {ws : List Hash} (hnd : ws.Nodup)
    (hsub : ∀ b ∈ ws, b ∈ tree) {eth : Hash → Header}
    (heth : ∀ b ∈ tree, EthereumHeader cfg chain b (eth b))
    (hinj : ∀ b ∈ tree, ∀ c ∈ tree,
      cfg.hashing.headerHash (eth b) = cfg.hashing.headerHash (eth c) → eth b = eth c) (e : H256) :
    (∀ b, loadHash client (mappingOf cfg.hashing chain ws) e = .ok (some b) ↔
      b ∈ ws ∧ chain.lineage.OnBranch best b ∧ (chain.hashes cfg.hashing b).blockHash = e) ∧
    ((∀ b ∈ ws, chain.lineage.OnBranch best b → (chain.hashes cfg.hashing b).blockHash ≠ e) →
      loadHash client (mappingOf cfg.hashing chain ws) e = .ok none) := by
  constructor
  · intro b
    rw [loadHash_eq_some_iff hc hnd hsub]
    constructor
    · exact fun h => h.1
    · intro h
      refine ⟨h, fun c _ hbranch hce => ?_⟩
      have hhash : (chain.hashes cfg.hashing c).blockHash = (chain.hashes cfg.hashing b).blockHash :=
        hce.trans h.2.2.symm
      exact eq_of_blockHash_eq htree hbest heth hinj hbranch h.2.1 hhash
  · intro hnone
    obtain ⟨r, hr⟩ := exists_loadHash cfg.hashing chain client ws e
    cases r with
    | none => exact hr
    | some b =>
      obtain ⟨⟨hb, hbranch, he⟩, -⟩ := (loadHash_eq_some_iff hc hnd hsub e b).1 hr
      exact absurd he (hnone b hb hbranch)

/-- Block `1` is found, and its abandoned fork `2` is not. -/
theorem loadHash_iff_fork :
    loadHash forkClient (mappingOf forkConfig.hashing forkChain [0, 1, 2]) 1 = .ok (some 1) ∧
      loadHash forkClient (mappingOf forkConfig.hashing forkChain [0, 1, 2]) 2 = .ok none := by
  have hnd : [(0 : Fin 3), 1, 2].Nodup := by decide
  have hsub : ∀ b ∈ [(0 : Fin 3), 1, 2], b ∈ ({0, 1, 2} : Finset (Fin 3)) := by decide
  have hhash : ∀ b c : Fin 3, forkConfig.hashing.headerHash (forkHeader b) =
      forkConfig.hashing.headerHash (forkHeader c) → b = c := by decide
  have h := loadHash_iff forkChain_isTree (by decide) (forkClient_serves _) hnd hsub
    (fun b _ => forkChain_ethereumHeader b) (fun b _ c _ he => by rw [hhash b c he])
  refine ⟨((h 1).1 1).2 ⟨by decide, (forkChain_onBranch 1).2 (.inr rfl), rfl⟩, (h 2).2 ?_⟩
  intro b _ hbranch
  rcases (forkChain_onBranch b).1 hbranch with rfl | rfl
  · decide
  · decide

end Shadows.Rpc
