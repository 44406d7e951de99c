import Shadows.Rpc.Proofs.PendingTransactionProofs
import Shadows.Rpc.Proofs.RuntimeChainProofs

/-!
# Proofs: the life of a transaction, as `transaction_by_hash` tells it

As long as no synced block contains the transaction, or more than one does, the method shows what is
pending. If a single one does, the method shows what is stored there, provided that the block is canonical.
-/

namespace Shadows.Rpc

open Db MappingSync Consensus Ethereum Foundations

variable {Hash W : Type} [DecidableEq Hash] {cfg : Config W} {chain : Chain Hash}
  {codec : BlockCodec}

/-! ## Databases with the same log -/

section Represents

variable {log : List (MappingCommitment Hash)} {db db' : Database Hash}

theorem loadTransactions_congr (h : Represents log db) (h' : Represents log db') (t : H256) :
    loadTransactions db t = loadTransactions db' t := by
  unfold loadTransactions
  rw [h.transactionMetadata, h'.transactionMetadata]

theorem loadHash_congr (h : Represents log db) (h' : Represents log db')
    (client : HeaderBackend Hash) (e : H256) : loadHash client db e = loadHash client db' e := by
  unfold loadHash
  rw [h.blockHashes, h'.blockHashes]

end Represents

namespace ServesNode

variable {s : SyncState Hash} {best : Hash} {api : BlockApi Hash} {rc : RuntimeChain cfg chain s.tree}
  (h : ServesNode s best api rc)

include h

theorem inv : Inv cfg.hashing chain s := inv_of_reachable (fun _ _ hn => hn.elim) h.reachable

theorem represents : Represents (s.written.map (chain.commitment cfg.hashing)) api.backend :=
  h.backend ▸ h.inv.represents

theorem mem_tree {b : Hash} (hb : Synced s.db b) : b ∈ s.tree :=
  h.inv.written_sub ((h.inv.synced_iff b).1 hb)

/-- The hashes of the transactions of a block are those of the transactions that it has accepted. -/
theorem transactionHashes {b : Hash} (hb : b ∈ s.tree) :
    (chain.hashes cfg.hashing b).transactionHashes =
      (rc.accepted b).map cfg.hashing.transactionHash := by
  obtain ⟨block, hblock, htransactions⟩ := rc.exists_block hb
  rw [rc.hashes_eq hb (h.inv.logged b hb) hblock, ← htransactions]
  rfl

/-- Two blocks with the same Ethereum hash have accepted the same transactions. -/
theorem accepted_eq {b c : Hash} (hb : b ∈ s.tree) (hc : c ∈ s.tree)
    (hbc : (chain.hashes cfg.hashing b).blockHash = (chain.hashes cfg.hashing c).blockHash) :
    rc.accepted b = rc.accepted c := by
  obtain ⟨block, hblock, htransactions⟩ := rc.exists_block hb
  obtain ⟨block', hblock', htransactions'⟩ := rc.exists_block hc
  rw [rc.hashes_eq hb (h.inv.logged b hb) hblock, rc.hashes_eq hc (h.inv.logged c hc) hblock'] at hbc
  rw [← htransactions, ← htransactions',
    h.collisionFree b hb c hc block block' hblock hblock' hbc]

/-! ## The mapping -/

/-- The transaction mapping has nothing to say if not exactly one synced block contains the
transaction. -/
theorem loadTransactions_none {hash : H256}
    (hnot : ∀ b, ¬ OnlyIn cfg.hashing s.db rc.accepted hash b) :
    loadTransactions api.backend hash = .ok none := by
  unfold loadTransactions
  rw [h.represents.transactionMetadata]
  generalize hl : (s.written.map (chain.commitment cfg.hashing)).flatMap (·.entries hash) = l
  match l with
  | [] => rfl
  | _ :: _ :: _ => rfl
  | [m] =>
    -- the block of the single entry would be the only one
    have hm : m ∈ (s.written.map (chain.commitment cfg.hashing)).flatMap (·.entries hash) := by
      rw [hl]
      exact List.mem_singleton_self m
    obtain ⟨c, hc, hmc⟩ := List.mem_flatMap.1 hm
    obtain ⟨b, hb, rfl⟩ := List.mem_map.1 hc
    obtain ⟨i, hi, -⟩ := MappingCommitment.mem_entries.1 hmc
    have hmem : hash ∈ (chain.hashes cfg.hashing b).transactionHashes := by
      obtain ⟨k, -, hk, -⟩ := (lastPosition_eq_some _ 0 i).1 hi
      exact List.mem_of_getElem? hk
    obtain ⟨honly, -⟩ := (metadata_eq_singleton_iff h.inv.nodup hb hmem m).1 hl
    refine absurd ⟨(h.inv.synced_iff b).2 hb, ?_, fun c hsynced hcontains => ?_⟩ (hnot b)
    · rw [← h.transactionHashes (h.inv.written_sub hb)]
      exact hmem
    · rw [← h.transactionHashes (h.mem_tree hsynced)] at hcontains
      exact honly c ((h.inv.synced_iff c).1 hsynced) hcontains

variable {hash : H256} {b : Hash} (hb : OnlyIn cfg.hashing s.db rc.accepted hash b)

include hb

/-- The transaction mapping names the block and the position. -/
theorem loadTransactions_some {i : ℕ} {transaction : Transaction}
    (hi : (rc.accepted b)[i]? = some transaction)
    (hhash : cfg.hashing.transactionHash transaction = hash) :
    loadTransactions api.backend hash =
      .ok (some ((chain.hashes cfg.hashing b).blockHash, .ofNat i)) := by
  have htree := h.mem_tree hb.synced
  have hwritten := (h.inv.synced_iff b).1 hb.synced
  have hlast : lastPosition hash 0 (chain.hashes cfg.hashing b).transactionHashes = some i := by
    rw [h.transactionHashes htree]
    apply lastPosition_of_nodup (h.distinct b htree)
    rw [List.getElem?_map, hi, Option.map_some, hhash]
  have honly : ∀ c ∈ s.written, hash ∈ (chain.hashes cfg.hashing c).transactionHashes → c = b := by
    intro c hc hmem
    rw [h.transactionHashes (h.inv.written_sub hc)] at hmem
    exact hb.only c ((h.inv.synced_iff c).2 hc) hmem
  have hmem : hash ∈ (chain.hashes cfg.hashing b).transactionHashes := by
    rw [h.transactionHashes htree]
    exact hb.mem
  have hentry := (metadata_eq_singleton_iff h.inv.nodup hwritten hmem _).2 ⟨honly, i, hlast, rfl⟩
  rw [loadTransactions_congr h.represents (represents_mappingOf s.written)]
  exact (loadTransactions_eq_some_iff s.written hash _ _).2 ⟨_, hentry, rfl, rfl⟩

/-- Every written block with the Ethereum hash of the block is the block itself. -/
theorem eq_of_blockHash {c : Hash} (hc : c ∈ s.written)
    (hbc : (chain.hashes cfg.hashing c).blockHash = (chain.hashes cfg.hashing b).blockHash) :
    c = b := by
  refine hb.only c ((h.inv.synced_iff c).2 hc) ?_
  rw [h.accepted_eq (h.inv.written_sub hc) (h.mem_tree hb.synced) hbc]
  exact hb.mem

/-- The block is found if it is canonical. -/
theorem loadHash_onBranch (hbranch : chain.lineage.OnBranch best b) :
    loadHash api.client api.backend (chain.hashes cfg.hashing b).blockHash = .ok (some b) := by
  rw [loadHash_congr h.represents (represents_mappingOf s.written),
    loadHash_eq_some_iff h.client h.inv.nodup fun _ => h.inv.written_sub]
  exact ⟨⟨(h.inv.synced_iff b).1 hb.synced, hbranch, rfl⟩, fun c hc _ => h.eq_of_blockHash hb hc⟩

theorem loadHash_offBranch (hbranch : ¬ chain.lineage.OnBranch best b) :
    loadHash api.client api.backend (chain.hashes cfg.hashing b).blockHash = .ok none := by
  rw [loadHash_congr h.represents (represents_mappingOf s.written)]
  obtain ⟨r, hr⟩ := exists_loadHash cfg.hashing chain api.client s.written
    (chain.hashes cfg.hashing b).blockHash
  cases r with
  | none => exact hr
  | some c =>
    obtain ⟨⟨hc, hbranch', hce⟩, -⟩ :=
      (loadHash_eq_some_iff h.client h.inv.nodup (fun _ => h.inv.written_sub) _ c).1 hr
    exact absurd (h.eq_of_blockHash hb hc hce ▸ hbranch') hbranch

/-! ## The answers -/

omit hb in
/-- What is read at a position of a block: the transaction as it was shown while it was pending, with its
place in the block. -/
theorem transactionAt_eq (hcodec : codec.Matches cfg) {c : Hash} (hc : c ∈ s.tree) {block : Block}
    (hblock : (rc.state c).currentBlock = some block) {i : ℕ} {transaction : Transaction}
    (hi : (rc.accepted c)[i]? = some transaction) :
    ∃ creates, (creates.isSome ↔ transaction.action = .create) ∧
      transactionAt codec api (.hash c) ⟨(UInt32.ofNat i).toUInt64⟩ =
        some (some ((transactionBuild codec transaction none none).mined
          (cfg.hashing.headerHash block.header) block.header.number (.ofU32 (.ofNat i)) creates)) := by
  have hrecords := rc.records hc
  obtain ⟨status, receipt, event, source, before, outcome, after, hentry, hstatus, -, ⟨_, -, hat⟩,
    hrecorded⟩ := rc.exists_entry hc hi
  have hlt : i < 2 ^ 32 := (List.getElem?_eq_some_iff.1 hi).1.trans (h.count c hc)
  have hindex : (UInt32.ofNat i).toUInt64.toNat = i := by
    rw [UInt32.toNat_toUInt64, UInt32.toNat_ofNat']
    exact Nat.mod_eq_of_lt hlt
  have hstatuses : api.currentTransactionStatuses (.hash c) =
      some ((rc.state c).pending.map fun entry => entry.2.1) :=
    (h.reads.currentTransactionStatuses c hc).trans hrecords.statuses
  have hread : api.currentBlock (.hash c) = some block := (h.reads.currentBlock c hc).trans hblock
  have hcreates : status.contractAddress.isSome ↔ transaction.action = .create := by
    have hcreated : status.contractAddress = outcome.created := hrecorded.created
    rw [hcreated]
    exact hat.ran.created_iff
  refine ⟨status.contractAddress, hcreates, ?_⟩
  unfold transactionAt
  rw [hread, hstatuses]
  dsimp only
  rw [hindex, transactions_eq_pending hc hblock, List.getElem?_map, List.getElem?_map, hentry,
    ← hstatus]
  exact congrArg (fun built => some (some built)) (transactionBuild_mined hcodec hat.signer hrecorded block)

end ServesNode

/-- **The life of a transaction.** In every state of a node, after every run of its pending transactions:
a transaction that no synced block contains, or more than one, is shown as pending, from the time that the
pool has taken it until a notification names it or its lifespan is over; a transaction that one synced block
contains is shown with its place in it, and otherwise unchanged, if the block is canonical, and not shown if
it is not. -/
theorem transaction_life (hcodec : codec.Matches cfg) {s : SyncState Hash} {best : Hash}
    {api : BlockApi Hash} {rc : RuntimeChain cfg chain s.tree} (h : ServesNode s best api rc)
    {retainThreshold : UInt64} (hthreshold : retainThreshold.toNat + 2 ^ 32 ≤ 2 ^ 64)
    {bestNumber : UInt32} {run : List (PendingEvent × PendingState)}
    (hrun : IsRun (PendingStep codec retainThreshold) (.init bestNumber) run) (hash : H256) :
    let answer := transactionByHash codec api (some (endState (.init bestNumber) run).pending) hash
    ((∀ b, ¬ OnlyIn cfg.hashing s.db rc.accepted hash b) →
      (∀ transaction number,
        StaysPending codec retainThreshold hash (.new codec transaction number) run →
          answer = some (.ok (some (transactionBuild codec transaction none none)))) ∧
      ((∀ entry, ¬ StaysPending codec retainThreshold hash entry run) → answer = some (.ok none))) ∧
    ∀ b, OnlyIn cfg.hashing s.db rc.accepted hash b →
      (¬ chain.lineage.OnBranch best b → answer = some (.ok none)) ∧
      (chain.lineage.OnBranch best b → ∃ i transaction block creates,
        (rc.accepted b)[i]? = some transaction ∧ cfg.hashing.transactionHash transaction = hash ∧
          (rc.state b).currentBlock = some block ∧
          (creates.isSome ↔ transaction.action = .create) ∧
          answer = some (.ok (some ((transactionBuild codec transaction none none).mined
            (cfg.hashing.headerHash block.header) block.header.number (.ofU32 (.ofNat i))
              creates)))) := by
  intro answer
  constructor
  · intro hnot
    have hanswer : answer = some (.ok
        (pendingAnswer (some (endState (.init bestNumber) run).pending) hash)) := by
      show transactionByHash codec api _ hash = _
      unfold transactionByHash
      rw [h.loadTransactions_none hnot]
    unfold pendingAnswer at hanswer
    rw [Option.bind_some] at hanswer
    constructor
    · intro transaction number hstays
      rw [hanswer, (pending_iff hthreshold hrun hash _).2 hstays]
      rfl
    · intro hnone
      have hlookup : (endState (.init bestNumber) run).pending[hash]? = none := by
        rw [Option.eq_none_iff_forall_ne_some]
        exact fun entry hentry => hnone entry ((pending_iff hthreshold hrun hash entry).1 hentry)
      rw [hanswer, hlookup]
      rfl
  · intro b hb
    have htree := h.mem_tree hb.synced
    obtain ⟨transaction, hmem, hhash⟩ := List.mem_map.1 hb.mem
    obtain ⟨i, hi⟩ := List.mem_iff_getElem?.1 hmem
    have hload := h.loadTransactions_some hb hi hhash
    constructor
    · intro hbranch
      show transactionByHash codec api _ hash = _
      unfold transactionByHash
      rw [hload]
      dsimp only
      rw [h.loadHash_offBranch hb hbranch]
    · intro hbranch
      obtain ⟨block, hblock, -⟩ := rc.exists_block htree
      obtain ⟨creates, hcreates, hat⟩ := h.transactionAt_eq hcodec htree hblock hi
      refine ⟨i, transaction, block, creates, hi, hhash, hblock, hcreates, ?_⟩
      show transactionByHash codec api _ hash = _
      unfold transactionByHash
      rw [hload]
      dsimp only
      rw [h.loadHash_onBranch hb hbranch]
      dsimp only
      rw [hat]
      rfl

/-! ## The line -/

theorem smallCodec_matches : smallCodec.Matches countingConfig := ⟨rfl, rfl, rfl, rfl, rfl⟩

theorem lineStates_block (b : Fin 3) : ∃ block, (lineStates b).currentBlock = some block ∧
    block.header.number.val = b.val := by
  match b with
  | 0 => exact ⟨_, rfl, rfl⟩
  | 1 => exact ⟨_, rfl, rfl⟩
  | 2 => exact ⟨_, rfl, rfl⟩

theorem lineAccepted_small (b : Fin 3) :
    ((if b = 2 then [callWithNonce 7] else []).map countingConfig.hashing.transactionHash).Nodup ∧
      (if b = 2 then [callWithNonce 7] else []).length < 2 ^ 32 := by
  match b with
  | 0 => decide
  | 1 => decide
  | 2 => decide

theorem lineServesNode {s : SyncState (Fin 3)} (hs : Reachable numberHashing lineChain NoInterrupt s)
    (htree : s.tree = {2, 1, 0}) :
    ServesNode s 2 (lineNodeApi s.db) (lineRuntimeChain s.tree) where
  reachable := hs
  best_mem := by
    rw [htree]
    decide
  client := by
    rw [htree]
    exact lineHeaders_serves
  backend := rfl
  reads := ⟨fun _ _ => rfl, fun _ _ => rfl, fun _ _ => rfl⟩
  collisionFree := by
    intro b _ c _ block block' hblock hblock' hhash
    obtain ⟨found, hb, hnumber⟩ := lineStates_block b
    obtain ⟨found', hc, hnumber'⟩ := lineStates_block c
    obtain rfl := Option.some.inj (hblock.symm.trans hb)
    obtain rfl := Option.some.inj (hblock'.symm.trans hc)
    have hmod : b.val % 2 ^ 256 = c.val % 2 ^ 256 := by
      rw [← hnumber, ← hnumber']
      exact congrArg BitVec.toNat hhash
    have hbc : b = c := Fin.ext (by omega)
    subst hbc
    exact Option.some.inj (hb.symm.trans hc)
  distinct := fun b _ => (lineAccepted_small b).1
  count := fun b _ => (lineAccepted_small b).2

theorem lineSynced_serves :
    ServesNode lineSynced 2 (lineNodeApi lineSynced.db) (lineRuntimeChain lineSynced.tree) :=
  lineServesNode (lineSynced_reachable NoInterrupt) rfl

theorem lineSubmission_isRun :
    IsRun (PendingStep smallCodec 5) (.init 2) lineSubmission := by
  refine ⟨.submit _ _, ?_, trivial⟩
  exact .answered _ (callWithNonce 9) 2 (.ok ()) (List.mem_singleton_self _)

theorem lineSubmission_stays : StaysPending smallCodec 5 9 (.new smallCodec (callWithNonce 9) 2)
    lineSubmission :=
  ⟨[_], callWithNonce 9, 2, _, _, [], rfl, rfl, rfl, fun _ h => absurd h List.not_mem_nil⟩

theorem transaction_life_line :
    transactionByHash smallCodec (lineNodeApi lineSynced.db)
        (some (endState (.init 2) lineSubmission).pending) 9 =
        some (.ok (some (transactionBuild smallCodec (callWithNonce 9) none none))) ∧
      ∃ found : RpcTransaction,
        transactionByHash smallCodec (lineNodeApi lineSynced.db)
          (some (endState (.init 2) lineSubmission).pending) 7 = some (.ok (some found)) ∧
        found.blockNumber = some 2 := by
  have hlife := fun hash => transaction_life smallCodec_matches lineSynced_serves (by decide)
    lineSubmission_isRun hash
  constructor
  · refine ((hlife 9).1 fun b hb => ?_).1 (callWithNonce 9) 2 lineSubmission_stays
    have hnone : ∀ b : Fin 3, (9 : H256) ∉ ((lineRuntimeChain lineSynced.tree).accepted b).map
        countingConfig.hashing.transactionHash := by decide
    exact hnone b hb.mem
  · have honly : ∀ c : Fin 3, (7 : H256) ∈ ((lineRuntimeChain lineSynced.tree).accepted c).map
        countingConfig.hashing.transactionHash → c = 2 := by decide
    obtain ⟨i, transaction, block, creates, -, -, hblock, -, hanswer⟩ :=
      ((hlife 7).2 2 ⟨rfl, by decide, fun c _ hc => honly c hc⟩).2 (lineChain_onBranch 2)
    refine ⟨_, hanswer, ?_⟩
    have hnumber : block.header.number = 2 := by
      rw [← Option.some.inj hblock]
      rfl
    exact congrArg some hnumber

end Shadows.Rpc
