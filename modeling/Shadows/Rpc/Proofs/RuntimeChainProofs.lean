import Shadows.Ethereum.Proofs.DigestAgreementProofs
import Shadows.Ethereum.Proofs.RecordProofs
import Shadows.MappingSync.Proofs.CompletenessProofs
import Shadows.Rpc.Proofs.LocateTransactionProofs
import Shadows.Rpc.Proofs.ReceiptProofs
import Shadows.Rpc.RuntimeChain

/-!
# Proofs: the blocks of a runtime chain

The states of a runtime chain are those of runs of the runtime, one for each branch. The mapping names each
block by the hashes of the Ethereum block that is stored in its state.
-/

namespace Shadows.Rpc

open Db MappingSync Consensus Ethereum Foundations

variable {Hash W : Type} {cfg : Config W} {chain : Chain Hash} {tree : Finset Hash}

namespace RuntimeChain

variable (rc : RuntimeChain cfg chain tree)

/-- The state at a block is reached by the run of its branch, and has its number. -/
theorem reached (htree : chain.lineage.IsTree tree) : ∀ b ∈ tree,
    Reached cfg (rc.state b) ∧ (rc.state b).blockNumber = (chain.header b).number := by
  refine htree.induction (P := fun b => Reached cfg (rc.state b) ∧
    (rc.state b).blockNumber = (chain.header b).number) ?_ ?_
  · obtain ⟨world, timestamp, hstore⟩ := rc.genesis
    refine ⟨.genesis world timestamp _ hstore, ?_⟩
    obtain ⟨-, -, -, -, -, hnumber, -⟩ := storeBlock_spec hstore
    exact hnumber.trans chain.genesis_number.symm
  · rintro b hb hne ⟨hreached, hnumber⟩
    obtain ⟨input, hdigest, hrun⟩ := (rc.child b hb hne).run
    refine ⟨.block _ _ input _ hreached hdigest hrun, ?_⟩
    obtain ⟨mid, hbody, hfin⟩ := runBlock_cases hrun
    obtain ⟨-, hmid, -⟩ := runBody_spec hdigest hbody
    obtain ⟨-, -, -, -, -, hsame, -⟩ := storeBlock_spec hfin
    have hdepth : (chain.header b).number.toNat =
        (chain.header (chain.parent b)).number.toNat + 1 := htree.depth_parent b hb hne
    have hparent : (rc.state (chain.parent b)).blockNumber.toNat =
        (chain.header (chain.parent b)).number.toNat := congrArg UInt32.toNat hnumber
    have hone : (1 : UInt32).toNat = 1 := rfl
    have hlt := (chain.header b).number.toNat_lt
    apply UInt32.toNat_inj.1
    rw [hsame, hmid, UInt32.toNat_add, hparent, hone, hdepth]
    exact Nat.mod_eq_of_lt (by omega)

/-- Every block is stored with the records of its transactions. -/
theorem records {b : Hash} (hb : b ∈ tree) : BlockRecords (rc.accepted b) (rc.state b) := by
  by_cases hne : b = chain.genesis
  · subst hne
    obtain ⟨world, timestamp, hstore⟩ := rc.genesis
    obtain ⟨gasUsed, -, hstate⟩ := storeBlock_eq_some hstore
    rw [rc.accepted_genesis, hstate]
    exact ⟨rfl, rfl, rfl, rfl, fun _ _ => nofun⟩
  · obtain ⟨input, hdigest, hrun⟩ := (rc.child b hb hne).run
    obtain ⟨mid, hbody, hfin⟩ := runBlock_cases hrun
    obtain ⟨-, -, -, hmap, hal⟩ := runBody_spec hdigest hbody
    exact records_of_finalize hmap hal hfin

/-- What is recorded in a block has been executed by the runner. -/
theorem executed {b : Hash} (hb : b ∈ tree) (hne : b ≠ chain.genesis) : ∃ input,
    runBlock cfg input (rc.state (chain.parent b)) = some (rc.accepted b, rc.state b) ∧
    Executed cfg input.extrinsics (rc.state (chain.parent b)).world (rc.state b).pending
      (rc.state b).events (rc.state b).world := by
  obtain ⟨input, hdigest, hrun⟩ := (rc.child b hb hne).run
  obtain ⟨mid, hbody, hfin⟩ := runBlock_cases hrun
  exact ⟨input, hrun, executed_of_finalize (runBody_recorded hdigest hbody) hfin⟩

/-- The Ethereum block of a block. -/
theorem exists_block {b : Hash} (hb : b ∈ tree) :
    ∃ block, (rc.state b).currentBlock = some block ∧ block.transactions = rc.accepted b :=
  Option.map_eq_some_iff.1 (rc.records hb).currentBlock

/-- Every accepted transaction has been executed, and has its records. -/
theorem exists_entry {b : Hash} (hb : b ∈ tree) {i : ℕ} {transaction : Transaction}
    (hi : (rc.accepted b)[i]? = some transaction) :
    ∃ status receipt event source before outcome after,
      (rc.state b).pending[i]? = some (transaction, status, receipt) ∧
      status.transactionIndex = .ofNat i ∧ (rc.state b).events[i]? = some event ∧
      rc.Executes b i transaction source before outcome after ∧
      Recorded cfg source outcome (transaction, status, receipt) event := by
  have hne : b ≠ chain.genesis := by
    rintro rfl
    rw [rc.accepted_genesis] at hi
    cases hi
  have hrecords := rc.records hb
  obtain ⟨input, hrun, hexecuted⟩ := rc.executed hb hne
  rw [← hrecords.transactions, List.getElem?_map, Option.map_eq_some_iff] at hi
  obtain ⟨⟨transaction, status, receipt⟩, hentry, rfl⟩ := hi
  obtain ⟨event, source, before, outcome, after, hevent, hat, hrecorded⟩ := hexecuted.get hentry
  exact ⟨status, receipt, event, source, before, outcome, after, hentry, hrecords.index i _ hentry,
    hevent, ⟨input, hrun, hat⟩, hrecorded⟩

variable [DecidableEq Hash]

/-- The mapping names a block by the hashes of the block that the runtime has stored. -/
theorem hashes_eq {b : Hash} (hb : b ∈ tree)
    (hlogged : b ≠ chain.genesis → ∃ log, findLog (chain.header b).digest = .ok log) {block : Block}
    (hblock : (rc.state b).currentBlock = some block) :
    chain.hashes cfg.hashing b = Hashes.fromBlock cfg.hashing block := by
  unfold Chain.hashes
  by_cases hne : b = chain.genesis
  · subst hne
    rw [if_pos rfl]
    obtain ⟨block', hblock', htransactions⟩ := rc.exists_block hb
    rw [hblock, Option.some.injEq] at hblock'
    subst hblock'
    have hgenesis := rc.genesisBlock
    rw [hblock, Option.some.injEq] at hgenesis
    rw [rc.accepted_genesis] at htransactions
    unfold Hashes.fromBlock
    rw [htransactions, hgenesis]
    rfl
  · rw [if_neg hne]
    obtain ⟨input, hdigest, hrun⟩ := (rc.child b hb hne).run
    obtain ⟨seals, hseals, hheader⟩ := (rc.child b hb hne).digest
    obtain ⟨log, hlog⟩ := hlogged hne
    obtain ⟨mid, hbody, hfin⟩ := runBlock_cases hrun
    have hmid : NoPreLog mid.digest := by
      rw [(runBody_spec hdigest hbody).1]
      exact hdigest
    have hsame : findLog (chain.header b).digest = findLog (rc.state b).digest := by
      rw [findLog_eq, findLog_eq, hheader, logs_append, logs_seals hseals, List.append_nil]
    rw [hsame] at hlog
    obtain ⟨log', block', hlog', hblock', hhashes⟩ :=
      digestAgrees_noPreLog hmid hfin ((ensureLog_ok_iff _).2 ⟨log, hlog⟩)
    rw [hblock, Option.some.injEq] at hblock'
    subst hblock'
    rw [hsame, hlog']
    exact hhashes

end RuntimeChain

theorem transactions_eq_pending {rc : RuntimeChain cfg chain tree} {b : Hash} (hb : b ∈ tree)
    {block : Block} (hblock : (rc.state b).currentBlock = some block) :
    block.transactions = (rc.state b).pending.map fun entry => entry.1 := by
  have hrecords := rc.records hb
  have hmap := hrecords.currentBlock
  rw [hblock, Option.map_some, Option.some.injEq] at hmap
  rw [hmap, hrecords.transactions]

/-! ## A transaction before and in a block -/

/-- **Pending and mined.** What is shown of a transaction in a block is what was shown of it while it was
pending, with its place and the contract it has created. -/
theorem transactionBuild_mined {codec : BlockCodec} (hcodec : codec.Matches cfg)
    {transaction : Transaction} {status : TransactionStatus} {receipt : Receipt}
    {event : Ethereum.Event} {source : H160} {outcome : Outcome}
    (hsigner : recoverSigner cfg transaction = some source)
    (h : Recorded cfg source outcome (transaction, status, receipt) event) (block : Block) :
    transactionBuild codec transaction (some block) (some status) =
      (transactionBuild codec transaction none none).mined (cfg.hashing.headerHash block.header)
        block.header.number (.ofU32 status.transactionIndex) status.contractAddress := by
  have hfrom : (transactionBuild codec transaction none none).from = status.from := by
    have hstatus : status.from = source := h.signer
    rw [hstatus]
    unfold recoverSigner at hsigner
    rw [Option.map_eq_some_iff] at hsigner
    obtain ⟨pubkey, hpubkey, hfrom⟩ := hsigner
    have hkey : publicKey codec transaction = some pubkey := by
      unfold publicKey
      rw [hcodec.recover, hcodec.standardV, hcodec.messageHash]
      exact hpubkey
    unfold transactionBuild
    dsimp only
    rw [hkey, hcodec.keccak256]
    exact hfrom
  have hto : (transactionBuild codec transaction none none).to = status.to := by
    have htarget : status.to = transaction.action.target := h.target
    rw [htarget]
    unfold transactionBuild
    cases transaction.action <;> rfl
  unfold RpcTransaction.mined
  rw [hfrom, hto, ← hcodec.hashing]
  rfl

end Shadows.Rpc
