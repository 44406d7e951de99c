import Shadows.Rpc.Proofs.ReceiptProofs
import Shadows.Ethereum.Proofs.BlockWeightProofs

/-!
# Proofs: cumulative gas

The header of a block sums the used gas in 256 bits, a receipt narrows every value to 32 bits, which
panics for a value that does not fit, and adds them up in 32 bits.
-/

namespace Shadows.Rpc

open Db Ethereum

/-- Over all receipts of a stored block the sum is the gas in the header. -/
theorem StoredBlock.gasOf_take {hashing : Hashing} {block : Block} {receipts : List Receipt}
    {statuses : List TransactionStatus} (h : StoredBlock hashing block receipts statuses) :
    gasOf (receipts.take block.transactions.length) = block.header.gasUsed.val := by
  rw [← h.receipts_length, List.take_length, h.gasUsed]

section Gas

variable {Hash : Type} [DecidableEq Hash] {api : EthApi Hash} {hashing : Hashing} {id : Hash}
  {block : Block} {statuses : List TransactionStatus} {receipts : List Receipt} {hash : H256}
  {index : UInt32}

/-- What `transaction_receipt` answers for a transaction of the block, as far as it is about gas. -/
theorem transactionReceipt_gas (hreads : api.Reads id block statuses receipts)
    (haligned : BlockAligned hashing block receipts statuses)
    (hcount : block.transactions.length < 2 ^ 32)
    (hlocated : locateTransaction api.client api.backend hash = .ok (some (id, index)))
    (hindex : index.toNat < block.transactions.length) :
    ∃ answer : UInt32 → TransactionReceipt,
      api.transactionReceipt hashing hash =
        (cumulativeGas (receipts.take (index.toNat + 1))).map (fun gas => .ok (some (answer gas))) ∧
      ∀ gas, (answer gas).cumulativeGasUsed.val = gas.toNat := by
  obtain ⟨answer, hbuild, hgas, -⟩ := receiptBuild_eq haligned hcount hindex
  refine ⟨answer, ?_, fun gas => ?_⟩
  · rw [EthApi.transactionReceipt_eq hlocated, EthApi.receiptAt_eq hreads, hbuild, Option.map_map,
      Option.map_map]
    rfl
  · rw [hgas]
    rfl

/-- **Cumulative gas.** A transaction of a stored block has a receipt with the exact sum of the gas
used up to it, which for the last transaction is the gas in the header, exactly if the sum fits into
32 bits. -/
theorem cumulativeGasUsed_exact_iff (hreads : api.Reads id block statuses receipts)
    (hstored : StoredBlock hashing block receipts statuses)
    (hcount : block.transactions.length < 2 ^ 32)
    (hlocated : locateTransaction api.client api.backend hash = .ok (some (id, index)))
    (hindex : index.toNat < block.transactions.length) :
    (∃ receipt, api.transactionReceipt hashing hash = some (.ok (some receipt)) ∧
      receipt.cumulativeGasUsed.val = gasOf (receipts.take (index.toNat + 1)) ∧
      (index.toNat + 1 = block.transactions.length →
        receipt.cumulativeGasUsed = block.header.gasUsed)) ↔
      gasOf (receipts.take (index.toNat + 1)) < 2 ^ 32 := by
  obtain ⟨answer, hreceipt, hanswer⟩ :=
    transactionReceipt_gas hreads hstored.toBlockAligned hcount hlocated hindex
  rw [hreceipt, ← cumulativeGas_exact_iff]
  constructor
  · rintro ⟨receipt, hsome, hexact, -⟩
    obtain ⟨gas, hgas, hok⟩ := Option.map_eq_some_iff.1 hsome
    obtain rfl : answer gas = receipt := Option.some.inj (Except.ok.inj hok)
    exact ⟨gas, hgas, (hanswer gas).symm.trans hexact⟩
  · rintro ⟨gas, hgas, hexact⟩
    have hsum : (answer gas).cumulativeGasUsed.val = gasOf (receipts.take (index.toNat + 1)) :=
      (hanswer gas).trans hexact
    refine ⟨answer gas, by rw [hgas]; rfl, hsum, fun hlast => Fin.ext ?_⟩
    rw [hsum, hlast, hstored.gasOf_take]

end Gas

/-! ## Two calls with three thousand million units of gas -/

theorem heavyState_reached : Reached spendingConfig heavyState :=
  .block spendingGenesis _ heavyBlock _ (.genesis 0 0 _ rfl) (fun _ => nofun) rfl

theorem cumulativeGasUsed_exact_iff_heavy :
    ∃ block receipts, heavyState.currentBlock = some block ∧
      heavyState.currentReceipts = some receipts ∧
      ((∃ receipt, (soleBlockApi numberHashing heavyState).transactionReceipt numberHashing 0 =
          some (.ok (some receipt)) ∧
        receipt.cumulativeGasUsed.val = gasOf (receipts.take 1) ∧
        (1 = block.transactions.length → receipt.cumulativeGasUsed = block.header.gasUsed)) ↔
        gasOf (receipts.take 1) < 2 ^ 32) := by
  obtain ⟨block, receipts, statuses, hblock, hreceipts, hstatuses, hstored⟩ :=
    Reached.storedBlock heavyState_reached
  have hlength : block.transactions.length = 3 := by
    rw [← Option.some.inj hblock]
    rfl
  have hlocated : locateTransaction (soleBlockApi numberHashing heavyState).client
      (soleBlockApi numberHashing heavyState).backend 0 = .ok (some ((), 0)) := by decide
  exact ⟨block, receipts, hblock, hreceipts, cumulativeGasUsed_exact_iff
    (soleBlockApi_reads numberHashing hblock hstatuses hreceipts) hstored (by omega) hlocated
    (by rw [hlength]; decide)⟩

/-- The receipt of the second of two calls that have used three thousand million units of gas each
reports less than the first of them has used. The receipt of the next call, which has used five
thousand million, panics. -/
theorem cumulativeGasUsed_wraps :
    RuntimeGas spendingConfig ∧ UsesAtMostLimit spendingConfig.runner ∧
      Reached spendingConfig heavyState ∧ Dispatched spendingConfig normalMaxTotal heavyState ∧
      ∃ receipts, heavyState.currentReceipts = some receipts ∧
        gasOf (receipts.take 2) = 6000000000 ∧
        (∃ receipt, (soleBlockApi numberHashing heavyState).transactionReceipt numberHashing 1 =
          some (.ok (some receipt)) ∧ receipt.transactionIndex = some 1 ∧
          receipt.cumulativeGasUsed.val = 1705032704) ∧
        (soleBlockApi numberHashing heavyState).transactionReceipt numberHashing 2 = none := by
  have hdispatched : Dispatched spendingConfig normalMaxTotal heavyState := by
    refine spendingGenesis_dispatched heavyBlock (fun _ => nofun) ⟨?_, ?_, ?_, trivial⟩ rfl
    · decide
    · decide
    · decide
  refine ⟨spendingConfig_gas, spendingRunner_usesAtMostLimit, heavyState_reached, hdispatched, _,
    rfl, ?_, ?_, rfl⟩
  · decide
  · exact ⟨_, rfl, rfl, by decide⟩

end Shadows.Rpc
