import Shadows.Ethereum.ValidateUnsigned
import Shadows.Evm.Proofs.PaymentProofs

/-!
# Proofs: what the pool lets through can be executed

The balance of an account is below `2 ^ 128`, so that a payment it covers has not saturated, and the
payment of the execution, for the lower 64 bits of the gas limit, is no larger.
-/

namespace Shadows.Ethereum

open Consensus

variable {S AccountId M : Type} {rt : Runtime S AccountId M} {ids : ChainIds}

/-! ## The checks of the pool -/

/-- What has been checked of a valid transaction, and its tags. -/
theorem validateUnsigned_ok {transaction : Transaction} {st : State (Evm.World S)}
    {valid : ValidTransaction}
    (h : validateUnsigned rt ids (.transact transaction) st = .ok valid) :
    ∃ origin, recoverSigner rt.ethereum transaction = some origin ∧
      (Evm.accountBasic rt.evm st.world origin).nonce ≤ transaction.nonce ∧
      transaction.value.saturatingAdd (transaction.gasPrice.saturatingMul transaction.gasLimit) ≤
        (Evm.accountBasic rt.evm st.world origin).balance ∧
      rt.evm.minGasPrice st.world ≤ transaction.gasPrice ∧
      valid.provides = [(origin, transaction.nonce)] ∧
      ((Evm.accountBasic rt.evm st.world origin).nonce < transaction.nonce →
        ∃ previous : U256, previous.val + 1 = transaction.nonce.val ∧
          valid.requires = [(origin, previous)]) := by
  unfold validateUnsigned at h
  dsimp only at h
  split at h
  · cases h
  · split at h
    · cases h
    · rename_i origin hsigner
      split at h
      · cases h
      · rename_i hstale
        split at h
        · cases h
        · rename_i hbalance
          split at h
          · cases h
          · rename_i hprice
            rw [Except.ok.injEq] at h
            subst h
            refine ⟨origin, hsigner, not_lt.1 hstale, not_lt.1 hbalance, not_lt.1 hprice, rfl,
              fun hfuture => ?_⟩
            -- a nonce above that of the account has a predecessor
            have hpred : (1 : U256).val ≤ transaction.nonce.val := by
              have hlt : (Evm.accountBasic rt.evm st.world origin).nonce.val <
                transaction.nonce.val := hfuture
              show 1 ≤ _
              omega
            refine ⟨⟨transaction.nonce.val - 1, by have := transaction.nonce.isLt; omega⟩,
              Nat.sub_add_cancel hpred, ?_⟩
            simp only [if_pos hfuture, U256.checkedSub, if_pos hpred]
            rfl

/-- What has been checked of a transaction that is valid and ready. -/
theorem validateUnsigned_ready {transaction : Transaction} {st : State (Evm.World S)}
    {valid : ValidTransaction} (h : validateUnsigned rt ids (.transact transaction) st = .ok valid)
    (hready : valid.requires = []) :
    ∃ origin, recoverSigner rt.ethereum transaction = some origin ∧
      (Evm.accountBasic rt.evm st.world origin).nonce = transaction.nonce ∧
      transaction.value.saturatingAdd (transaction.gasPrice.saturatingMul transaction.gasLimit) ≤
        (Evm.accountBasic rt.evm st.world origin).balance ∧
      rt.evm.minGasPrice st.world ≤ transaction.gasPrice := by
  obtain ⟨origin, hsigner, hstale, hbalance, hprice, -, hrequires⟩ := validateUnsigned_ok h
  refine ⟨origin, hsigner, le_antisymm hstale (not_lt.1 fun hfuture => ?_), hbalance, hprice⟩
  obtain ⟨previous, -, hprevious⟩ := hrequires hfuture
  rw [hready] at hprevious
  cases hprevious

/-- A payment that a balance covers has not saturated. -/
theorem payment_of_saturating {value gasPrice gasLimit balance : U256}
    (hbalance : balance.val < 2 ^ 128)
    (h : value.saturatingAdd (gasPrice.saturatingMul gasLimit) ≤ balance) :
    value.val + gasPrice.val * gasLimit.val ≤ balance.val := by
  have hle : min (value.val + min (gasPrice.val * gasLimit.val) (2 ^ 256 - 1)) (2 ^ 256 - 1) ≤
    balance.val := h
  omega

/-! ## Execution in the pallet -/

theorem execute_of_payment
    (hdeposit : ∀ who amount s imbalance s', rt.evm.system.depositIntoExisting who amount s =
      some (imbalance, s') → imbalance = amount)
    {source : H160} {value gasPrice gasLimit : U256} (input : Bytes) (action : TransactionAction)
    {world : Evm.World S} (hprice : rt.evm.minGasPrice world ≤ gasPrice)
    (hpay : value.val + gasPrice.val * gasLimit.val ≤
      (Evm.accountBasic rt.evm world source).balance.val)
    (hwithdraw : ∀ amount,
      amount ≤ rt.evm.system.freeBalance world.system (rt.evm.intoAccountId source) →
        (rt.evm.system.withdraw (rt.evm.intoAccountId source) amount world.system).isSome) :
    ∃ result world', execute rt.ethereum source input value gasLimit (some gasPrice)
      (some (Evm.accountBasic rt.evm world source).nonce) action world =
        some (.ok result, world') := by
  obtain ⟨fee, mid, hprep⟩ := Evm.prepare_of_payment hprice hpay hwithdraw
  unfold execute
  rw [rt.runner_eq]
  cases action with
  | call target =>
    obtain ⟨info, after, hexec⟩ := Evm.execute_of_prepare hdeposit rt.executor
      (rt.executor.transactCall source target value input gasLimit.lowU64) hprep
    simp only [stackRunner, Evm.call, hexec]
    exact ⟨_, _, rfl⟩
  | create =>
    obtain ⟨info, after, hexec⟩ := Evm.execute_of_prepare hdeposit rt.executor
      (Evm.createOperation rt.executor source input value gasLimit.lowU64) hprep
    simp only [stackRunner, Evm.create, hexec]
    exact ⟨_, _, rfl⟩

/-- **Validity implies execution.** A transaction that the pool finds valid and that requires no tag
is accepted by `do_transact` on the same state. -/
theorem validated_executes
    (hdeposit : ∀ who amount s imbalance s', rt.evm.system.depositIntoExisting who amount s =
      some (imbalance, s') → imbalance = amount)
    {transaction : Transaction} {st : State (Evm.World S)} {valid : ValidTransaction}
    (hwithdraw : ∀ who amount, amount ≤ rt.evm.system.freeBalance st.world.system who →
      (rt.evm.system.withdraw who amount st.world.system).isSome)
    (hno : NoPreLog st.digest)
    (h : validateUnsigned rt ids (.transact transaction) st = .ok valid)
    (hready : valid.requires = []) :
    ∃ weight st', doTransact rt.ethereum transaction st = some (.ok weight, st') := by
  obtain ⟨origin, hsigner, hnonce, hbalance, hprice⟩ := validateUnsigned_ready h hready
  have hpay := payment_of_saturating (Evm.accountBasic_balance_lt st.world origin) hbalance
  obtain ⟨result, world', hexec⟩ := execute_of_payment hdeposit transaction.input
    transaction.action hprice hpay (hwithdraw _)
  obtain ⟨«to», contractAddress, info⟩ := result
  rw [hnonce] at hexec
  unfold doTransact
  cases hpre : findPreLog st.digest with
  | ok log => exact absurd hpre (hno log)
  | error e =>
    simp only [hsigner, hexec]
    exact ⟨_, _, rfl⟩

theorem validated_executes_funded :
    ∃ weight st', doTransact ledgerRuntime.ethereum (callWithNonce 0) (funded 50000) =
      some (.ok weight, st') := by
  have hno : NoPreLog (funded 50000).digest := fun _ => nofun
  have hconsumers : ∀ who, ((funded 50000).world.system who).consumers = 0 := by
    intro who
    show (Function.update (fun _ => (⟨0, 0, 0⟩ : Evm.LedgerAccount)) caller ⟨0, 0, 50000⟩ who).consumers
      = 0
    by_cases hwho : who = caller
    · rw [hwho, Function.update_self]
    · rw [Function.update_of_ne hwho]
  have hvalid : validateUnsigned ledgerRuntime ledgerChainIds (.transact (callWithNonce 0))
      (funded 50000) = .ok ⟨[], [(caller, 0)]⟩ := rfl
  exact validated_executes Evm.Ledger.depositIntoExisting_amount
    (Evm.Ledger.withdraw_isSome _ hconsumers) hno hvalid rfl

end Shadows.Ethereum
