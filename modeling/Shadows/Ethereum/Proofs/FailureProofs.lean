import Shadows.Ethereum.Proofs.ReplayProofs
import Shadows.Evm.Proofs.PaymentProofs

/-!
# Proofs: a failed transaction leaves no trace

The only failure after the fee has been taken is that of the refund, and a refund is never larger
than what has been paid. So every failure comes before anything has changed.
-/

namespace Shadows.Ethereum

variable {S AccountId M : Type} {rt : Runtime S AccountId M}

theorem execute_error
    (hdeposit : ∀ who amount s imbalance s', rt.evm.system.depositIntoExisting who amount s =
      some (imbalance, s') → imbalance = amount)
    {source : H160} {input : Bytes} {value gasLimit : U256} {gasPrice nonce : Option U256}
    {action : TransactionAction} {world world' : Evm.World S} {e : DispatchError}
    (h : execute rt.ethereum source input value gasLimit gasPrice nonce action world =
      some (.error e, world')) : world' = world := by
  obtain ⟨target, r, -, hcall, hout⟩ | ⟨r, -, hcreate, hout⟩ := execute_cases h
  · rw [rt.runner_eq] at hcall
    cases r with
    | error e' => exact (Evm.execute_error hdeposit hcall).2
    | ok res => cases hout
  · rw [rt.runner_eq] at hcreate
    cases r with
    | error e' => exact (Evm.execute_error hdeposit hcreate).2
    | ok res => cases hout

/-- **Failed transactions.** A transaction that `do_transact` refuses, at whatever point, leaves the
state as it was: balances, nonces, code, storage, `Pending` and the events. -/
theorem failed_unchanged
    (hdeposit : ∀ who amount s imbalance s', rt.evm.system.depositIntoExisting who amount s =
      some (imbalance, s') → imbalance = amount)
    {transaction : Transaction} {st st' : State (Evm.World S)} {e : DispatchError}
    (h : doTransact rt.ethereum transaction st = some (.error e, st')) : st' = st := by
  obtain ⟨e', -, rfl⟩ | ⟨source, out, world, -, -, hexecute, hout⟩ := doTransact_outcome h
  · rfl
  · obtain ⟨e', rfl, -, rfl⟩ | ⟨_, _, _, _, _, _, _, _, -, -, -, -, -, hok, -⟩ := hout
    · rw [execute_error hdeposit hexecute]
    · exact absurd hok nofun

/-- A call with a nonce in the future, from an account that could pay for it. -/
theorem failed_unchanged_nonce :
    ∃ st', doTransact ledgerRuntime.ethereum (callWithNonce 5) (funded 50000) =
      some (.error (.evm .invalidNonce), st') ∧ st' = funded 50000 := by
  have hrefused : doTransact ledgerRuntime.ethereum (callWithNonce 5) (funded 50000) =
      some (.error (.evm .invalidNonce), funded 50000) := rfl
  exact ⟨_, hrefused, failed_unchanged Evm.Ledger.depositIntoExisting_amount hrefused⟩

end Shadows.Ethereum
