import Shadows.Ethereum.Proofs.FailureProofs
import Shadows.Ethereum.Proofs.ReplayProofs
import Shadows.Evm.Proofs.ContractProofs

/-!
# Proofs: addresses without code

A transaction gives an address no code unless its run creates a contract there, and one that fails leaves
the other pallets alone.
-/

namespace Shadows.Ethereum

variable {S AccountId M : Type} {rt : Runtime S AccountId M} {address : H160}

/-- A transaction that fails leaves the other pallets alone. -/
theorem failed_world
    (hdeposit : ∀ who amount s imbalance s', rt.evm.system.depositIntoExisting who amount s =
      some (imbalance, s') → imbalance = amount)
    {transaction : Transaction} {st st' : State (Evm.World S)} {e : DispatchError}
    (h : doTransact rt.ethereum transaction st = some (.error e, st')) : st'.world = st.world := by
  obtain ⟨_, -, rfl⟩ | ⟨source, out, world, -, -, hexecute, hout⟩ := doTransact_outcome h
  · rfl
  obtain ⟨_, rfl, -, rfl⟩ | ⟨_, _, _, _, _, _, _, _, -, -, -, -, -, hok, -⟩ := hout
  · exact execute_error hdeposit hexecute
  · cases hok

theorem transactCreates_call {transaction : Transaction} {st : State (Evm.World S)} {source target : H160}
    (haction : transaction.action = .call target)
    (hsigner : recoverSigner rt.ethereum transaction = some source)
    (h : Evm.ExecuteCreates rt.evm address source transaction.value transaction.gasLimit.lowU64
      (some transaction.gasPrice) (some transaction.nonce)
      (rt.executor.transactCall source target transaction.value transaction.input
        transaction.gasLimit.lowU64) st.world) : TransactCreates rt address transaction st := by
  refine ⟨source, hsigner, ?_⟩
  simp only [haction]
  exact h

theorem transactCreates_create {transaction : Transaction} {st : State (Evm.World S)} {source : H160}
    (haction : transaction.action = .create)
    (hsigner : recoverSigner rt.ethereum transaction = some source)
    (h : Evm.ExecuteCreates rt.evm address source transaction.value transaction.gasLimit.lowU64
      (some transaction.gasPrice) (some transaction.nonce)
      (Evm.createOperation rt.executor source transaction.input transaction.value
        transaction.gasLimit.lowU64) st.world) : TransactCreates rt address transaction st := by
  refine ⟨source, hsigner, ?_⟩
  simp only [haction]
  exact h

/-- The address still has no code after a transaction that creates no contract there. -/
theorem doTransact_codeless {transaction : Transaction} {st st' : State (Evm.World S)}
    {r : Except DispatchError UInt64} (hcodeless : Evm.Codeless address st.world)
    (hnone : ¬ TransactCreates rt address transaction st)
    (h : doTransact rt.ethereum transaction st = some (r, st')) : Evm.Codeless address st'.world := by
  obtain ⟨e, -, rfl⟩ | ⟨source, R, f, r', hsigner, hcreates, hrun, -⟩ :=
    doTransact_ran (fun source _ f => recoverSigner rt.ethereum transaction = some source →
        Evm.ExecuteCreates rt.evm address source transaction.value transaction.gasLimit.lowU64
          (some transaction.gasPrice) (some transaction.nonce) f st.world →
            TransactCreates rt address transaction st)
      (fun _ _ haction => transactCreates_call haction)
      (fun _ haction => transactCreates_create haction) h
  · exact hcodeless
  · exact hcodeless.execute (fun hcreated => hnone (hcreates hsigner hcreated)) hrun

end Shadows.Ethereum
