import Shadows.Ethereum.Proofs.IssuanceProofs
import Shadows.Evm.Proofs.GenesisProofs

/-!
# Proofs: the issuance from genesis

What the genesis configuration gives to its accounts is what a chain has left and has burned.
-/

namespace Shadows.Ethereum

open Foundations

variable {S AccountId M : Type} {rt : Runtime S AccountId M} {totalBalance : S → AccountId → ℕ}
  {existing : S → AccountId → Prop} {existentialDeposit : ℕ}

/-- **Issuance from genesis.** After every chain of blocks on a genesis configuration, what all accounts
have and what the executed transactions have cost adds up to what there was before and what the
configuration has given. -/
theorem issuance_from_genesis (hfee : Evm.FeeLaws rt.evm.system totalBalance existing)
    (hmoves : Evm.MoveLaws rt.evm.system totalBalance) (hmeter : MeterLaws rt.executor)
    (hendow : Evm.EndowmentLaws rt.evm.system totalBalance existentialDeposit)
    {accounts : List (H160 × Evm.GenesisAccount)}
    (hfits : ∀ entry ∈ accounts, entry.2.Fits existentialDeposit) {system : S} {total : ℕ}
    (htotal : SumsTo (totalBalance system) total)
    (hissuance : total + Evm.endowment accounts < 2 ^ 128)
    {inputs : List (BlockInput (Evm.World S))} {timestamp : UInt64} {st' : State (Evm.World S)}
    {blocks : List Entries} (hother : OthersSatisfy (KeepsTotal totalBalance) inputs)
    (h : runBlocks rt.ethereum inputs
      (genesisState (Evm.buildGenesis rt.evm accounts system) timestamp) = some (blocks, st')) :
    ∃ charges rest, List.Forall₂ Cost blocks.flatten charges ∧
      rest + charges.sum = total + Evm.endowment accounts ∧
      SumsTo (totalBalance st'.world.system) rest := by
  have hothers : OthersSatisfy (fun effect => ∀ w, Spends totalBalance w [] (effect w)) inputs := by
    intro input hinput effect heffect world total' _ htotal'
    exact ⟨[], total', .nil, Nat.add_zero _, hother input hinput effect heffect world total' htotal'⟩
  have hgenesis := Evm.sumsTo_buildGenesis hendow hfits htotal hissuance
  exact (spends_rule hfee hmoves hmeter).runBlocks inputs hothers h _ hissuance hgenesis

theorem issuance_from_genesis_till :
    ∃ blocks st', runBlocks tillRuntime.ethereum tillBlocks
        (genesisState (Evm.buildGenesis Evm.tillConfig Evm.tillAccounts fun _ => 0) 0) =
          some (blocks, st') ∧
      ∃ charges rest, List.Forall₂ Cost blocks.flatten charges ∧
        rest + charges.sum = 0 + Evm.endowment Evm.tillAccounts ∧ SumsTo st'.world.system rest := by
  obtain ⟨blocks, st', hrun⟩ : ∃ blocks st', runBlocks tillRuntime.ethereum tillBlocks
    (genesisState (Evm.buildGenesis Evm.tillConfig Evm.tillAccounts fun _ => 0) 0) =
      some (blocks, st') := ⟨_, _, rfl⟩
  have hempty : SumsTo (fun _ : H160 => 0) 0 :=
    ⟨Set.finite_empty.subset fun _ h => absurd rfl h, finsum_zero⟩
  exact ⟨blocks, st', hrun, issuance_from_genesis Evm.feeLaws_till Evm.moveLaws_till tillMeter_laws
    Evm.endowmentLaws_till Evm.tillAccounts_fits hempty (by decide) (tillBlocks_others _) hrun⟩

end Shadows.Ethereum
