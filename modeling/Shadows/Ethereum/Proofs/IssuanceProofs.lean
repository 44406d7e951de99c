import Shadows.Ethereum.Proofs.ChainProofs
import Shadows.Evm.Proofs.FeeProofs
import Shadows.Evm.Proofs.FlatProofs
import Mathlib.Algebra.BigOperators.Group.List.Basic
import Mathlib.Data.List.Forall2

/-!
# Proofs: the issuance of a chain

The execution body of a transaction moves balances, so that the total falls by what the withdrawal has
taken and the refund has not given back. Over a chain these costs add up.
-/

namespace Shadows.Ethereum

open Foundations

variable {S AccountId M R : Type} {rt : Runtime S AccountId M} {cfg : Evm.Config S AccountId}
  {totalBalance : S → AccountId → ℕ} {existing : S → AccountId → Prop}

/-! ## One execution -/

/-- A successful execution has cost the gas that it reports, or all of its gas limit if the payer is gone
when the refund is made. -/
theorem execute_cost (hfee : Evm.FeeLaws cfg.system totalBalance existing)
    (hmoves : Evm.MoveLaws cfg.system totalBalance) {exec : Evm.Executor S M} {source : H160}
    {value : U256} {gasLimit : UInt64} {gasPrice nonce : Option U256}
    {f : Evm.Vicinity → Evm.World S → Evm.ExecutorRun R} {world world' : Evm.World S}
    {info : ExecutionInfo R} {total : ℕ} (hmeter : ∀ vicinity world, Metered gasLimit (f vicinity world))
    (htotal : SumsTo (totalBalance world.system) total) (hissuance : total < 2 ^ 128)
    (h : Evm.execute cfg exec source value gasLimit gasPrice nonce f world = some (.ok info, world')) :
    info.usedGas.val ≤ gasLimit.toNat ∧ ∃ charged rest,
      (charged = (gasPrice.getD 0).val * info.usedGas.val ∨
        charged = (gasPrice.getD 0).val * gasLimit.toNat) ∧
      rest + charged = total ∧ SumsTo (totalBalance world'.system) rest := by
  obtain ⟨price, fee, mid, rs, st, after, hprep, hcalls, hcorrect, hinfo, rfl⟩ := Evm.execute_info h
  obtain ⟨rfl, -, -⟩ := Evm.prepare_checks hprep
  obtain ⟨totalFee, rest, hproduct, hsmall, rfl, hrest, hmid⟩ :=
    Evm.prepare_withdraws hfee htotal hprep
  obtain ⟨hle, hfees⟩ := hmeter ⟨gasPrice.getD 0, source⟩ mid
  obtain ⟨usedGas, husedGas⟩ : ∃ usedGas,
    (f ⟨gasPrice.getD 0, source⟩ mid).usedGas = usedGas := ⟨_, rfl⟩
  have hused : info.usedGas = .ofU64 usedGas := by
    rw [hinfo, ← husedGas]
  rw [husedGas] at hle hfees
  have hgas : info.usedGas.val = usedGas.toNat := by rw [hused]; rfl
  have hle' : usedGas.toNat ≤ gasLimit.toNat := hle
  have hactual : (gasPrice.getD 0).val * usedGas.toNat ≤ totalFee.val := by
    rw [hproduct]
    exact Nat.mul_le_mul_left _ hle'
  have hcorrected := hfees (gasPrice.getD 0) (by omega)
  have hlow : ((f ⟨gasPrice.getD 0, source⟩ mid).fee (gasPrice.getD 0)).lowU128 =
      (gasPrice.getD 0).val * usedGas.toNat := by
    rw [← hcorrected]
    exact Nat.mod_eq_of_lt (by omega)
  have hbody := Evm.conserves_of_moves hmoves exec gasLimit f _ _ _ _ _ hmid hcalls
  obtain ⟨refund, hafter, hexisting, hmissing⟩ :=
    Evm.correctAndDepositFee_refunds hfee hbody (by omega) hcorrect
  rw [hlow] at hexisting
  refine ⟨hgas.le.trans hle', totalFee.val - refund, rest + refund, ?_, ?_, ?_⟩
  · rw [hgas, ← hproduct]
    by_cases hex : existing st.storage.current.system (cfg.intoAccountId source)
    · left
      rw [hexisting hex]
      exact Nat.sub_sub_self hactual
    · right
      rw [hmissing hex, Nat.sub_zero]
  · have hrefund : refund ≤ totalFee.val := by
      by_cases hex : existing st.storage.current.system (cfg.intoAccountId source)
      · rw [hexisting hex]
        exact Nat.sub_le _ _
      · rw [hmissing hex]
        exact Nat.zero_le _
    omega
  · exact hafter.congr fun who => Evm.totalBalance_removeDeleted hfee _ _ who

/-! ## A chain -/

/-- From every total that fits into a balance, the executed transactions have taken their costs. -/
def Spends (totalBalance : S → AccountId → ℕ) (world : Evm.World S) (entries : Entries)
    (world' : Evm.World S) : Prop :=
  ∀ total, total < 2 ^ 128 → SumsTo (totalBalance world.system) total →
    ∃ charges rest, List.Forall₂ Cost entries charges ∧ rest + charges.sum = total ∧
      SumsTo (totalBalance world'.system) rest

theorem spends_refl (world : Evm.World S) : Spends totalBalance world [] world :=
  fun total _ htotal => ⟨[], total, .nil, Nat.add_zero total, htotal⟩

theorem spends_trans {world world' world'' : Evm.World S} {entries entries' : Entries}
    (h : Spends totalBalance world entries world') (h' : Spends totalBalance world' entries' world'') :
    Spends totalBalance world (entries ++ entries') world'' := by
  intro total hsmall htotal
  obtain ⟨charges, rest, hcosts, hrest, hmid⟩ := h total hsmall htotal
  obtain ⟨charges', rest', hcosts', hrest', hend⟩ := h' rest (by omega) hmid
  refine ⟨charges ++ charges', rest', List.rel_append hcosts hcosts', ?_, hend⟩
  rw [List.sum_append]
  omega

theorem spends_rule (hfee : Evm.FeeLaws rt.evm.system totalBalance existing)
    (hmoves : Evm.MoveLaws rt.evm.system totalBalance) (hmeter : MeterLaws rt.executor) :
    ChainRule rt.ethereum (Spends totalBalance) where
  refl := spends_refl
  trans := spends_trans
  failed := by
    intro transaction st st' e h
    obtain ⟨e', -, rfl⟩ | ⟨source, R, f, r', -, -, hrun, hend⟩ :=
      doTransact_ran (fun _ _ _ => True) (fun _ _ _ => trivial) (fun _ _ => trivial) h
    · exact spends_refl _
    · obtain ⟨_, e', -, rfl⟩ | ⟨_, _, _, hok, -⟩ := hend
      · have hdeposit := fun who amount s imbalance s' hcall =>
          (hfee.deposit who amount s imbalance s' hcall).1
        rw [(Evm.execute_error hdeposit hrun).2]
        exact spends_refl _
      · cases hok
  executed := by
    intro transaction st st' weight entry h hentry total hsmall htotal
    obtain ⟨e', herror, -⟩ | ⟨source, R, f, r', -, hmetered, hrun, hend⟩ :=
      doTransact_ran (fun _ _ f => ∀ vicinity world,
          Metered transaction.gasLimit.lowU64 (f vicinity world))
        (fun source target _ => hmeter.call source target _ _ _)
        (fun source _ vicinity world =>
          have hrun := hmeter.create source transaction.value transaction.input
            transaction.gasLimit.lowU64 vicinity world
          ⟨hrun.usedGas, hrun.fee⟩) h
    · cases herror
    · obtain ⟨_, _, herror, -⟩ | ⟨_, info, entry', -, rfl, htx, hused, -, hpending⟩ := hend
      · cases herror
      · rw [hentry] at hpending
        obtain rfl : entry = entry' := List.singleton_inj.1 (List.append_cancel_left hpending)
        obtain ⟨hle, charged, rest, hcharged, hrest, hsum⟩ :=
          execute_cost hfee hmoves hmetered htotal hsmall hrun
        refine ⟨[charged], rest, .cons ⟨?_, ?_⟩ .nil, ?_, hsum⟩
        · rw [hused, htx]
          exact hle
        · rw [hused, htx]
          exact hcharged
        · rw [List.sum_singleton]
          exact hrest

/-- **Issuance.** Over a chain of blocks the total of all balances falls by the costs of the executed
transactions, each of which is that of the gas that its receipt shows or of all of its gas limit, and by
nothing else. -/
theorem issuance_falls (hfee : Evm.FeeLaws rt.evm.system totalBalance existing)
    (hmoves : Evm.MoveLaws rt.evm.system totalBalance) (hmeter : MeterLaws rt.executor)
    {inputs : List (BlockInput (Evm.World S))} {st st' : State (Evm.World S)} {blocks : List Entries}
    {total : ℕ} (hother : OthersSatisfy (KeepsTotal totalBalance) inputs)
    (htotal : SumsTo (totalBalance st.world.system) total) (hissuance : total < 2 ^ 128)
    (h : runBlocks rt.ethereum inputs st = some (blocks, st')) :
    ∃ charges rest, List.Forall₂ Cost blocks.flatten charges ∧ rest + charges.sum = total ∧
      SumsTo (totalBalance st'.world.system) rest := by
  have hothers : OthersSatisfy (fun effect => ∀ w, Spends totalBalance w [] (effect w)) inputs := by
    intro input hinput effect heffect world total' _ htotal'
    exact ⟨[], total', .nil, Nat.add_zero _, hother input hinput effect heffect world total' htotal'⟩
  exact (spends_rule hfee hmoves hmeter).runBlocks inputs hothers h total hissuance htotal

theorem tillMeter_laws : MeterLaws tillMeter where
  call := by
    intro source target value input gasLimit vicinity world
    refine ⟨?_, fun price hfits => ?_⟩
    · show tillGas gasLimit ≤ gasLimit
      unfold tillGas
      split_ifs with henough
      · exact henough
      · exact UInt64.le_refl gasLimit
    · have hfits' : price.val * (tillGas gasLimit).toNat < 2 ^ 256 := hfits
      show (price * .ofU64 (tillGas gasLimit) : U256).val = _
      rw [Fin.val_mul]
      exact Nat.mod_eq_of_lt hfits'
  create := by
    intro source value init gasLimit vicinity world
    exact ⟨UInt64.zero_le, fun price _ => (Nat.mul_zero price.val).symm⟩

/-- The account `7` has `10`, of which its transaction costs two or five. -/
theorem issuance_falls_till :
    ∃ blocks st', runBlocks tillRuntime.ethereum tillBlocks (genesisState Evm.onePurse 0) =
        some (blocks, st') ∧
      ∃ charges rest, List.Forall₂ Cost blocks.flatten charges ∧ rest + charges.sum = 10 ∧
        SumsTo st'.world.system rest := by
  obtain ⟨blocks, st', hrun⟩ : ∃ blocks st', runBlocks tillRuntime.ethereum tillBlocks
    (genesisState Evm.onePurse 0) = some (blocks, st') := ⟨_, _, rfl⟩
  exact ⟨blocks, st', hrun, issuance_falls Evm.feeLaws_till Evm.moveLaws_till tillMeter_laws
    (tillBlocks_others _) Evm.onePurse_total (by decide) hrun⟩

end Shadows.Ethereum
