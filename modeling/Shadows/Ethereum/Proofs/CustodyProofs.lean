import Shadows.Ethereum.RuntimeBlocks
import Shadows.Ethereum.Proofs.CodelessProofs
import Shadows.Evm.Proofs.DispatchProofs
import Shadows.Foundations.Runs

/-!
# Proofs: custody

The balance of an address without code falls only by a transaction that is signed for it, or by a call from
the Substrate account that acts for it.
-/

namespace Shadows.Ethereum

open Foundations

variable {S M : Type} {rt : Runtime S Evm.AccountId32 M} {create2 : Evm.Create2 S}

theorem ensureAddressTruncated_ok {address : H160} {origin : Evm.Origin Evm.AccountId32}
    {who : Evm.AccountId32} (h : Evm.ensureAddressTruncated address origin = .ok who) :
    origin = .signed who ∧ Evm.truncated who = address.asBytes := by
  cases origin with
  | signed signer =>
    simp only [Evm.ensureAddressTruncated] at h
    split_ifs at h with htruncated
    obtain rfl := Except.ok.inj h
    exact ⟨rfl, htruncated⟩
  | root => cases h
  | none => cases h
  | other => cases h

/-- The runtime allows a call to the accounts that begin with the address that it acts for. -/
theorem allows_truncated {origin : Evm.Origin Evm.AccountId32} {c : Evm.PalletCall}
    (h : Evm.Allows (rt.pallet create2) origin c) :
    ∃ who, origin = .signed who ∧ Evm.truncated who = c.address.asBytes := by
  have hcall : ∀ address, Evm.Accepted ((rt.pallet create2).callOrigin address origin) →
      ∃ who, origin = .signed who ∧ Evm.truncated who = address.asBytes := by
    intro address hallowed
    cases horigin : Evm.ensureAddressTruncated address origin with
    | error refused => simp [Runtime.pallet, horigin, Except.map, Evm.Accepted] at hallowed
    | ok who => exact ⟨who, ensureAddressTruncated_ok horigin⟩
  cases c with
  | withdraw address value =>
    obtain ⟨who, hwho⟩ := Evm.Accepted.eq_ok h
    exact ⟨who, ensureAddressTruncated_ok hwho⟩
  | call source target input value gasLimit gasPrice nonce => exact hcall source h
  | create source init value gasLimit gasPrice nonce => exact hcall source h
  | create2 source init salt value gasLimit gasPrice nonce => exact hcall source h

section Custody

variable {address : H160}
  (hsole : ∀ other, rt.evm.intoAccountId other = rt.evm.intoAccountId address → other = address)
  (hlaws : Evm.CustodyLaws rt.evm.system (rt.evm.intoAccountId address))
  (hcaller : Evm.CallerLaws rt.executor create2)
include hsole hlaws hcaller

/-- A transaction that is not accepted from the address takes nothing from it. -/
theorem doTransact_custody {transaction : Transaction} {st st' : State (Evm.World S)}
    {r : Except DispatchError UInt64} (hcodeless : Evm.Codeless address st.world)
    (hnone : ¬ TransactCreates rt address transaction st)
    (hunauthorized : ¬ (RuntimeAction.transact transaction).Authorized rt address st)
    (h : doTransact rt.ethereum transaction st = some (r, st')) :
    balanceOf rt address st.world ≤ balanceOf rt address st'.world := by
  cases r with
  | error e =>
    rw [failed_world (fun who amount s imbalance s' hcall =>
      (hlaws.depositIntoExisting who amount s imbalance s' hcall).1) h]
  | ok weight =>
    obtain ⟨e', herror, -⟩ | ⟨source, R, f, r', hsigner, ⟨hspends, hcreates⟩, hrun, -⟩ :=
      doTransact_ran (fun source _ f => (∀ vicinity world,
            Evm.SpendsOwn source world (f vicinity world)) ∧
          (recoverSigner rt.ethereum transaction = some source → Evm.ExecuteCreates rt.evm address source
            transaction.value transaction.gasLimit.lowU64 (some transaction.gasPrice)
              (some transaction.nonce) f st.world → TransactCreates rt address transaction st))
        (fun source target haction => ⟨fun vicinity world => hcaller.call source target _ _ _ vicinity
          world, transactCreates_call haction⟩)
        (fun source haction => ⟨fun vicinity world => hcaller.create source _ _ _ vicinity world,
          transactCreates_create haction⟩) h
    · cases herror
    · have hsource : source ≠ address := by
        rintro rfl
        exact hunauthorized ⟨hsigner, weight, st', h⟩
      exact Evm.execute_spends hsole hlaws hsource hspends hcodeless
        (fun hcreated => hnone (hcreates hsigner hcreated)) hrun

/-- A step that is not authorized gives the address no code and takes nothing from it. -/
theorem RuntimeStep.keeps {st st' : State (Evm.World S)} {a : RuntimeAction S}
    (hcodeless : Evm.Codeless address st.world) (hnone : ¬ a.Creates rt create2 address st)
    (hspares : a.Spares rt address st) (hunauthorized : ¬ a.Authorized rt address st)
    (h : RuntimeStep rt create2 st a st') :
    Evm.Codeless address st'.world ∧
      balanceOf rt address st.world ≤ balanceOf rt address st'.world := by
  cases a with
  | onInitialize digest timestamp =>
    have hworld := onInitialize_world h
    rw [hworld]
    exact ⟨hcodeless, le_rfl⟩
  | transact transaction =>
    obtain ⟨⟨r, after⟩, hcall, rfl⟩ := Option.map_eq_some_iff.1 h
    exact ⟨doTransact_codeless hcodeless hnone hcall,
      doTransact_custody hsole hlaws hcaller hcodeless hnone hunauthorized hcall⟩
  | dispatch origin c =>
    obtain ⟨⟨result, events, world⟩, hdispatch, rfl⟩ := Option.map_eq_some_iff.1 h
    obtain ⟨hkept, hacts⟩ := Evm.dispatch_custody (rt.pallet create2) hsole hlaws hcaller
      hcodeless hnone hdispatch
    refine ⟨hkept, ?_⟩
    by_contra hfalls
    obtain ⟨haddress, hallows⟩ := hacts (not_le.1 hfalls)
    obtain ⟨who, hsigned, htruncated⟩ := allows_truncated hallows
    exact hunauthorized ⟨who, hsigned, haddress, haddress ▸ htruncated⟩
  | other effect =>
    obtain rfl := Option.some.inj h
    exact ⟨hspares.2 hcodeless, hspares.1⟩
  | onFinalize =>
    have hworld : st'.world = st.world := storeBlock_world h
    rw [hworld]
    exact ⟨hcodeless, le_rfl⟩

/-- **Custody.** If the balance of an address without code has fallen over a run in which no contract is
created there, then a step of the run was a transaction that was accepted from it, or a call from the
account that acts for it. Nobody else can spend it, whatever contracts do and whichever calls are tried. -/
theorem custody {st : State (Evm.World S)} {run : List (RuntimeAction S × State (Evm.World S))}
    (hrun : IsRun (RuntimeStep rt create2) st run) (hcodeless : Evm.Codeless address st.world)
    (hnone : Each (fun st a _ => ¬ a.Creates rt create2 address st) st run)
    (hspares : Each (fun st a _ => a.Spares rt address st) st run)
    (hfalls : balanceOf rt address (endState st run).world < balanceOf rt address st.world) :
    ∃ before a st' after, run = before ++ (a, st') :: after ∧
      a.Authorized rt address (endState st before) := by
  by_contra hnobody
  have hunauthorized : Each (fun st a _ => ¬ a.Authorized rt address st) st run := by
    by_contra hsome
    obtain ⟨before, a, st', after, hsplit, hauthorized⟩ := exists_of_not_each hsome
    exact hnobody ⟨before, a, st', after, hsplit, not_not.1 hauthorized⟩
  have hkept := always_of_invariant
    (P := fun mid => Evm.Codeless address mid.world ∧
      balanceOf rt address st.world ≤ balanceOf rt address mid.world)
    (fun _ _ _ hmid hstep => by
      obtain ⟨⟨⟨hact, hnone⟩, hspares⟩, hunauthorized⟩ := hstep
      obtain ⟨hcodeless', hle⟩ :=
        RuntimeStep.keeps hsole hlaws hcaller hmid.1 hnone hspares hunauthorized hact
      exact ⟨hcodeless', hmid.2.trans hle⟩)
    ⟨hcodeless, le_rfl⟩ (((hrun.and hnone).and hspares).and hunauthorized)
  exact absurd hfalls hkept.endState.2.not_gt

end Custody

theorem walletSystem_custody (who : Evm.AccountId32) : Evm.CustodyLaws walletSystem who where
  incAccountNonce := fun _ _ => rfl
  incConsumers := fun _ _ => rfl
  decConsumers := fun _ _ => rfl
  withdraw := by
    intro other amount s imbalance s' hother h
    simp only [walletSystem] at h
    split_ifs at h with hlow
    obtain ⟨rfl, rfl⟩ := Prod.mk.inj (Option.some.inj h)
    exact Function.update_of_ne hother.symm _ _
  depositIntoExisting := by
    intro other amount s imbalance s' h
    obtain ⟨rfl, rfl⟩ := Prod.mk.inj (Option.some.inj h)
    refine ⟨rfl, ?_⟩
    by_cases hother : who = other
    · subst hother
      exact (Nat.le_add_right _ _).trans (Function.update_self who _ s).ge
    · exact (Function.update_of_ne hother _ s).ge
  transfer := by
    intro source target amount s s' hsource h
    simp only [walletSystem] at h
    split_ifs at h with hlow
    obtain rfl := Option.some.inj h
    have hkept : Function.update s source (s source - amount) who = s who :=
      Function.update_of_ne hsource.symm _ _
    by_cases htarget : who = target
    · subst htarget
      have hgained := Function.update_self who (s who + amount)
        (Function.update s source (s source - amount))
      rw [← hkept] at hgained
      exact ((Nat.le_add_right _ _).trans_eq (congrArg (· + amount) hkept.symm)).trans hgained.ge
    · exact le_trans hkept.ge (Function.update_of_ne htarget _ _).ge
  onUnbalanced := fun _ _ => le_rfl
  dropPositive := fun _ _ => le_rfl

/-- An executor that runs code spends what the contracts have. -/
theorem codeExecutor_caller : Evm.CallerLaws (Evm.codeExecutor walletConfig) walletCreate2 where
  call := by
    intro source target value input gasLimit vicinity world sender receiver amount hmem
    simp only [Evm.codeExecutor] at hmem
    split_ifs at hmem
    · obtain heq | hmem := Evm.mem_codeRun hmem
      · cases heq
      obtain heq | hmem := List.mem_cons.1 hmem
      · exact .inl (Evm.StackOp.transfer.inj heq).1
      · obtain ⟨hcode, -, hsender, -⟩ := Evm.mem_codeOps hmem
        rw [hsender sender receiver amount rfl]
        exact .inr (.inl hcode)
    · exact absurd hmem List.not_mem_nil
  create := by
    intro source value init gasLimit vicinity world sender receiver amount hmem
    simp only [Evm.codeExecutor] at hmem
    split_ifs at hmem
    · obtain heq | hmem := Evm.mem_codeRun hmem
      · cases heq
      simp only [List.mem_cons, reduceCtorEq, Evm.StackOp.transfer.injEq, List.not_mem_nil, or_false,
        false_or] at hmem
      exact .inl hmem.1
    · exact absurd hmem List.not_mem_nil
  create2 := fun _ _ _ _ _ _ _ _ _ _ hmem => absurd hmem List.not_mem_nil

theorem hashedAddressMapping_toNat (address : H160) :
    (Evm.hashedAddressMapping numberHash address).toNat = 1702260026 * 256 ^ 20 + address.toNat := by
  have hlength : address.asBytes.length = 20 := length_bigEndian 20 _
  have haddress : fromBigEndian address.asBytes = address.toNat := by
    unfold H160.asBytes
    rw [fromBigEndian_bigEndian]
    exact Nat.mod_eq_of_lt address.isLt
  have hdata : fromBigEndian (Evm.evmPrefix ++ address.asBytes) =
      1702260026 * 256 ^ 20 + address.toNat := by
    unfold Evm.evmPrefix
    rw [List.cons_append, List.cons_append, List.cons_append, List.cons_append, List.nil_append,
      fromBigEndian_cons, fromBigEndian_cons, fromBigEndian_cons, fromBigEndian_cons, haddress]
    simp only [List.length_cons, hlength, UInt8.toNat_ofNat]
    norm_num
    omega
  unfold Evm.hashedAddressMapping numberHash
  rw [hdata, BitVec.toNat_ofNat]
  have hlt := address.isLt
  omega

theorem hashedAddressMapping_numberHash {other address : H160}
    (h : Evm.hashedAddressMapping numberHash other = Evm.hashedAddressMapping numberHash address) :
    other = address := by
  have heq := congrArg BitVec.toNat h
  rw [hashedAddressMapping_toNat, hashedAddressMapping_toNat] at heq
  exact BitVec.eq_of_toNat_eq (Nat.add_left_cancel heq)

/-- A contract spends what it has; then somebody else is refused the balance of the address `256`, of which
its own account withdraws `3`. -/
theorem custody_wallets :
    ∃ run, IsRun (RuntimeStep walletRuntime walletCreate2) (genesisState tenEach 0) run ∧
      run.map Prod.fst = [contractCall, withdrawal 8, withdrawal 256] ∧
      balanceOf walletRuntime 9 (endState (genesisState tenEach 0) run).world = 7 ∧
      balanceOf walletRuntime 256 (endState (genesisState tenEach 0) run).world = 7 ∧
      ∃ before a st' after, run = before ++ (a, st') :: after ∧
        a.Authorized walletRuntime 256 (endState (genesisState tenEach 0) before) := by
  have hruns : ((runtimeAct walletRuntime walletCreate2 contractCall (genesisState tenEach 0)).bind
      fun st₁ => (runtimeAct walletRuntime walletCreate2 (withdrawal 8) st₁).bind fun st₂ =>
        (runtimeAct walletRuntime walletCreate2 (withdrawal 256) st₂).map fun st₃ =>
          decide (balanceOf walletRuntime 9 st₃.world = 7 ∧
            balanceOf walletRuntime 256 st₃.world = 7)) = some true := by
    decide +kernel
  obtain ⟨st₁, hfirst, hrest⟩ := Option.bind_eq_some_iff.1 hruns
  obtain ⟨st₂, hsecond, hrest⟩ := Option.bind_eq_some_iff.1 hrest
  obtain ⟨st₃, hthird, hbalances⟩ := Option.map_eq_some_iff.1 hrest
  obtain ⟨hcontract, hbalance⟩ := of_decide_eq_true hbalances
  have hrun : IsRun (RuntimeStep walletRuntime walletCreate2) (genesisState tenEach 0)
      [(contractCall, st₁), (withdrawal 8, st₂), (withdrawal 256, st₃)] :=
    ⟨hfirst, hsecond, hthird, trivial⟩
  have hsole : ∀ other, walletRuntime.evm.intoAccountId other = walletRuntime.evm.intoAccountId 256 →
      other = 256 := fun _ => hashedAddressMapping_numberHash
  have hcodeless : Evm.Codeless 256 (genesisState tenEach 0).world := rfl
  have hnone : ¬ contractCall.Creates walletRuntime walletCreate2 256 (genesisState tenEach 0) := by
    rintro ⟨-, price, fee, paid, -, hcreates⟩
    have hsmall := Evm.codeExecutor_call_creates hcreates
    exact absurd hsmall (by decide)
  have hfalls : balanceOf walletRuntime 256 st₃.world <
      balanceOf walletRuntime 256 (genesisState tenEach 0).world := by
    have hstart : balanceOf walletRuntime 256 (genesisState tenEach 0).world = 10 := rfl
    omega
  refine ⟨_, hrun, rfl, hcontract, hbalance, ?_⟩
  exact custody hsole (walletSystem_custody _) codeExecutor_caller hrun hcodeless
    ⟨hnone, fun hcreates => hcreates.2, fun hcreates => hcreates.2, trivial⟩
    ⟨trivial, trivial, trivial, trivial⟩ hfalls

end Shadows.Ethereum
