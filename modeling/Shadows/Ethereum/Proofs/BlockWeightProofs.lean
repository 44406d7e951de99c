import Shadows.Ethereum.BlockWeights
import Shadows.Ethereum.Proofs.DigestAgreementProofs

/-!
# Proofs: the gas of a block is bounded by its weight

The gas used by the transactions in `Pending` is at most the weight consumed so far, and that stays
within the limit of the dispatch class. The gas limit in the header is smaller and plays no part.
-/

namespace Shadows.Ethereum

open Consensus

variable {W : Type} {cfg : Config W}

/-- The gas used by the transactions in `Pending`. -/
def pendingGas (st : State W) : ℕ := (st.pending.map fun p => p.2.2.usedGas.val).sum

/-! ## One transaction -/

/-- The gas that an executed call or creation has used. -/
def CallOrCreateInfo.usedGas : CallOrCreateInfo → U256
  | .call info => info.usedGas
  | .create info => info.usedGas

theorem summarize_usedGas (cfg : Config W) (source : H160) (transactionHash : H256)
    (transactionIndex : UInt32) («to» : Option H160) (info : CallOrCreateInfo) :
    (summarize cfg source transactionHash transactionIndex «to» info).2.2 =
      CallOrCreateInfo.usedGas info := by
  cases info with
  | call info => rfl
  | create info => rfl

theorem execute_usedGas (hused : UsesAtMostLimit cfg.runner) {source : H160} {input : Bytes}
    {value gasLimit : U256} {gasPrice nonce : Option U256} {action : TransactionAction}
    {world world' : W} {«to» contractAddress : Option H160} {info : CallOrCreateInfo}
    (h : execute cfg source input value gasLimit gasPrice nonce action world =
      some (.ok («to», contractAddress, info), world')) :
    (CallOrCreateInfo.usedGas info).val ≤ gasLimit.lowU64.toNat := by
  obtain ⟨target, r, -, hcall, hout⟩ | ⟨r, -, hcreate, hout⟩ := execute_cases h
  · cases r with
    | error e => cases hout
    | ok res =>
      cases hout
      exact hused.call _ _ _ _ _ _ _ _ _ _ hcall
  · cases r with
    | error e => cases hout
    | ok res =>
      cases hout
      exact hused.create _ _ _ _ _ _ _ _ _ hcreate

/-- What a transaction adds to the gas of `Pending`: nothing, or the gas that its weight is computed
from. -/
theorem doTransact_gas (hused : UsesAtMostLimit cfg.runner) {transaction : Transaction}
    {st st' : State W} {r : Except DispatchError UInt64}
    (h : doTransact cfg transaction st = some (r, st')) :
    pendingGas st' = pendingGas st ∨
      ∃ usedGas : U256, r = .ok (cfg.gasToWeight usedGas.saturatedU64) ∧
        usedGas.val ≤ transaction.gasLimit.lowU64.toNat ∧
        pendingGas st' = pendingGas st + usedGas.val := by
  obtain ⟨e, -, rfl⟩ | ⟨source, out, world, -, -, hexec, hout⟩ := doTransact_outcome h
  · exact .inl rfl
  · obtain ⟨e, -, -, rfl⟩ | ⟨«to», contractAddress, info, reason, status, usedGas, receipt, events,
      rfl, hsummary, hreceipt, -, -, rfl, rfl⟩ := hout
    · exact .inl rfl
    · have hgas : usedGas = CallOrCreateInfo.usedGas info := by
        have hspec := summarize_usedGas cfg source (cfg.hashing.transactionHash transaction)
          (UInt32.ofNat st.pending.length) «to» info
        rwa [hsummary] at hspec
      refine .inr ⟨usedGas, rfl, ?_, ?_⟩
      · rw [hgas]
        exact execute_usedGas hused hexec
      · unfold pendingGas
        rw [List.map_append, List.sum_append]
        simp only [List.map_cons, List.map_nil, List.sum_cons, List.sum_nil, Nat.add_zero, hreceipt]

theorem lowU64_le_saturatedU64 (a : U256) : a.lowU64.toNat ≤ a.saturatedU64.toNat := by
  unfold U256.lowU64 U256.saturatedU64
  rw [UInt64.toNat_ofNat', UInt64.toNat_ofNat']
  omega

/-- A dispatch is charged at least the gas it adds, and at most what it has declared. -/
theorem doTransact_charged (hgas : RuntimeGas cfg) (hused : UsesAtMostLimit cfg.runner)
    {transaction : Transaction} {st st' : State W} {r : Except DispatchError UInt64}
    (h : doTransact cfg transaction st = some (r, st')) :
    pendingGas st' ≤ pendingGas st + chargedWeight (declaredWeight cfg transaction) r ∧
      chargedWeight (declaredWeight cfg transaction) r ≤
        (declaredWeight cfg transaction).toNat := by
  have hle : chargedWeight (declaredWeight cfg transaction) r ≤
      (declaredWeight cfg transaction).toNat := by
    cases r with
    | ok actual => exact min_le_right _ _
    | error e => exact le_refl _
  refine ⟨?_, hle⟩
  rcases doTransact_gas hused h with hsame | ⟨usedGas, rfl, hlow, hadded⟩
  · omega
  · -- the gas used is below `2 ^ 64`, so that its weight is exact
    have hdeclared := lowU64_le_saturatedU64 transaction.gasLimit
    have hlt := transaction.gasLimit.lowU64.toNat_lt
    have hactual : (cfg.gasToWeight usedGas.saturatedU64).toNat = usedGas.val := by
      rw [hgas.gasToWeight]
      unfold U256.saturatedU64
      rw [UInt64.toNat_ofNat']
      omega
    have hcharged : chargedWeight (declaredWeight cfg transaction)
        (.ok (cfg.gasToWeight usedGas.saturatedU64)) = usedGas.val := by
      unfold chargedWeight declaredWeight
      dsimp only
      rw [hactual, hgas.gasToWeight]
      omega
    omega

/-! ## One block -/

/-- The gas of `Pending` and the limit, through the extrinsics of a block. -/
theorem runExtrinsics_gas (hgas : RuntimeGas cfg) (hused : UsesAtMostLimit cfg.runner) {limit : ℕ}
    (extrinsics : List (Extrinsic W)) : ∀ {consumed : ℕ} {st st' : State W}
      {accepted : List Transaction}, pendingGas st ≤ consumed → consumed ≤ limit →
        Admitted cfg limit consumed extrinsics st →
          runExtrinsics cfg extrinsics st = some (accepted, st') → pendingGas st' ≤ limit := by
  induction extrinsics with
  | nil =>
    intro consumed st st' accepted hle hlimit _ h
    simp only [runExtrinsics, Option.some.injEq, Prod.mk.injEq] at h
    obtain ⟨-, rfl⟩ := h
    exact le_trans hle hlimit
  | cons extrinsic rest ih =>
    intro consumed st st' accepted hle hlimit hadmitted h
    cases extrinsic with
    | other effect =>
      have hsame : pendingGas ({ st with world := effect st.world } : State W) ≤ consumed := hle
      exact ih hsame hlimit hadmitted h
    | transact transaction =>
      obtain ⟨hfits, hrest⟩ := hadmitted
      obtain ⟨r, mid, hcall, hrun⟩ := runExtrinsics_transact h
      obtain ⟨hadded, hcharged⟩ := doTransact_charged hgas hused hcall
      simp only [hcall] at hrest
      have hmid : pendingGas mid ≤
        consumed + chargedWeight (declaredWeight cfg transaction) r := by omega
      have hlimit' : consumed + chargedWeight (declaredWeight cfg transaction) r ≤ limit := by
        omega
      obtain ⟨e, rfl, hlast⟩ | ⟨weight, accepted', rfl, -, hlast⟩ := hrun
      · exact ih hmid hlimit' hrest hlast
      · exact ih hmid hlimit' hrest hlast

theorem onInitialize_pending {st st' : State W} (h : onInitialize cfg st = some st') :
    st'.pending = [] := by
  unfold onInitialize at h
  cases hpre : findPreLog st.digest with
  | error e =>
    simp only [hpre, Option.some.injEq] at h
    rw [← h]
  | ok log =>
    obtain ⟨block⟩ := log
    simp only [hpre] at h
    have hpre' : findPreLog ({ st with pending := [] } : State W).digest = .ok (.block block) := hpre
    obtain ⟨-, rfl⟩ := executePreLog_eq_some hpre' h
    rfl

theorem runBody_gas (hgas : RuntimeGas cfg) (hused : UsesAtMostLimit cfg.runner) {limit : ℕ}
    {input : BlockInput W} {st mid : State W} {accepted : List Transaction}
    (hadmitted : ∀ start, onInitialize cfg (initializeBlock input st) = some start →
      Admitted cfg limit 0 input.extrinsics start)
    (h : runBody cfg input st = some (accepted, mid)) : pendingGas mid ≤ limit := by
  unfold runBody at h
  rw [Option.bind_eq_some_iff] at h
  obtain ⟨start, hinit, hrun⟩ := h
  have hzero : pendingGas start ≤ 0 := by
    unfold pendingGas
    rw [onInitialize_pending hinit]
    exact le_refl _
  exact runExtrinsics_gas hgas hused input.extrinsics hzero (Nat.zero_le _)
    (hadmitted start hinit) hrun

/-- The header that `store_block` makes: the gas of `Pending`, and the limit of the runtime. -/
theorem storeBlock_gas (hgas : RuntimeGas cfg) {postLog : Bool} {st st' : State W}
    (h : storeBlock cfg postLog st = some st') :
    ∃ block, st'.currentBlock = some block ∧ block.header.gasUsed.val = pendingGas st ∧
      block.header.gasLimit = runtimeBlockGasLimit := by
  obtain ⟨gasUsed, htotal, hblock, -⟩ := storeBlock_spec h
  refine ⟨_, hblock, ?_, hgas.blockGasLimit st.world⟩
  show gasUsed.val = pendingGas st
  rw [totalGas_eq htotal, List.map_map]
  rfl

/-- **Gas of a block.** After every block of a run whose transactions are admitted, the gas used is
at most the weight limit of normal dispatches. -/
theorem gasUsed_le_normalMaxTotal (hgas : RuntimeGas cfg) (hused : UsesAtMostLimit cfg.runner)
    {st : State W} (hst : Dispatched cfg normalMaxTotal st) :
    ∃ block, st.currentBlock = some block ∧ block.header.gasUsed.val ≤ normalMaxTotal ∧
      block.header.gasLimit = runtimeBlockGasLimit := by
  cases hst with
  | genesis world timestamp _ hstore =>
    obtain ⟨block, hblock, hused', hlimit⟩ := storeBlock_gas hgas hstore
    refine ⟨block, hblock, ?_, hlimit⟩
    rw [hused']
    exact Nat.zero_le _
  | block st _ input accepted _ hadmitted hrun =>
    obtain ⟨mid, hbody, hfin⟩ := runBlock_cases hrun
    obtain ⟨block, hblock, hused', hlimit⟩ := storeBlock_gas hgas hfin
    refine ⟨block, hblock, ?_, hlimit⟩
    rw [hused']
    exact runBody_gas hgas hused hadmitted hbody

/-! ## Spending it all -/

theorem spendingConfig_gas : RuntimeGas spendingConfig where
  gasToWeight := fun _ => rfl
  blockGasLimit := fun _ => rfl

theorem spendingRunner_usesAtMostLimit : UsesAtMostLimit spendingConfig.runner where
  call := by
    intro source target input value gasLimit gasPrice nonce world info world' h
    have hcall : some ((.ok ⟨.succeed, [], .ofU64 gasLimit, []⟩ :
        Except EvmError (ExecutionInfo Bytes)), world) = some (.ok info, world') := h
    simp only [Option.some.injEq, Prod.mk.injEq, Except.ok.injEq] at hcall
    rw [← hcall.1]
    exact le_refl _
  create := by
    intro source init value gasLimit gasPrice nonce world info world' h
    have hcall : some ((.error .balanceLow : Except EvmError (ExecutionInfo H160)), world) =
      some (.ok info, world') := h
    simp only [Option.some.injEq, Prod.mk.injEq, reduceCtorEq, false_and] at hcall

/-- The first block after the genesis block, if it has no pre-log and its transactions are
admitted. -/
theorem spendingGenesis_dispatched (input : BlockInput ℕ) {accepted : List Transaction}
    {st : State ℕ} (hdigest : NoPreLog input.digest)
    (hadmitted : Admitted spendingConfig normalMaxTotal 0 input.extrinsics
      { initializeBlock input spendingGenesis with pending := [] })
    (hrun : runBlock spendingConfig input spendingGenesis = some (accepted, st)) :
    Dispatched spendingConfig normalMaxTotal st := by
  have hgenesis : Dispatched spendingConfig normalMaxTotal spendingGenesis := .genesis 0 0 _ rfl
  refine .block spendingGenesis st input accepted hgenesis (fun start hstart => ?_) hrun
  have hinit : onInitialize spendingConfig (initializeBlock input spendingGenesis) =
      some { initializeBlock input spendingGenesis with pending := [] } :=
    onInitialize_noPreLog hdigest
  rw [hinit, Option.some.injEq] at hstart
  rw [← hstart]
  exact hadmitted

theorem expensiveState_dispatched : Dispatched spendingConfig normalMaxTotal expensiveState := by
  refine spendingGenesis_dispatched expensiveBlock (fun _ => nofun) ⟨?_, ?_, trivial⟩ rfl
  · decide
  · decide

theorem gasUsed_le_normalMaxTotal_expensive :
    ∃ block, expensiveState.currentBlock = some block ∧ block.header.gasUsed.val ≤ normalMaxTotal ∧
      block.header.gasLimit = runtimeBlockGasLimit :=
  gasUsed_le_normalMaxTotal spendingConfig_gas spendingRunner_usesAtMostLimit
    expensiveState_dispatched

/-- Two calls that use three thousand million units of gas each fit into one block, whose header then
says that more gas has been used than its limit allows. -/
theorem gasUsed_exceeds_gasLimit :
    RuntimeGas spendingConfig ∧ UsesAtMostLimit spendingConfig.runner ∧
      Dispatched spendingConfig normalMaxTotal expensiveState ∧
      ∃ block, expensiveState.currentBlock = some block ∧
        block.header.gasLimit < block.header.gasUsed :=
  ⟨spendingConfig_gas, spendingRunner_usesAtMostLimit, expensiveState_dispatched, _, rfl, by decide⟩

end Shadows.Ethereum
