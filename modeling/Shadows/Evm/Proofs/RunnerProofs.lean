import Shadows.Evm.Laws
import Shadows.Evm.Proofs.JournalProofs

/-!
# Proofs: what a transaction does to nonces

One lemma for each part of `Runner::execute`: the fees and the removal of deleted accounts leave the
nonces alone, the withdrawal and the surviving operations of the executor do not lower the nonce of
an account that they keep, and an increment among them raises it (`execute_nonce`).
-/

namespace Shadows.Evm

open Foundations

variable {S AccountId M R : Type} {cfg : Config S AccountId} {hold : Holdings S AccountId}
  {who : AccountId}

section Laws

variable (hsys : SystemLaws cfg.system hold)
include hsys

/-! ## Balances -/

theorem WithdrawKeeps.nonce_le {source : AccountId} {amount imbalance : ℕ} {s s' : S}
    (h : WithdrawKeeps cfg hold who source amount s)
    (hcall : cfg.system.withdraw source amount s = some (imbalance, s')) :
    (cfg.system.accountNonce s who).toNat ≤ (cfg.system.accountNonce s' who).toNat := by
  by_cases hzero : cfg.system.accountNonce s who = 0
  · rw [hzero]
    exact Nat.zero_le _
  · have hkept := hsys.withdraw _ _ _ _ _ hcall who fun hwho =>
      h hwho.symm hzero (by rw [hcall]; rfl)
    rw [hkept]

theorem TransferKeeps.nonce_le {source target : AccountId} {amount : ℕ} {s s' : S}
    (h : TransferKeeps cfg hold who source target amount s)
    (hcall : cfg.system.transfer source target amount s = some s') :
    (cfg.system.accountNonce s who).toNat ≤ (cfg.system.accountNonce s' who).toNat := by
  by_cases hzero : cfg.system.accountNonce s who = 0
  · rw [hzero]
    exact Nat.zero_le _
  · have hkept := hsys.transfer _ _ _ _ _ hcall who fun hwho hne =>
      h hwho.symm hne hzero (by rw [hcall]; rfl)
    rw [hkept]

/-! ## Operations of the executor -/

theorem nonceOf_createAccount (address : H160) (code : Bytes) (world : World S) :
    nonceOf cfg who (createAccount cfg address code world) = nonceOf cfg who world := by
  unfold createAccount nonceOf
  by_cases hcode : code.isEmpty = true
  · rw [if_pos hcode]
  · rw [if_neg hcode]
    by_cases hnew : (world.accountCodes address).isNone = true
    · simp only [hnew, if_true, hsys.incConsumers]
    · simp only [hnew, Bool.false_eq_true, if_false]

theorem nonceOf_incNonce {address : H160} {world : World S}
    (h : (StackOp.incNonce address).Keeps cfg hold who world)
    (hwho : cfg.intoAccountId address = who) :
    nonceOf cfg who (incNonce cfg address world) = nonceOf cfg who world + 1 := by
  have hlt := h hwho
  unfold nonceOf incNonce
  rw [hwho]
  exact hsys.inc_self who _ hlt

theorem StackOp.Keeps.nonce_le {o : StackOp} {world : World S} (h : o.Keeps cfg hold who world) :
    nonceOf cfg who world ≤ nonceOf cfg who (o.applyWorld cfg world) := by
  cases o with
  | incNonce address =>
    show nonceOf cfg who world ≤ nonceOf cfg who (Evm.incNonce cfg address world)
    by_cases hwho : cfg.intoAccountId address = who
    · rw [nonceOf_incNonce hsys h hwho]
      omega
    · unfold nonceOf Evm.incNonce
      rw [hsys.inc_other _ _ _ (Ne.symm hwho)]
  | transfer source target value =>
    show nonceOf cfg who world ≤ nonceOf cfg who (Evm.transfer cfg source target value world).2
    unfold Evm.transfer
    cases hcall : cfg.system.transfer (cfg.intoAccountId source) (cfg.intoAccountId target)
        value.lowU128 world.system with
    | none => exact le_refl _
    | some s => exact TransferKeeps.nonce_le hsys h hcall
  | setCode address code =>
    show nonceOf cfg who world ≤ nonceOf cfg who (createAccount cfg address code world)
    rw [nonceOf_createAccount hsys]
  | setStorage address index value => exact le_refl _
  | resetStorage address => exact le_refl _
  | log address topics data => exact le_refl _
  | setDeleted address => exact le_refl _

theorem OpsKeep.nonce_le {os : List StackOp} : ∀ {e : Effects S},
    OpsKeep cfg hold who os e.world →
      nonceOf cfg who e.world ≤
        nonceOf cfg who (Journal.replay (StackOp.apply cfg) os e).world := by
  induction os with
  | nil =>
    intro e _
    exact le_refl _
  | cons o os ih =>
    intro e h
    obtain ⟨ho, hos⟩ := h
    have hfirst := ho.nonce_le hsys
    have hrest := ih (e := o.apply cfg e) hos
    exact le_trans hfirst hrest

theorem OpsKeep.nonce_lt {os : List StackOp} {address : H160}
    (hwho : cfg.intoAccountId address = who) : ∀ {e : Effects S},
      OpsKeep cfg hold who os e.world → .incNonce address ∈ os →
        nonceOf cfg who e.world <
          nonceOf cfg who (Journal.replay (StackOp.apply cfg) os e).world := by
  induction os with
  | nil =>
    intro e _ hmem
    exact absurd hmem List.not_mem_nil
  | cons o os ih =>
    intro e h hmem
    obtain ⟨ho, hos⟩ := h
    rcases List.mem_cons.1 hmem with rfl | hmem
    · have hfirst : nonceOf cfg who (((StackOp.incNonce address).apply cfg e).world) =
          nonceOf cfg who e.world + 1 := nonceOf_incNonce hsys ho hwho
      have hrest := OpsKeep.nonce_le hsys (e := (StackOp.incNonce address).apply cfg e) hos
      rw [hfirst] at hrest
      exact hrest
    · have hfirst := ho.nonce_le hsys
      have hrest := ih (e := o.apply cfg e) hos hmem
      exact lt_of_le_of_lt hfirst hrest

/-! ## Fees and deleted accounts -/

theorem nonceOf_correctAndDepositFee (payer : H160) (correctedFee : U256)
    (alreadyWithdrawn : Option ℕ) (world : World S) :
    nonceOf cfg who (correctAndDepositFee cfg payer correctedFee alreadyWithdrawn world).2 =
      nonceOf cfg who world := by
  cases alreadyWithdrawn with
  | none => rfl
  | some paid =>
    unfold correctAndDepositFee nonceOf
    cases hdeposit : cfg.system.depositIntoExisting (cfg.intoAccountId payer)
        (paid - correctedFee.lowU128) world.system with
    | none =>
      simp only [hdeposit, Option.getD_none, Nat.zero_le, if_true, hsys.onUnbalanced]
    | some refund =>
      obtain ⟨imbalance, s⟩ := refund
      have hkept := hsys.depositIntoExisting _ _ _ _ _ hdeposit who
      simp only [hdeposit, Option.getD_some]
      by_cases hle : imbalance ≤ paid
      · simp only [if_pos hle, hsys.onUnbalanced, hkept]
      · simp only [if_neg hle, hsys.dropPositive, hkept]

theorem nonceOf_removeAccount (address : H160) (world : World S) :
    nonceOf cfg who (removeAccount cfg address world) = nonceOf cfg who world := by
  unfold removeAccount nonceOf
  by_cases hcode : (world.accountCodes address).isSome = true
  · simp only [hcode, if_true, hsys.decConsumers]
  · simp only [hcode, Bool.false_eq_true, if_false]

theorem nonceOf_removeDeleted (deletes : Finset H160) (world : World S) :
    nonceOf cfg who (removeDeleted cfg deletes world) = nonceOf cfg who world := by
  unfold removeDeleted
  induction deletes.sort (· ≤ ·) generalizing world with
  | nil => rfl
  | cons address rest ih =>
    rw [List.foldl_cons, ih, nonceOf_removeAccount hsys]

end Laws

@[simp] theorem removeDeleted_empty (world : World S) : removeDeleted cfg ∅ world = world := by
  unfold removeDeleted
  rw [Finset.sort_empty]
  rfl

/-! ## Execution -/

/-- What has been checked when the fee is withdrawn. -/
theorem prepare_checks {source : H160} {value price : U256} {gasLimit : UInt64}
    {gasPrice nonce : Option U256} {fee : Option ℕ} {world world' : World S}
    (h : prepare cfg source value gasLimit gasPrice nonce world = .ok (price, fee, world')) :
    price = gasPrice.getD 0 ∧
      (∀ n, nonce = some n → (accountBasic cfg world source).nonce = n) ∧
      ∃ totalFee, price.checkedMul (.ofU64 gasLimit) = some totalFee ∧
        value.val + totalFee.val ≤ (accountBasic cfg world source).balance.val ∧
        withdrawFee cfg source totalFee world = .ok (fee, world') := by
  unfold prepare at h
  split at h
  · cases h
  · dsimp only at h
    split at h
    · cases h
    · rename_i totalFee hmul
      split at h
      · cases h
      · rename_i totalPayment hadd
        split at h
        · cases h
        · rename_i hcovered
          split at h
          · cases h
          · rename_i hnonce
            cases hwithdraw : withdrawFee cfg source totalFee world with
            | error e =>
              rw [hwithdraw] at h
              cases h
            | ok paid =>
              obtain ⟨paid, mid⟩ := paid
              rw [hwithdraw] at h
              simp only [Except.ok.injEq, Prod.mk.injEq] at h
              obtain ⟨rfl, rfl, rfl⟩ := h
              refine ⟨rfl, ?_, totalFee, hmul, ?_, hwithdraw⟩
              · rintro n rfl
                simpa using hnonce
              · rw [← U256.checkedAdd_eq_some.1 hadd]
                exact not_lt.1 hcovered

theorem withdrawFee_ok {who : H160} {fee : U256} {paid : Option ℕ} {world world' : World S}
    (h : withdrawFee cfg who fee world = .ok (paid, world')) :
    ∃ imbalance s, cfg.system.withdraw (cfg.intoAccountId who) fee.lowU128 world.system =
      some (imbalance, s) ∧ paid = some imbalance ∧ world' = { world with system := s } := by
  unfold withdrawFee at h
  cases hcall : cfg.system.withdraw (cfg.intoAccountId who) fee.lowU128 world.system with
  | none => simp [hcall] at h
  | some out =>
    obtain ⟨imbalance, s⟩ := out
    simp only [hcall, Except.ok.injEq, Prod.mk.injEq] at h
    exact ⟨imbalance, s, rfl, h.1.symm, h.2.symm⟩

/-- The nonce has been checked, and the fee for the gas limit has been withdrawn. -/
theorem prepare_ok {source : H160} {value price : U256} {gasLimit : UInt64}
    {gasPrice nonce : Option U256} {fee : Option ℕ} {world world' : World S}
    (h : prepare cfg source value gasLimit gasPrice nonce world = .ok (price, fee, world')) :
    (∀ n, nonce = some n → (accountBasic cfg world source).nonce = n) ∧
      ∃ imbalance s, cfg.system.withdraw (cfg.intoAccountId source)
          (price * .ofU64 gasLimit : U256).lowU128 world.system = some (imbalance, s) ∧
        fee = some imbalance ∧ world' = { world with system := s } := by
  obtain ⟨-, hnonce, totalFee, hmul, -, hwithdraw⟩ := prepare_checks h
  have htotal : price * .ofU64 gasLimit = totalFee := by
    have hval := U256.checkedMul_eq_some.1 hmul
    apply Fin.ext
    rw [Fin.val_mul, ← hval]
    exact Nat.mod_eq_of_lt totalFee.isLt
  rw [htotal]
  exact ⟨hnonce, withdrawFee_ok hwithdraw⟩

theorem accountBasic_nonce {world : World S} {source : H160} {n : U256}
    (h : (accountBasic cfg world source).nonce = n) :
    n.val = nonceOf cfg (cfg.intoAccountId source) world := by
  -- an `Index` is a `u32`, so that the `u128` does not saturate
  have hlt := (cfg.system.accountNonce world.system (cfg.intoAccountId source)).toNat_lt
  rw [← h]
  show min _ _ = _
  unfold nonceOf
  omega

/-- An execution ends where its preparation fails, where the correction of the fee fails, or with
the information that it returns. -/
theorem execute_cases {exec : Executor S M} {source : H160} {value : U256} {gasLimit : UInt64}
    {gasPrice nonce : Option U256} {f : Vicinity → World S → ExecutorRun R}
    {world world' : World S} {r : Except EvmError (ExecutionInfo R)}
    (h : execute cfg exec source value gasLimit gasPrice nonce f world = some (r, world')) :
    (∃ e, prepare cfg source value gasLimit gasPrice nonce world = .error e ∧ r = .error e ∧
      world' = world) ∨
    ∃ price fee mid rs st result after,
      prepare cfg source value gasLimit gasPrice nonce world = .ok (price, fee, mid) ∧
      stackCalls cfg exec.metadataOps (f ⟨price, source⟩ mid).trace.calls
        (.new (exec.newMetadata gasLimit) ⟨mid, []⟩) = some (rs, st) ∧
      correctAndDepositFee cfg source ((f ⟨price, source⟩ mid).fee price) fee
        st.storage.current = (result, after) ∧
      ((∃ e, result = .error e ∧ r = .error e ∧ world' = after) ∨
        (∃ info, result = .ok () ∧ r = .ok info ∧ world' = depositLogs st.substate.frame.logs
          (removeDeleted cfg st.substate.frame.deletes after))) := by
  unfold execute at h
  cases hprep : prepare cfg source value gasLimit gasPrice nonce world with
  | error e =>
    simp only [hprep, Option.some.injEq, Prod.mk.injEq] at h
    exact .inl ⟨e, rfl, h.1.symm, h.2.symm⟩
  | ok paid =>
    obtain ⟨price, fee, mid⟩ := paid
    simp only [hprep] at h
    cases hcalls : stackCalls cfg exec.metadataOps (f ⟨price, source⟩ mid).trace.calls
        (.new (exec.newMetadata gasLimit) ⟨mid, []⟩) with
    | none => simp only [hcalls, reduceCtorEq] at h
    | some out =>
      obtain ⟨rs, st⟩ := out
      simp only [hcalls] at h
      obtain ⟨⟨result, after⟩, hfee⟩ : ∃ corrected, correctAndDepositFee cfg source
        ((f ⟨price, source⟩ mid).fee price) fee st.storage.current = corrected := ⟨_, rfl⟩
      simp only [hfee] at h
      refine .inr ⟨price, fee, mid, rs, st, result, after, rfl, hcalls, hfee, ?_⟩
      cases result with
      | error e =>
        simp only [Option.some.injEq, Prod.mk.injEq] at h
        exact .inl ⟨e, rfl, h.1.symm, h.2.symm⟩
      | ok _ =>
        simp only [Option.some.injEq, Prod.mk.injEq] at h
        exact .inr ⟨_, rfl, h.1.symm, h.2.symm⟩

/-- A successful execution was given the nonce of its source, if any. -/
theorem execute_checks_nonce {exec : Executor S M} {source : H160} {value : U256}
    {gasLimit : UInt64} {gasPrice nonce : Option U256}
    {f : Vicinity → World S → ExecutorRun R} {world world' : World S} {info : ExecutionInfo R}
    (h : execute cfg exec source value gasLimit gasPrice nonce f world = some (.ok info, world')) :
    ∀ n, nonce = some n → (accountBasic cfg world source).nonce = n := by
  obtain ⟨e, -, hr, -⟩ | ⟨price, fee, mid, -, -, -, -, hprep, -⟩ := execute_cases h
  · cases hr
  · exact (prepare_ok hprep).1

section Execution

variable (hsys : SystemLaws cfg.system hold)
include hsys

/-- The calls that an execution makes do not lower the nonce of an account that they keep, and they
raise the one of the source if the gas covers the intrinsic cost. -/
theorem stackCalls_nonce {exec : Executor S M} {source : H160} {intrinsicCost : ℕ}
    {gasLimit : UInt64} {run : ExecutorRun R} {world : World S}
    {rs : List (Except ExitError Unit)} {st : StackState S M}
    (hrun : RunLaws cfg exec source intrinsicCost gasLimit world run)
    (hops : OpsKeep cfg hold who run.trace.survivors world)
    (hcalls : stackCalls cfg exec.metadataOps run.trace.calls
      (.new (exec.newMetadata gasLimit) ⟨world, []⟩) = some (rs, st)) :
    nonceOf cfg who world ≤ nonceOf cfg who st.storage.current ∧
      (cfg.intoAccountId source = who → intrinsicCost ≤ gasLimit.toNat →
        nonceOf cfg who world < nonceOf cfg who st.storage.current) := by
  have hworld := (stackCalls_replay hcalls (hrun.exits rs st hcalls)).world
  rw [hworld]
  constructor
  · exact OpsKeep.nonce_le hsys (e := ⟨world, [], ∅⟩) hops
  · intro hwho hgas
    have hmem : .incNonce source ∈ run.trace.survivors := by
      rw [← List.count_pos_iff, hrun.increments hgas]
      exact Nat.one_pos
    exact OpsKeep.nonce_lt hsys hwho (e := ⟨world, [], ∅⟩) hops hmem

/-- An execution does not lower the nonce of an account that it keeps. If it succeeds, it has raised
the nonce of its source, provided that the gas covers the intrinsic cost. -/
theorem execute_nonce {exec : Executor S M} {source : H160}
    {value : U256} {gasLimit : UInt64} {gasPrice nonce : Option U256} {intrinsicCost : ℕ}
    {f : Vicinity → World S → ExecutorRun R} {world world' : World S}
    {r : Except EvmError (ExecutionInfo R)}
    (hlaws : ∀ vicinity world, RunLaws cfg exec source intrinsicCost gasLimit world
      (f vicinity world))
    (hkeeps : ExecuteKeeps cfg hold who source value gasLimit gasPrice nonce f world)
    (h : execute cfg exec source value gasLimit gasPrice nonce f world = some (r, world')) :
    nonceOf cfg who world ≤ nonceOf cfg who world' ∧
      ((∃ info, r = .ok info) → cfg.intoAccountId source = who →
        intrinsicCost ≤ gasLimit.toNat → nonceOf cfg who world < nonceOf cfg who world') := by
  obtain ⟨e, -, rfl, rfl⟩ |
    ⟨price, fee, mid, rs, st, result, after, hprep, hcalls, hfee, hend⟩ := execute_cases h
  · exact ⟨le_refl _, fun ⟨_, hi⟩ => by cases hi⟩
  · obtain ⟨hwithdraw, hops⟩ := hkeeps price fee mid hprep
    obtain ⟨-, imbalance, s, hcall, -, hmid⟩ := prepare_ok hprep
    have hpaid : nonceOf cfg who world ≤ nonceOf cfg who mid := by
      rw [hmid]
      exact hwithdraw.nonce_le hsys hcall
    obtain ⟨hle, hlt⟩ := stackCalls_nonce hsys (hlaws ⟨price, source⟩ mid) hops hcalls
    have hafter : nonceOf cfg who after = nonceOf cfg who st.storage.current := by
      have hkept : nonceOf cfg who (correctAndDepositFee cfg source
          ((f ⟨price, source⟩ mid).fee price) fee st.storage.current).2 =
            nonceOf cfg who st.storage.current := nonceOf_correctAndDepositFee hsys _ _ _ _
      rwa [hfee] at hkept
    obtain ⟨e, -, rfl, rfl⟩ | ⟨info, -, -, rfl⟩ := hend
    · refine ⟨?_, fun ⟨_, hi⟩ => by cases hi⟩
      rw [hafter]
      exact le_trans hpaid hle
    · have hlogs : nonceOf cfg who (depositLogs st.substate.frame.logs
          (removeDeleted cfg st.substate.frame.deletes after)) =
            nonceOf cfg who st.storage.current := by
        rw [← hafter]
        exact nonceOf_removeDeleted hsys st.substate.frame.deletes after
      rw [hlogs]
      exact ⟨le_trans hpaid hle, fun _ hwho hgas => lt_of_le_of_lt hpaid (hlt hwho hgas)⟩

end Execution

end Shadows.Evm
