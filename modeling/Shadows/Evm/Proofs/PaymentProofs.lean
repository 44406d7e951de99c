import Shadows.Evm.Ledger
import Shadows.Evm.Proofs.RunnerProofs

/-!
# Proofs: an execution that is paid for succeeds

Once the source covers the full gas limit, the checks of `Runner::execute` pass, the fee can be
withdrawn, and what follows, whatever the executor does, does not fail.
-/

namespace Shadows.Evm

variable {S AccountId M R : Type} {cfg : Config S AccountId}

/-! ## The checks of the runner -/

theorem accountBasic_balance_lt (world : World S) (address : H160) :
    (accountBasic cfg world address).balance.val < 2 ^ 128 := by
  show min _ _ < _
  omega

theorem accountBasic_balance_le (cfg : Config S AccountId) (world : World S) (address : H160) :
    (accountBasic cfg world address).balance.val ≤
      cfg.system.freeBalance world.system (cfg.intoAccountId address) :=
  min_le_left _ _

/-- The preparation of an execution that the source can pay for in full. -/
theorem prepare_of_payment {source : H160} {value gasPrice gasLimit : U256} {world : World S}
    (hprice : cfg.minGasPrice world ≤ gasPrice)
    (hpay : value.val + gasPrice.val * gasLimit.val ≤ (accountBasic cfg world source).balance.val)
    (hwithdraw : ∀ amount, amount ≤ cfg.system.freeBalance world.system (cfg.intoAccountId source) →
      (cfg.system.withdraw (cfg.intoAccountId source) amount world.system).isSome) :
    ∃ fee world', prepare cfg source value gasLimit.lowU64 (some gasPrice)
      (some (accountBasic cfg world source).nonce) world = .ok (gasPrice, fee, world') := by
  have hlow : gasPrice.val * (U256.ofU64 gasLimit.lowU64).val ≤ gasPrice.val * gasLimit.val :=
    Nat.mul_le_mul_left _ gasLimit.ofU64_lowU64_le
  have hlt : (accountBasic cfg world source).balance.val < 2 ^ 128 :=
    accountBasic_balance_lt world source
  obtain ⟨totalFee, hfee⟩ : ∃ totalFee,
      gasPrice.checkedMul (.ofU64 gasLimit.lowU64) = some totalFee := by
    unfold U256.checkedMul
    rw [dif_pos (by omega)]
    exact ⟨_, rfl⟩
  have hfeeVal := U256.checkedMul_eq_some.1 hfee
  obtain ⟨totalPayment, hpayment⟩ : ∃ totalPayment, value.checkedAdd totalFee = some totalPayment := by
    unfold U256.checkedAdd
    rw [dif_pos (by omega)]
    exact ⟨_, rfl⟩
  have hpaymentVal := U256.checkedAdd_eq_some.1 hpayment
  have hcovered : ¬ (accountBasic cfg world source).balance < totalPayment := by
    rw [not_lt]
    show totalPayment.val ≤ (accountBasic cfg world source).balance.val
    omega
  -- the fee fits into a `u128`, so that all of it is withdrawn
  have hfeeLow : totalFee.lowU128 = totalFee.val := Nat.mod_eq_of_lt (by omega)
  have hle := accountBasic_balance_le cfg world source
  obtain ⟨⟨imbalance, s⟩, hs⟩ := Option.isSome_iff_exists.1
    (hwithdraw totalFee.lowU128 (by rw [hfeeLow]; omega))
  refine ⟨some imbalance, { world with system := s }, ?_⟩
  unfold prepare withdrawFee
  have hprice' : ¬ gasPrice < cfg.minGasPrice world := not_lt.2 hprice
  simp only [Option.any_some, hprice', decide_false, Bool.false_eq_true, if_false, Option.getD_some,
    hfee, hpayment, hcovered, ne_eq, not_true_eq_false, hs]

/-- The refund is not larger than what has been paid. -/
theorem correctAndDepositFee_ok
    (hdeposit : ∀ who amount s imbalance s', cfg.system.depositIntoExisting who amount s =
      some (imbalance, s') → imbalance = amount)
    (who : H160) (correctedFee : U256) (alreadyWithdrawn : Option ℕ) (world : World S) :
    ∃ world', correctAndDepositFee cfg who correctedFee alreadyWithdrawn world = (.ok (), world') := by
  cases alreadyWithdrawn with
  | none => exact ⟨world, rfl⟩
  | some paid =>
    unfold correctAndDepositFee
    cases hcall : cfg.system.depositIntoExisting (cfg.intoAccountId who)
        (paid - correctedFee.lowU128) world.system with
    | none =>
      simp only [hcall, Option.getD_none, Nat.zero_le, if_true]
      exact ⟨_, rfl⟩
    | some refund =>
      obtain ⟨imbalance, s⟩ := refund
      have hle : imbalance ≤ paid := by
        rw [hdeposit _ _ _ _ _ hcall]
        exact Nat.sub_le _ _
      simp only [hcall, Option.getD_some, if_pos hle]
      exact ⟨_, rfl⟩

/-- Nothing after the preparation makes an execution fail. -/
theorem execute_of_prepare
    (hdeposit : ∀ who amount s imbalance s', cfg.system.depositIntoExisting who amount s =
      some (imbalance, s') → imbalance = amount)
    (exec : Executor S M) {source : H160} {value price : U256} {gasLimit : UInt64}
    {gasPrice nonce : Option U256} (f : Vicinity → World S → ExecutorRun R) {world mid : World S}
    {fee : Option ℕ}
    (h : prepare cfg source value gasLimit gasPrice nonce world = .ok (price, fee, mid)) :
    ∃ info world', execute cfg exec source value gasLimit gasPrice nonce f world =
      some (.ok info, world') := by
  obtain ⟨rs, st, hcalls, -, -⟩ := stackCalls_trace cfg exec.metadataOps
    (f ⟨price, source⟩ mid).trace (.new (exec.newMetadata gasLimit) ⟨mid, []⟩) (Nat.zero_le _)
  obtain ⟨after, hcorrected⟩ := correctAndDepositFee_ok hdeposit source
    ((f ⟨price, source⟩ mid).fee price) fee st.storage.current
  unfold execute
  simp only [h, hcalls, hcorrected]
  exact ⟨_, _, rfl⟩

/-- An execution that fails has failed in its preparation. -/
theorem execute_error
    (hdeposit : ∀ who amount s imbalance s', cfg.system.depositIntoExisting who amount s =
      some (imbalance, s') → imbalance = amount)
    {exec : Executor S M} {source : H160} {value : U256} {gasLimit : UInt64}
    {gasPrice nonce : Option U256} {f : Vicinity → World S → ExecutorRun R}
    {world world' : World S} {e : EvmError}
    (h : execute cfg exec source value gasLimit gasPrice nonce f world = some (.error e, world')) :
    prepare cfg source value gasLimit gasPrice nonce world = .error e ∧ world' = world := by
  obtain ⟨e', hprep, he, hworld⟩ |
    ⟨price, fee, mid, rs, st, result, after, hprep, hcalls, hfee, hend⟩ := execute_cases h
  · obtain rfl := Except.error.inj he
    exact ⟨hprep, hworld⟩
  · obtain ⟨refunded, hrefunded⟩ := correctAndDepositFee_ok hdeposit source
      ((f ⟨price, source⟩ mid).fee price) fee st.storage.current
    rw [hfee, Prod.mk.injEq] at hrefunded
    obtain ⟨e', hresult, -, -⟩ | ⟨info, -, hok, -⟩ := hend
    · exact absurd (hresult.symm.trans hrefunded.1) nofun
    · exact absurd hok nofun

/-! ## On the ledger -/

theorem Ledger.withdraw_isSome (l : Ledger) (hl : ∀ who, (l who).consumers = 0) (who : H160)
    (amount : ℕ) (h : amount ≤ (l who).free) : (Ledger.withdraw who amount l).isSome := by
  have hlow : ¬ (l who).free < amount := not_lt.2 h
  unfold Ledger.withdraw Ledger.take
  by_cases hzero : amount = 0
  · rw [if_pos hzero]
    rfl
  · rw [if_neg hzero, Option.isSome_map]
    by_cases hed : existentialDeposit ≤ (l who).free - amount
    · simp only [if_neg hlow, if_pos hed, Option.isSome_some]
    · simp only [if_neg hlow, if_neg hed, hl who, if_true, Option.isSome_some]

theorem Ledger.depositIntoExisting_amount (who : H160) (amount : ℕ) (l : Ledger) (imbalance : ℕ)
    (l' : Ledger) (h : Ledger.depositIntoExisting who amount l = some (imbalance, l')) :
    imbalance = amount := by
  unfold Ledger.depositIntoExisting at h
  split_ifs at h with hzero
  · rw [Option.some.injEq, Prod.mk.injEq] at h
    rw [← h.1, hzero]
  · rw [Option.some.injEq, Prod.mk.injEq] at h
    exact h.1.symm

end Shadows.Evm
