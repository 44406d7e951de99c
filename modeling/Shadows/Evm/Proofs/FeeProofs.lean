import Shadows.Evm.Fees
import Shadows.Evm.Proofs.FrameProofs
import Shadows.Evm.Proofs.PaymentProofs
import Shadows.Evm.Proofs.TransferProofs

/-!
# Proofs: what an execution costs

The withdrawal takes the whole fee for the gas limit off the total, a refund gives the unused part
back, and nothing else changes the total. Both fit into a `u128`, as the source has been checked to
have the fee and the total of the balances is a `u128`.
-/

namespace Shadows.Evm

open Foundations

variable {S AccountId M R : Type} {cfg : Config S AccountId}
  {totalBalance : S → AccountId → ℕ} {existing : S → AccountId → Prop}

section Payment

variable (hlaws : FeeLaws cfg.system totalBalance existing)
include hlaws

/-- The preparation takes the fee for the gas limit off the balance of the source. -/
theorem prepare_withdraws {source : H160} {value price : U256} {gasLimit : UInt64}
    {gasPrice nonce : Option U256} {fee : Option ℕ} {world mid : World S} {total : ℕ}
    (htotal : SumsTo (totalBalance world.system) total)
    (h : prepare cfg source value gasLimit gasPrice nonce world = .ok (price, fee, mid)) :
    ∃ (totalFee : U256) (rest : ℕ), totalFee.val = price.val * gasLimit.toNat ∧
      totalFee.val < 2 ^ 128 ∧ fee = some totalFee.val ∧ rest + totalFee.val = total ∧
      SumsTo (totalBalance mid.system) rest := by
  obtain ⟨-, -, totalFee, hmul, hcovered, hwithdraw⟩ := prepare_checks h
  have hbalance : (accountBasic cfg world source).balance.val < 2 ^ 128 :=
    accountBasic_balance_lt world source
  have hsmall : totalFee.val < 2 ^ 128 := by omega
  have hlow : totalFee.lowU128 = totalFee.val := Nat.mod_eq_of_lt hsmall
  obtain ⟨imbalance, s, hcall, rfl, rfl⟩ := withdrawFee_ok hwithdraw
  rw [hlow] at hcall
  obtain ⟨rfl, hself, hothers⟩ := hlaws.withdraw _ _ _ _ _ hcall
  obtain ⟨rest, hrest, hmid⟩ := htotal.debit hself hothers
  exact ⟨totalFee, rest, U256.checkedMul_eq_some.1 hmul, hsmall, rfl, hrest, hmid⟩

/-- The refund is the difference of the two fees if the account still exists, and nothing if it does
not. -/
theorem correctAndDepositFee_refunds {who : H160} {correctedFee : U256} {paid total : ℕ}
    {world world' : World S} {result : Except EvmError Unit}
    (htotal : SumsTo (totalBalance world.system) total)
    (hfits : total + (paid - correctedFee.lowU128) < 2 ^ 128)
    (h : correctAndDepositFee cfg who correctedFee (some paid) world = (result, world')) :
    ∃ refund, SumsTo (totalBalance world'.system) (total + refund) ∧
      (existing world.system (cfg.intoAccountId who) → refund = paid - correctedFee.lowU128) ∧
      (¬ existing world.system (cfg.intoAccountId who) → refund = 0) := by
  have hsome := hlaws.deposit_isSome (cfg.intoAccountId who) (paid - correctedFee.lowU128)
    world.system
  unfold correctAndDepositFee at h
  cases hcall : cfg.system.depositIntoExisting (cfg.intoAccountId who)
      (paid - correctedFee.lowU128) world.system with
  | none =>
    simp only [hcall, Option.getD_none, Nat.zero_le, if_true, Prod.mk.injEq] at h
    obtain ⟨-, rfl⟩ := h
    rw [hcall] at hsome
    have hfailed := mt hsome.2 Bool.false_ne_true
    refine ⟨0, htotal.congr fun other => hlaws.onUnbalanced _ _ _, fun hexisting => ?_,
      fun _ => rfl⟩
    -- the balance of an account is part of the total, so that it has not overflowed
    have hfree := hlaws.freeBalance_le world.system (cfg.intoAccountId who)
    have hle := htotal.le (cfg.intoAccountId who)
    have hroom : cfg.system.freeBalance world.system (cfg.intoAccountId who) +
      (paid - correctedFee.lowU128) < 2 ^ 128 := by omega
    exact absurd (Or.inr ⟨hexisting, hroom⟩) hfailed
  | some deposited =>
    obtain ⟨imbalance, s⟩ := deposited
    obtain ⟨rfl, hself, hothers⟩ := hlaws.deposit _ _ _ _ _ hcall
    have hle : paid - correctedFee.lowU128 ≤ paid := Nat.sub_le _ _
    simp only [hcall, Option.getD_some, if_pos hle, Prod.mk.injEq] at h
    obtain ⟨-, rfl⟩ := h
    have hsum : SumsTo (totalBalance s) (total + (paid - correctedFee.lowU128)) :=
      htotal.credit hself hothers
    refine ⟨paid - correctedFee.lowU128, hsum.congr fun other => hlaws.onUnbalanced _ _ _,
      fun _ => rfl, fun hmissing => ?_⟩
    rw [hcall] at hsome
    obtain hzero | ⟨hexisting, -⟩ := hsome.1 rfl
    · exact hzero
    · exact absurd hexisting hmissing

theorem totalBalance_removeAccount (address : H160) (world : World S) (who : AccountId) :
    totalBalance (removeAccount cfg address world).system who = totalBalance world.system who := by
  unfold removeAccount
  by_cases hcode : (world.accountCodes address).isSome = true
  · simp only [hcode, if_true, hlaws.decConsumers]
  · simp only [hcode, Bool.false_eq_true, if_false]

theorem totalBalance_removeDeleted (deletes : Finset H160) (world : World S) (who : AccountId) :
    totalBalance (removeDeleted cfg deletes world).system who = totalBalance world.system who := by
  unfold removeDeleted
  induction deletes.sort (· ≤ ·) generalizing world with
  | nil => rfl
  | cons address rest ih => rw [List.foldl_cons, ih, totalBalance_removeAccount hlaws]

/-- **Fees.** If an execution succeeds, the total of all balances has fallen by the fee that it has
cost in the end. -/
theorem execute_settled {exec : Executor S M} {source : H160} {value : U256} {gasLimit : UInt64}
    {gasPrice nonce : Option U256} {f : Vicinity → World S → ExecutorRun R}
    {world world' : World S} {info : ExecutionInfo R} {total : ℕ}
    (hconserves : Conserves cfg exec totalBalance gasLimit f) (hbounded : FeeBounded gasLimit f)
    (htotal : SumsTo (totalBalance world.system) total) (hissuance : total < 2 ^ 128)
    (h : execute cfg exec source value gasLimit gasPrice nonce f world = some (.ok info, world')) :
    ∃ (totalFee : U256) (mid : World S) (rs : List (Except ExitError Unit)) (st : StackState S M)
      (charged : ℕ),
      totalFee.val = (gasPrice.getD 0).val * gasLimit.toNat ∧
      prepare cfg source value gasLimit gasPrice nonce world =
        .ok (gasPrice.getD 0, some totalFee.val, mid) ∧
      stackCalls cfg exec.metadataOps (f ⟨gasPrice.getD 0, source⟩ mid).trace.calls
        (.new (exec.newMetadata gasLimit) ⟨mid, []⟩) = some (rs, st) ∧
      Settled totalBalance existing (cfg.intoAccountId source) totalFee
        ((f ⟨gasPrice.getD 0, source⟩ mid).fee (gasPrice.getD 0)) st.storage.current world' total
        charged := by
  obtain ⟨e, -, hr, -⟩ |
    ⟨price, fee, mid, rs, st, result, after, hprep, hcalls, hfee, hend⟩ := execute_cases h
  · cases hr
  obtain ⟨rfl, -, -⟩ := prepare_checks hprep
  obtain ⟨totalFee, rest, hproduct, hsmall, rfl, hrest, hmid⟩ :=
    prepare_withdraws hlaws htotal hprep
  have hactual : ((f ⟨gasPrice.getD 0, source⟩ mid).fee (gasPrice.getD 0)).val ≤ totalFee.val := by
    rw [hproduct]
    exact hbounded ⟨gasPrice.getD 0, source⟩ mid
  have hlow : ((f ⟨gasPrice.getD 0, source⟩ mid).fee (gasPrice.getD 0)).lowU128 =
      ((f ⟨gasPrice.getD 0, source⟩ mid).fee (gasPrice.getD 0)).val :=
    Nat.mod_eq_of_lt (lt_of_le_of_lt hactual hsmall)
  have hbody := hconserves _ _ _ _ _ hmid hcalls
  obtain ⟨refund, hafter, hexisting, hmissing⟩ :=
    correctAndDepositFee_refunds hlaws hbody (by omega) hfee
  rw [hlow] at hexisting
  have hrefund : refund ≤
      totalFee.val - ((f ⟨gasPrice.getD 0, source⟩ mid).fee (gasPrice.getD 0)).val := by
    by_cases hex : existing st.storage.current.system (cfg.intoAccountId source)
    · exact le_of_eq (hexisting hex)
    · rw [hmissing hex]
      exact Nat.zero_le _
  obtain ⟨e, -, hr, -⟩ | ⟨info', -, -, rfl⟩ := hend
  · cases hr
  refine ⟨totalFee, mid, rs, st, totalFee.val - refund, hproduct, hprep, hcalls, ?_⟩
  exact {
    when_existing := fun hex => by
      rw [hexisting hex]
      exact Nat.sub_sub_self hactual
    when_missing := fun hex => by rw [hmissing hex, Nat.sub_zero]
    at_least := by omega
    at_most := Nat.sub_le _ _
    fallen := ⟨rest + refund, by omega,
      hafter.congr fun who => totalBalance_removeDeleted hlaws _ _ who⟩
    withdrawal_whole := Nat.mod_eq_of_lt hsmall
    refund_whole := hlow }

end Payment

/-! ## Bodies that only move balances -/

section Moves

variable (hmoves : MoveLaws cfg.system totalBalance)
include hmoves

theorem sumsTo_createAccount {total : ℕ} (address : H160) (code : Bytes) {world : World S}
    (h : SumsTo (totalBalance world.system) total) :
    SumsTo (totalBalance (createAccount cfg address code world).system) total := by
  unfold createAccount
  by_cases hcode : code.isEmpty = true
  · rw [if_pos hcode]
    exact h
  · rw [if_neg hcode]
    by_cases hnew : (world.accountCodes address).isNone = true
    · simp only [hnew, if_true]
      exact h.congr fun who => hmoves.incConsumers _ _ _
    · simp only [hnew, Bool.false_eq_true, if_false]
      exact h

theorem sumsTo_transfer {total : ℕ} (source target : H160) (value : U256) {world : World S}
    (h : SumsTo (totalBalance world.system) total) :
    SumsTo (totalBalance (transfer cfg source target value world).2.system) total := by
  unfold transfer
  cases hcall : cfg.system.transfer (cfg.intoAccountId source) (cfg.intoAccountId target)
      value.lowU128 world.system with
  | none => exact h
  | some s =>
    by_cases hsame : cfg.intoAccountId source = cfg.intoAccountId target
    · rw [← hsame] at hcall
      exact h.congr fun who => hmoves.transfer_same _ _ _ _ hcall who
    · have hmoved := hmoves.transfer _ _ _ _ _ hsame hcall
      exact h.move hsame hmoved.debited hmoved.credited hmoved.others

theorem sumsTo_applyWorld {total : ℕ} (o : StackOp) {world : World S}
    (h : SumsTo (totalBalance world.system) total) :
    SumsTo (totalBalance (o.applyWorld cfg world).system) total := by
  cases o with
  | incNonce address => exact h.congr fun who => hmoves.incAccountNonce _ _ _
  | setStorage address index value => exact h
  | resetStorage address => exact h
  | log address topics data => exact h
  | setDeleted address => exact h
  | setCode address code => exact sumsTo_createAccount hmoves address code h
  | transfer source target value => exact sumsTo_transfer hmoves source target value h

theorem stackCall_sumsTo {ops : MetadataOps M} {c : StackCall} {st st' : StackState S M}
    {r : Except ExitError Unit} {total : ℕ} (hst : StorageSumsTo totalBalance total st.storage)
    (h : stackCall cfg ops c st = some (r, st')) :
    StorageSumsTo totalBalance total st'.storage := by
  cases c with
  | enter args =>
    simp only [stackCall, Option.some.injEq, Prod.mk.injEq] at h
    obtain ⟨-, rfl⟩ := h
    exact ⟨hst.current, List.forall_mem_cons.2 ⟨hst.current, hst.saved⟩⟩
  | op o =>
    simp only [stackCall, Option.some.injEq, Prod.mk.injEq] at h
    obtain ⟨-, rfl⟩ := h
    exact ⟨sumsTo_applyWorld hmoves o hst.current, hst.saved⟩
  | exit x =>
    obtain ⟨exited, parent, -, heffect⟩ := stackCall_exit_cases h
    cases hswallow : (ops.swallow x parent.frame.metadata exited.metadata).1 with
    | error e =>
      rw [heffect.failed e hswallow]
      exact hst
    | ok _ =>
      obtain ⟨w, worlds, hsaved, hstorage⟩ := heffect.closed hswallow
      have hall := hst.saved
      rw [hsaved] at hall
      obtain ⟨hw, hworlds⟩ := List.forall_mem_cons.1 hall
      rw [hstorage]
      cases x with
      | commit => exact ⟨hst.current, hworlds⟩
      | revert => exact ⟨hw, hworlds⟩
      | discard => exact ⟨hw, hworlds⟩

theorem stackCalls_sumsTo {ops : MetadataOps M} {cs : List StackCall} {total : ℕ} :
    ∀ {st st' : StackState S M} {rs : List (Except ExitError Unit)},
      StorageSumsTo totalBalance total st.storage → stackCalls cfg ops cs st = some (rs, st') →
        StorageSumsTo totalBalance total st'.storage := by
  induction cs with
  | nil =>
    intro st st' rs hst h
    simp only [stackCalls, Option.some.injEq, Prod.mk.injEq] at h
    obtain ⟨-, rfl⟩ := h
    exact hst
  | cons c cs ih =>
    intro st st' rs hst h
    obtain ⟨r, mid, rs', hcall, hrest, -⟩ := stackCalls_cons h
    exact ih (stackCall_sumsTo hmoves hst hcall) hrest

/-- Whatever an executor does, its operations conserve the total. -/
theorem conserves_of_moves (exec : Executor S M) (gasLimit : UInt64)
    (f : Vicinity → World S → ExecutorRun R) : Conserves cfg exec totalBalance gasLimit f := by
  intro vicinity world total rs st htotal hcalls
  have hnew : StorageSumsTo totalBalance total
    (StackState.new (exec.newMetadata gasLimit) ⟨world, []⟩).storage := ⟨htotal, nofun⟩
  exact (stackCalls_sumsTo hmoves hnew hcalls).current

end Moves

/-! ## On the till -/

theorem feeLaws_till : FeeLaws tillConfig.system (fun l who => l who) (fun l who => l who ≠ 0) where
  freeBalance_le := fun _ _ => le_refl _
  withdraw := by
    intro who amount s imbalance s' h
    simp only [tillConfig, purseConfig, purseSystem, Purses.withdraw] at h
    split_ifs at h with hlow
    simp only [Option.some.injEq, Prod.mk.injEq] at h
    obtain ⟨rfl, rfl⟩ := h
    refine ⟨rfl, ?_, fun other hother => Function.update_of_ne hother _ _⟩
    rw [Function.update_self]
    omega
  deposit_isSome := by
    intro who amount s
    simp only [tillConfig, purseConfig, purseSystem, Purses.depositIntoExisting]
    split_ifs with hzero hfails
    · exact iff_of_true rfl (Or.inl hzero)
    · refine iff_of_false nofun ?_
      rintro (hamount | ⟨hexisting, hroom⟩)
      · exact hzero hamount
      · omega
    · obtain ⟨hexisting, hroom⟩ := not_or.1 hfails
      exact iff_of_true rfl (Or.inr ⟨hexisting, not_le.1 hroom⟩)
  deposit := by
    intro who amount s imbalance s' h
    simp only [tillConfig, Purses.depositIntoExisting] at h
    split_ifs at h with hzero hfails
    · simp only [Option.some.injEq, Prod.mk.injEq] at h
      obtain ⟨rfl, rfl⟩ := h
      exact ⟨hzero.symm, by rw [hzero, Nat.add_zero], fun _ _ => rfl⟩
    · simp only [Option.some.injEq, Prod.mk.injEq] at h
      obtain ⟨rfl, rfl⟩ := h
      exact ⟨rfl, Function.update_self _ _ _, fun other hother => Function.update_of_ne hother _ _⟩
  onUnbalanced := fun _ _ _ => rfl
  decConsumers := fun _ _ _ => rfl

theorem moveLaws_till : MoveLaws tillConfig.system (fun l who => l who) where
  incAccountNonce := fun _ _ _ => rfl
  incConsumers := fun _ _ _ => rfl
  transfer_same := by
    intro source amount s s' h who
    simp only [tillConfig, purseConfig, purseSystem, Purses.transfer, or_true, if_true,
      Option.some.injEq] at h
    rw [h]
  transfer := by
    intro source target amount s s' hne h
    by_cases hamount : amount = 0
    · obtain rfl : s = s' := by
        rw [← Option.some.injEq, ← h]
        exact (if_pos (Or.inl hamount)).symm
      rw [hamount]
      exact ⟨rfl, rfl, fun _ _ _ => rfl⟩
    · exact Purses.transfer_moves hamount hne h

theorem tillRun_bounded : FeeBounded 5 tillRun := by
  intro vicinity world
  have hproduct : (vicinity.gasPrice * .ofU64 2 : U256).val ≤ vicinity.gasPrice.val * 2 := by
    rw [Fin.val_mul]
    exact Nat.mod_le _ _
  have hgas : (5 : UInt64).toNat = 5 := rfl
  rw [hgas]
  exact hproduct.trans (by omega)

theorem onePurse_total : SumsTo onePurse.system 10 :=
  (SumsTo.single 7 10).congr fun who => Function.update_apply (fun _ => 0) 7 10 who

/-- The account `7` has `10`. It pays `5` in advance, and in the end `2`. -/
theorem execute_settled_till :
    ∃ info world', execute tillConfig tillExecutor 7 3 5 (some 1) none tillRun onePurse =
        some (.ok info, world') ∧
      ∃ (totalFee : U256) (mid : World Purses) (rs : List (Except ExitError Unit))
        (st : StackState Purses Unit) (charged : ℕ),
        totalFee.val = 5 ∧
        prepare tillConfig 7 3 5 (some 1) none onePurse = .ok (1, some totalFee.val, mid) ∧
        stackCalls tillConfig tillExecutor.metadataOps (tillRun ⟨1, 7⟩ mid).trace.calls
          (.new () ⟨mid, []⟩) = some (rs, st) ∧
        Settled (fun l who => l who) (fun l who => l who ≠ 0) 7 totalFee
          ((tillRun ⟨1, 7⟩ mid).fee 1) st.storage.current world' 10 charged := by
  obtain ⟨mid, hprep⟩ : ∃ mid, prepare tillConfig 7 3 5 (some 1) none onePurse =
    .ok (1, some 5, mid) := ⟨_, rfl⟩
  obtain ⟨info, world', hexecute⟩ := execute_of_prepare
    (fun who amount s imbalance s' h => (feeLaws_till.deposit who amount s imbalance s' h).1)
    tillExecutor tillRun hprep
  exact ⟨info, world', hexecute, execute_settled feeLaws_till
    (conserves_of_moves moveLaws_till tillExecutor 5 tillRun) tillRun_bounded onePurse_total
    (by decide) hexecute⟩

end Shadows.Evm
