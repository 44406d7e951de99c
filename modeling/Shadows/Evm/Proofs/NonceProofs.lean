import Shadows.Evm.Proofs.ContractProofs

/-!
# Proofs: the nonce after a transaction

What does not remove an account with a nonce leaves the nonce exactly as it is, up to the increments. The
executor increments the nonce of a caller without code once, if it starts at all, and otherwise only those
of contracts.
-/

namespace Shadows.Evm

open Foundations

variable {S AccountId M R : Type} {cfg : Config S AccountId} {hold : Holdings S AccountId}
  {who : AccountId}

section Laws

variable (hsys : SystemLaws cfg.system hold)
include hsys

/-! ## Balances -/

/-- A withdrawal that removes the account finds its nonce at zero. -/
theorem WithdrawKeeps.nonce_eq {source : AccountId} {amount imbalance : ℕ} {s s' : S}
    (h : WithdrawKeeps cfg hold who source amount s)
    (hcall : cfg.system.withdraw source amount s = some (imbalance, s')) :
    cfg.system.accountNonce s' who = cfg.system.accountNonce s who := by
  by_cases hreaps : who = source ∧ hold.Reaps source amount s
  · obtain ⟨rfl, hreaps⟩ := hreaps
    have hzero : cfg.system.accountNonce s who = 0 := by
      by_contra hne
      exact h rfl hne (by rw [hcall]; rfl) hreaps
    rw [hsys.withdraw_reaps _ _ _ _ _ hcall hreaps, hzero]
  · exact hsys.withdraw _ _ _ _ _ hcall who fun hwho hreaped => hreaps ⟨hwho, hreaped⟩

theorem TransferKeeps.nonce_eq {source target : AccountId} {amount : ℕ} {s s' : S}
    (h : TransferKeeps cfg hold who source target amount s)
    (hcall : cfg.system.transfer source target amount s = some s') :
    cfg.system.accountNonce s' who = cfg.system.accountNonce s who := by
  by_cases hreaps : who = source ∧ source ≠ target ∧ hold.Reaps source amount s
  · obtain ⟨rfl, hne, hreaps⟩ := hreaps
    have hzero : cfg.system.accountNonce s who = 0 := by
      by_contra hnonzero
      exact h rfl hne hnonzero (by rw [hcall]; rfl) hreaps
    rw [hsys.transfer_reaps _ _ _ _ _ hcall hne hreaps, hzero]
  · exact hsys.transfer _ _ _ _ _ hcall who fun hwho hne hreaped => hreaps ⟨hwho, hne, hreaped⟩

/-! ## Operations of the executor -/

variable {address : H160}
  (hsole : ∀ other, cfg.intoAccountId other = cfg.intoAccountId address → other = address)
include hsole

theorem StackOp.Keeps.nonce_eq {o : StackOp} {world : World S}
    (h : o.Keeps cfg hold (cfg.intoAccountId address) world) :
    nonceOf cfg (cfg.intoAccountId address) (o.applyWorld cfg world) =
      nonceOf cfg (cfg.intoAccountId address) world + [o].count (.incNonce address) := by
  cases o with
  | incNonce other =>
    show nonceOf cfg _ (Evm.incNonce cfg other world) = _
    by_cases hother : other = address
    · subst hother
      rw [nonceOf_incNonce hsys h rfl, List.count_singleton_self]
    · have hne : StackOp.incNonce other ≠ .incNonce address := fun heq =>
        hother (StackOp.incNonce.inj heq)
      rw [List.count_singleton, beq_false_of_ne hne]
      unfold nonceOf Evm.incNonce
      rw [hsys.inc_other _ _ _ fun heq => hother (hsole _ heq.symm)]
      rfl
  | transfer source target value =>
    show nonceOf cfg _ (Evm.transfer cfg source target value world).2 = _
    unfold Evm.transfer
    cases hcall : cfg.system.transfer (cfg.intoAccountId source) (cfg.intoAccountId target)
        value.lowU128 world.system with
    | none => rfl
    | some s =>
      show (cfg.system.accountNonce s _).toNat = _
      rw [TransferKeeps.nonce_eq hsys h hcall]
      rfl
  | setCode other code => exact nonceOf_createAccount hsys other code world
  | setStorage other index value => rfl
  | resetStorage other => rfl
  | log other topics data => rfl
  | setDeleted other => rfl

theorem OpsKeep.nonce_eq {os : List StackOp} : ∀ {e : Effects S},
    OpsKeep cfg hold (cfg.intoAccountId address) os e.world →
      nonceOf cfg (cfg.intoAccountId address) (Journal.replay (StackOp.apply cfg) os e).world =
        nonceOf cfg (cfg.intoAccountId address) e.world + os.count (.incNonce address) := by
  induction os with
  | nil => exact fun _ => rfl
  | cons o os ih =>
    intro e h
    obtain ⟨ho, hos⟩ := h
    have hfirst := ho.nonce_eq hsys hsole
    have hrest := ih (e := o.apply cfg e) hos
    have hworld : (o.apply cfg e).world = o.applyWorld cfg e.world := rfl
    rw [hworld, hfirst] at hrest
    have hcount : (o :: os).count (.incNonce address) =
        [o].count (.incNonce address) + os.count (.incNonce address) := by
      rw [← List.count_append, List.singleton_append]
    rw [hcount, ← Nat.add_assoc]
    exact hrest

end Laws

/-! ## Execution -/

section Execution

/-- The increments of the nonce of an address without code in a run: one, if the address is the caller and
the run starts. -/
theorem RunNonces.count_eq {exec : Executor S M} {source address : H160} {starts : Prop}
    [Decidable starts] {gasLimit : UInt64} {world : World S} {run : ExecutorRun R}
    (hlaws : RunNonces cfg exec source starts gasLimit world run) (hcodeless : Codeless address world)
    (hnone : ¬ Creates address run) :
    run.trace.survivors.count (.incNonce address) = if source = address ∧ starts then 1 else 0 := by
  by_cases hstarts : starts
  · by_cases hsource : source = address
    · subst hsource
      rw [if_pos ⟨rfl, hstarts⟩, hlaws.increments hcodeless hnone hstarts]
    · rw [if_neg fun h => hsource h.1, List.count_eq_zero]
      exact fun hmem => not_acts hsource hcodeless hnone (hlaws.own address hmem)
  · rw [if_neg fun h => hstarts h.2, hlaws.stops hstarts]
    rfl

variable (hsys : SystemLaws cfg.system hold)
include hsys

/-- A successful execution raises the nonce of an address that it keeps by one, if the address is its
source and the run starts, and else not at all. -/
theorem execute_nonce_eq {exec : Executor S M} {source address : H160} {value : U256}
    {gasLimit : UInt64} {gasPrice nonce : Option U256} {starts : World S → Prop} [DecidablePred starts]
    {f : Vicinity → World S → ExecutorRun R} {world world' : World S} {info : ExecutionInfo R}
    (hsole : ∀ other, cfg.intoAccountId other = cfg.intoAccountId address → other = address)
    (hlaws : ∀ vicinity world,
      RunNonces cfg exec source (starts world) gasLimit world (f vicinity world))
    (hcodeless : Codeless address world)
    (hnone : ¬ ExecuteCreates cfg address source value gasLimit gasPrice nonce f world)
    (hkeeps : ExecuteKeeps cfg hold (cfg.intoAccountId address) source value gasLimit gasPrice nonce
      f world)
    (h : execute cfg exec source value gasLimit gasPrice nonce f world = some (.ok info, world')) :
    ∃ price fee paid, prepare cfg source value gasLimit gasPrice nonce world = .ok (price, fee, paid) ∧
      nonceOf cfg (cfg.intoAccountId address) world' =
        nonceOf cfg (cfg.intoAccountId address) world +
          if source = address ∧ starts paid then 1 else 0 := by
  obtain ⟨e, -, herror, -⟩ |
    ⟨price, fee, mid, rs, st, result, after, hprep, hcalls, hfee, hend⟩ := execute_cases h
  · cases herror
  obtain ⟨hwithdraw, hops⟩ := hkeeps price fee mid hprep
  obtain ⟨-, imbalance, s, hcall, -, hmid⟩ := prepare_ok hprep
  have hpaid : nonceOf cfg (cfg.intoAccountId address) mid =
      nonceOf cfg (cfg.intoAccountId address) world := by
    rw [hmid]
    exact congrArg UInt32.toNat (hwithdraw.nonce_eq hsys hcall)
  have hbody : nonceOf cfg (cfg.intoAccountId address) st.storage.current =
      nonceOf cfg (cfg.intoAccountId address) mid +
        (f ⟨price, source⟩ mid).trace.survivors.count (.incNonce address) := by
    rw [(stackCalls_replay hcalls ((hlaws ⟨price, source⟩ mid).exits rs st hcalls)).world]
    exact OpsKeep.nonce_eq hsys hsole (e := ⟨mid, [], ∅⟩) hops
  have hafter : nonceOf cfg (cfg.intoAccountId address) after =
      nonceOf cfg (cfg.intoAccountId address) st.storage.current := by
    have hkept : nonceOf cfg (cfg.intoAccountId address) (correctAndDepositFee cfg source
        ((f ⟨price, source⟩ mid).fee price) fee st.storage.current).2 =
          nonceOf cfg (cfg.intoAccountId address) st.storage.current :=
      nonceOf_correctAndDepositFee hsys _ _ _ _
    rwa [hfee] at hkept
  obtain ⟨_, -, herror, -⟩ | ⟨_, -, -, rfl⟩ := hend
  · cases herror
  · have hlogs : nonceOf cfg (cfg.intoAccountId address) (depositLogs st.substate.frame.logs
        (removeDeleted cfg st.substate.frame.deletes after)) =
          nonceOf cfg (cfg.intoAccountId address) after :=
      nonceOf_removeDeleted hsys st.substate.frame.deletes after
    refine ⟨price, fee, mid, hprep, ?_⟩
    rw [hlogs, hafter, hbody, hpaid,
      (hlaws ⟨price, source⟩ mid).count_eq (hcodeless.prepare hprep)
        fun hcreates => hnone ⟨price, fee, mid, hprep, hcreates⟩]

end Execution

end Shadows.Evm
