import Shadows.Evm.Ledger
import Shadows.Evm.Proofs.JournalProofs

/-!
# Proofs: the ledger obeys the laws

The ledger keeps nonces as `frame_system` and `pallet_balances` do, and its executor increments the
nonce of the caller exactly once, if the gas limit covers the intrinsic cost.
-/

namespace Shadows.Evm

open Foundations

namespace Ledger

/-- Taking does not touch other nonces, and that of the account only if it dies. -/
theorem take_nonce {who : H160} {amount : ℕ} {l l' : Ledger} (h : take who amount l = some l')
    (hamount : 0 < amount) :
    (∀ other, (other = who → ¬ ledgerHoldings.Reaps who amount l) →
      (l' other).nonce = (l other).nonce) ∧
      (ledgerHoldings.Reaps who amount l → (l' who).nonce = 0) := by
  unfold take at h
  dsimp only at h
  split at h
  · cases h
  · split at h
    · rename_i hfree hleft
      rw [Option.some.injEq] at h
      subst h
      refine ⟨fun other _ => ?_, fun ⟨_, _, hlow⟩ => ?_⟩
      · by_cases hother : other = who
        · rw [hother, Function.update_self]
        · rw [Function.update_of_ne hother]
      · have hlow' : (l who).free < amount + existentialDeposit := hlow
        omega
    · rename_i hfree hleft
      split at h
      · rename_i hconsumers
        rw [Option.some.injEq] at h
        subst h
        refine ⟨fun other hkept => ?_, fun _ => by rw [Function.update_self]⟩
        by_cases hother : other = who
        · have hreaps : ledgerHoldings.Reaps who amount l := by
            refine ⟨hamount, fun href => href hconsumers, ?_⟩
            show (l who).free < amount + existentialDeposit
            omega
          exact absurd hreaps (hkept hother)
        · rw [Function.update_of_ne hother]
      · cases h

theorem update_nonce (l : Ledger) (who other : H160) {account : LedgerAccount}
    (h : account.nonce = (l who).nonce) :
    (Function.update l who account other).nonce = (l other).nonce := by
  by_cases hother : other = who
  · rw [hother, Function.update_self, h]
  · rw [Function.update_of_ne hother]

theorem give_nonce (who other : H160) (amount : ℕ) (l : Ledger) :
    (give who amount l other).nonce = (l other).nonce := update_nonce l who other rfl

theorem transfer_nonce {source target : H160} {amount : ℕ} {l l' : Ledger}
    (h : transfer source target amount l = some l') :
    (∀ other, (other = source → source ≠ target → ¬ ledgerHoldings.Reaps source amount l) →
      (l' other).nonce = (l other).nonce) ∧
      (source ≠ target → ledgerHoldings.Reaps source amount l → (l' source).nonce = 0) := by
  unfold transfer at h
  split at h
  · rename_i htrivial
    rw [Option.some.injEq] at h
    subst h
    refine ⟨fun _ _ => rfl, fun hne ⟨hpos, _⟩ => ?_⟩
    rcases htrivial with hzero | hself
    · omega
    · exact absurd hself hne
  · rename_i hmoves
    rw [not_or] at hmoves
    obtain ⟨hamount, hne⟩ := hmoves
    split at h
    · cases h
    · rw [Option.map_eq_some_iff] at h
      obtain ⟨mid, htake, rfl⟩ := h
      obtain ⟨hkept, hreaped⟩ := take_nonce htake (Nat.pos_of_ne_zero hamount)
      refine ⟨fun other hother => ?_, fun _ hreaps => ?_⟩
      · rw [give_nonce]
        exact hkept other fun hsource => hother hsource hne
      · rw [give_nonce]
        exact hreaped hreaps

theorem withdraw_nonce {who : H160} {amount imbalance : ℕ} {l l' : Ledger}
    (h : withdraw who amount l = some (imbalance, l')) :
    (∀ other, (other = who → ¬ ledgerHoldings.Reaps who amount l) →
      (l' other).nonce = (l other).nonce) ∧
      (ledgerHoldings.Reaps who amount l → (l' who).nonce = 0) := by
  unfold withdraw at h
  by_cases hzero : amount = 0
  · rw [if_pos hzero, Option.some.injEq, Prod.mk.injEq] at h
    obtain ⟨-, rfl⟩ := h
    refine ⟨fun _ _ => rfl, fun ⟨hpos, _⟩ => ?_⟩
    omega
  · rw [if_neg hzero, Option.map_eq_some_iff] at h
    obtain ⟨mid, htake, hmid⟩ := h
    rw [Prod.mk.injEq] at hmid
    obtain ⟨-, rfl⟩ := hmid
    exact take_nonce htake (Nat.pos_of_ne_zero hzero)

theorem depositIntoExisting_nonce {who other : H160} {amount imbalance : ℕ} {l l' : Ledger}
    (h : depositIntoExisting who amount l = some (imbalance, l')) :
    (l' other).nonce = (l other).nonce := by
  unfold depositIntoExisting at h
  split at h
  · rw [Option.some.injEq, Prod.mk.injEq] at h
    rw [h.2]
  · split at h
    · cases h
    · rw [Option.some.injEq, Prod.mk.injEq] at h
      rw [← h.2]
      exact give_nonce who other amount l

theorem depositCreating_nonce (who other : H160) (amount : ℕ) (l : Ledger) :
    (depositCreating who amount l other).nonce = (l other).nonce := by
  unfold depositCreating
  by_cases hlow : (l who).free + amount < existentialDeposit
  · rw [if_pos hlow]
  · rw [if_neg hlow]
    exact give_nonce who other amount l

theorem incConsumers_nonce (who other : H160) (l : Ledger) :
    (incConsumers who l other).nonce = (l other).nonce := by
  unfold incConsumers
  by_cases hfree : (l who).free = 0
  · rw [if_pos hfree]
  · rw [if_neg hfree]
    exact update_nonce l who other rfl

end Ledger

theorem ledgerSystem_laws : SystemLaws ledgerSystem ledgerHoldings where
  inc_self := by
    intro who l hlt
    show (Ledger.incAccountNonce who l who).nonce.toNat = (l who).nonce.toNat + 1
    unfold Ledger.incAccountNonce
    rw [Function.update_self, UInt32.toNat_add]
    exact Nat.mod_eq_of_lt hlt
  inc_other := by
    intro who other l hother
    show (Ledger.incAccountNonce who l other).nonce = (l other).nonce
    unfold Ledger.incAccountNonce
    rw [Function.update_of_ne hother]
  incConsumers := Ledger.incConsumers_nonce
  decConsumers := fun who other l => Ledger.update_nonce l who other rfl
  withdraw := fun _ _ _ _ _ h => (Ledger.withdraw_nonce h).1
  withdraw_reaps := fun _ _ _ _ _ h => (Ledger.withdraw_nonce h).2
  depositIntoExisting := fun _ _ _ _ _ h _ => Ledger.depositIntoExisting_nonce h
  depositCreating := fun who amount l other => Ledger.depositCreating_nonce who other amount l
  transfer := fun _ _ _ _ _ h => (Ledger.transfer_nonce h).1
  transfer_reaps := fun _ _ _ _ _ h => (Ledger.transfer_nonce h).2
  onUnbalanced := fun _ _ _ => rfl
  dropPositive := fun _ _ _ => rfl

/-! ## The executor -/

section Exits

variable {S AccountId : Type} {cfg : Config S AccountId}

theorem codeExecutor_exit {x : Exit} {st st' : StackState S Unit} {r : Except ExitError Unit}
    (h : stackCall cfg (codeExecutor cfg).metadataOps (.exit x) st = some (r, st')) : r = .ok () := by
  obtain ⟨⟨world, worlds⟩, substate⟩ := st
  cases substate with
  | root f => cases x <;> cases h
  | child exited parent =>
    cases worlds with
    | nil => cases x <;> cases h
    | cons w worlds => cases x <;> (cases h; rfl)

/-- Metadata that account for nothing let every exit succeed. -/
theorem codeExecutor_exits {calls : List StackCall} : ∀ {st st' : StackState S Unit}
    {rs : List (Except ExitError Unit)},
      stackCalls cfg (codeExecutor cfg).metadataOps calls st = some (rs, st') →
        ∀ r ∈ rs, r = .ok () := by
  induction calls with
  | nil =>
    intro st st' rs h r hr
    rw [stackCalls, Option.some.injEq, Prod.mk.injEq] at h
    rw [← h.1] at hr
    exact absurd hr List.not_mem_nil
  | cons c cs ih =>
    intro st st' rs h r hr
    obtain ⟨r₀, mid, rs', hcall, hrest, rfl⟩ := stackCalls_cons h
    rcases List.mem_cons.1 hr with rfl | hr
    · cases c with
      | enter args => cases hcall; rfl
      | op o => cases hcall; rfl
      | exit x => exact codeExecutor_exit hcall
    · exact ih hrest r hr

end Exits

/-- A run of the ledger's executor: nothing without the intrinsic cost, else a transfer. -/
theorem ledgerExecutor_run {R : Type} {source target : H160} {value : U256} {result : R}
    {gasLimit usedGas : UInt64} {cost : ℕ} {world : World Ledger} :
    RunLaws ledgerConfig ledgerExecutor source cost gasLimit world
      (if gasLimit.toNat < cost then outOfGasRun result gasLimit
        else transferRun source target value result gasLimit usedGas world) where
  exits := fun _ _ h => codeExecutor_exits h
  increments := by
    intro hcost
    rw [if_neg (Nat.not_lt.2 hcost)]
    unfold transferRun
    dsimp only [Trace.survivors]
    by_cases hfunded : (Ledger.transfer source target value.lowU128 world.system).isSome = true
    · simp [hfunded]
    · simp [hfunded]
  stops := by
    intro hcost
    rw [if_pos hcost]
    exact ⟨rfl, _, rfl⟩

theorem ledgerExecutor_laws : ExecutorLaws ledgerConfig ledgerExecutor callCost createCost where
  call := fun _ _ _ _ _ _ _ => ledgerExecutor_run
  create := fun _ _ _ _ _ _ => ledgerExecutor_run

/-! ## The executor that runs code -/

section Code

variable {S AccountId R : Type} {cfg : Config S AccountId}

/-- What a code does is done by its contract. -/
theorem mem_codeOps {contract : H160} {code : Bytes} {o : StackOp} (h : o ∈ codeOps contract code) :
    code ≠ [] ∧ (∀ address, o = .incNonce address → address = contract) ∧
      (∀ sender receiver value, o = .transfer sender receiver value → sender = contract) ∧
      ∀ address, o.CreatesAt address → address.toNat < 256 := by
  have hsmall : ∀ byte : UInt8, (BitVec.ofNat 160 byte.toNat).toNat < 256 := by
    intro byte
    have hlt := byte.toNat_lt
    rw [BitVec.toNat_ofNat]
    omega
  unfold codeOps at h
  split at h
  · obtain rfl := List.mem_singleton.1 h
    exact ⟨nofun, nofun, fun _ _ _ heq => (StackOp.transfer.inj heq).1.symm, fun _ => False.elim⟩
  · simp only [List.mem_cons, List.not_mem_nil, or_false] at h
    obtain rfl | rfl | rfl := h
    · exact ⟨nofun, fun _ heq => (StackOp.incNonce.inj heq).symm, nofun, fun _ => False.elim⟩
    · exact ⟨nofun, nofun, nofun, fun _ heq => heq ▸ hsmall _⟩
    · exact ⟨nofun, nofun, nofun, fun _ heq => heq ▸ hsmall _⟩
  · exact absurd h List.not_mem_nil

theorem mem_codeRun {source target : H160} {value : U256} {ops : List StackOp} {result : R}
    {gasLimit usedGas : UInt64} {world : World S} {o : StackOp}
    (h : .op o ∈ (codeRun cfg source target value ops result gasLimit usedGas world).trace.calls) :
    o = .incNonce source ∨ o ∈ ops := by
  simpa [codeRun, Trace.calls] using h

theorem survivors_codeRun (cfg : Config S AccountId) (source target : H160) (value : U256)
    (ops : List StackOp) (result : R) (gasLimit usedGas : UInt64) (world : World S) :
    (codeRun cfg source target value ops result gasLimit usedGas world).trace.survivors =
        .incNonce source :: ops ∨
      (codeRun cfg source target value ops result gasLimit usedGas world).trace.survivors =
        [.incNonce source] := by
  unfold codeRun
  dsimp only [Trace.survivors]
  by_cases hfunded : (cfg.system.transfer (cfg.intoAccountId source) (cfg.intoAccountId target)
      value.lowU128 world.system).isSome = true
  · left
    simp [hfunded]
  · right
    simp [hfunded]

/-- A run of which the operations increment nobody's nonce but those of contracts. -/
theorem codeRun_nonces {source target : H160} {value : U256} {ops : List StackOp} {result : R}
    {gasLimit usedGas : UInt64} {world : World S} {starts : Prop} [Decidable starts]
    (hops : ∀ address, .incNonce address ∈ ops → ¬ Codeless address world) :
    RunNonces cfg (codeExecutor cfg) source starts gasLimit world
      (if starts then codeRun cfg source target value ops result gasLimit usedGas world
        else outOfGasRun result gasLimit) where
  exits := fun _ _ h => codeExecutor_exits h
  own := by
    intro address hmem
    split_ifs at hmem with hstarts
    · have hcases : .incNonce address = StackOp.incNonce source ∨ .incNonce address ∈ ops := by
        obtain hrun | hrun := survivors_codeRun cfg source target value ops result gasLimit
          usedGas world
        · exact List.mem_cons.1 (hrun ▸ hmem)
        · exact .inl (List.mem_singleton.1 (hrun ▸ hmem))
      obtain heq | hmem := hcases
      · exact .inl (StackOp.incNonce.inj heq)
      · exact .inr (.inl (hops address hmem))
    · exact absurd hmem List.not_mem_nil
  increments := by
    intro hcodeless _ hstarts
    rw [if_pos hstarts]
    obtain hrun | hrun := survivors_codeRun cfg source target value ops result gasLimit usedGas
      world
    · rw [hrun, List.count_cons_self, List.count_eq_zero.2 fun hmem => hops source hmem hcodeless]
    · rw [hrun, List.count_singleton_self]
  stops := by
    intro hstops
    rw [if_neg hstops]
    rfl

theorem codeExecutor_nonces : NonceLaws cfg (codeExecutor cfg) callCost createCost where
  call := by
    intro source target value input gasLimit vicinity world
    refine codeRun_nonces fun address hmem => ?_
    obtain heq | hmem := List.mem_cons.1 hmem
    · cases heq
    · obtain ⟨hcode, hown, -, -⟩ := mem_codeOps hmem
      rw [hown address rfl]
      exact hcode
  create := by
    intro source value init gasLimit vicinity world
    refine codeRun_nonces fun address hmem => ?_
    simp at hmem

/-- The executor creates contracts at small addresses only. -/
theorem codeExecutor_call_creates {address source target : H160} {value : U256} {input : Bytes}
    {gasLimit : UInt64} {vicinity : Vicinity} {world : World S}
    (h : Creates address ((codeExecutor cfg).transactCall source target value input gasLimit vicinity
      world)) : address.toNat < 256 := by
  obtain ⟨o, hmem, hcreates⟩ := h
  simp only [codeExecutor] at hmem
  split_ifs at hmem
  · obtain rfl | hmem := mem_codeRun hmem
    · exact hcreates.elim
    · obtain rfl | hmem := List.mem_cons.1 hmem
      · exact hcreates.elim
      · exact (mem_codeOps hmem).2.2.2 address hcreates
  · exact absurd hmem List.not_mem_nil

end Code

end Shadows.Evm
