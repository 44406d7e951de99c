import Shadows.Ethereum.Histories
import Shadows.Ethereum.Proofs.DigestAgreementProofs
import Shadows.Evm.Proofs.LedgerProofs
import Shadows.Evm.Proofs.RunnerProofs

/-!
# Proofs: replay protection

An accepted transaction carries the nonce of its sender and raises it; a step that keeps the sender
does not lower it. So the nonce stays above that of the transaction, which is never accepted again.
-/

namespace Shadows.Ethereum

open Consensus

variable {S AccountId M : Type} {rt : Runtime S AccountId M} {hold : Evm.Holdings S AccountId}
  {who : AccountId} {callCost createCost : Bytes → ℕ}

/-! ## One transaction -/

theorem runLaws_call (hexec : Evm.ExecutorLaws rt.evm rt.executor callCost createCost)
    {transaction : Transaction} {source target : H160} (haction : transaction.action = .call target)
    (vicinity : Evm.Vicinity) (world : Evm.World S) :
    Evm.RunLaws rt.evm rt.executor source (intrinsicCost callCost createCost transaction)
      transaction.gasLimit.lowU64 world
      (rt.executor.transactCall source target transaction.value transaction.input
        transaction.gasLimit.lowU64 vicinity world) := by
  unfold intrinsicCost
  simp only [haction]
  exact hexec.call source target transaction.value transaction.input transaction.gasLimit.lowU64
    vicinity world

theorem runLaws_create (hexec : Evm.ExecutorLaws rt.evm rt.executor callCost createCost)
    {transaction : Transaction} {source : H160} (haction : transaction.action = .create)
    (vicinity : Evm.Vicinity) (world : Evm.World S) :
    Evm.RunLaws rt.evm rt.executor source (intrinsicCost callCost createCost transaction)
      transaction.gasLimit.lowU64 world
      (Evm.createOperation rt.executor source transaction.input transaction.value
        transaction.gasLimit.lowU64 vicinity world) := by
  unfold intrinsicCost
  simp only [haction]
  have hrun := hexec.create source transaction.value transaction.input transaction.gasLimit.lowU64
    vicinity world
  exact ⟨hrun.exits, hrun.increments, hrun.stops⟩

theorem TransactKeeps.call {transaction : Transaction} {st : State (Evm.World S)}
    (h : TransactKeeps rt hold who transaction st) {source target : H160}
    (haction : transaction.action = .call target)
    (hsigner : recoverSigner rt.ethereum transaction = some source) :
    Evm.ExecuteKeeps rt.evm hold who source transaction.value transaction.gasLimit.lowU64
      (some transaction.gasPrice) (some transaction.nonce)
      (rt.executor.transactCall source target transaction.value transaction.input
        transaction.gasLimit.lowU64) st.world := by
  have hkept := h source hsigner
  simp only [haction] at hkept
  exact hkept

theorem TransactKeeps.create {transaction : Transaction} {st : State (Evm.World S)}
    (h : TransactKeeps rt hold who transaction st) {source : H160}
    (haction : transaction.action = .create)
    (hsigner : recoverSigner rt.ethereum transaction = some source) :
    Evm.ExecuteKeeps rt.evm hold who source transaction.value transaction.gasLimit.lowU64
      (some transaction.gasPrice) (some transaction.nonce)
      (Evm.createOperation rt.executor source transaction.input transaction.value
        transaction.gasLimit.lowU64) st.world := by
  have hkept := h source hsigner
  simp only [haction] at hkept
  exact hkept

/-- `do_transact` fails without an effect, or has the outcome of a run of the runner of `pallet_evm` for
the signer, of which it keeps the gas used and the logs. `P` is what is known of the operation. -/
theorem doTransact_ran {transaction : Transaction} {st st' : State (Evm.World S)}
    {r : Except DispatchError UInt64}
    (P : H160 → ∀ R : Type, (Evm.Vicinity → Evm.World S → Evm.ExecutorRun R) → Prop)
    (hcall : ∀ source target, transaction.action = .call target → P source Bytes
      (rt.executor.transactCall source target transaction.value transaction.input
        transaction.gasLimit.lowU64))
    (hcreate : ∀ source, transaction.action = .create → P source H160
      (Evm.createOperation rt.executor source transaction.input transaction.value
        transaction.gasLimit.lowU64))
    (h : doTransact rt.ethereum transaction st = some (r, st')) :
    (∃ e, r = .error e ∧ st' = st) ∨
      ∃ source R f r', recoverSigner rt.ethereum transaction = some source ∧ P source R f ∧
        Evm.execute rt.evm rt.executor source transaction.value transaction.gasLimit.lowU64
          (some transaction.gasPrice) (some transaction.nonce) f st.world = some (r', st'.world) ∧
        ((∃ e e', r = .error e ∧ r' = .error e') ∨
          ∃ weight info entry, r = .ok weight ∧ r' = .ok info ∧ entry.1 = transaction ∧
            entry.2.2.usedGas = info.usedGas ∧ entry.2.2.logs = info.logs ∧
            st'.pending = st.pending ++ [entry]) := by
  obtain ⟨e, rfl, rfl⟩ | ⟨source, out, world, -, hsigner, hexecute, hout⟩ := doTransact_outcome h
  · exact .inl ⟨e, rfl, rfl⟩
  refine .inr ⟨source, ?_⟩
  obtain ⟨target, r', haction, hrun, rfl⟩ | ⟨r', haction, hrun, rfl⟩ := execute_cases hexecute
  · rw [rt.runner_eq] at hrun
    refine ⟨Bytes, _, r', hsigner, hcall source target haction, ?_⟩
    obtain ⟨e, herror, rfl, rfl⟩ | ⟨«to», contractAddress, info, reason, status, usedGas, receipt,
      events, hinfo, hsummary, hgas, -, hlogs, rfl, rfl⟩ := hout
    · refine ⟨hrun, .inl ⟨e, ?_⟩⟩
      cases r' with
      | error e' => exact ⟨e', rfl, rfl⟩
      | ok res => cases herror
    · cases r' with
      | error e' => cases hinfo
      | ok res =>
        cases hinfo
        cases hsummary
        exact ⟨hrun, .inr ⟨_, res, (transaction, _, receipt), rfl, rfl, rfl, hgas, hlogs, rfl⟩⟩
  · rw [rt.runner_eq] at hrun
    refine ⟨H160, _, r', hsigner, hcreate source haction, ?_⟩
    obtain ⟨e, herror, rfl, rfl⟩ | ⟨«to», contractAddress, info, reason, status, usedGas, receipt,
      events, hinfo, hsummary, hgas, -, hlogs, rfl, rfl⟩ := hout
    · refine ⟨hrun, .inl ⟨e, ?_⟩⟩
      cases r' with
      | error e' => exact ⟨e', rfl, rfl⟩
      | ok res => cases herror
    · cases r' with
      | error e' => cases hinfo
      | ok res =>
        cases hinfo
        cases hsummary
        exact ⟨hrun, .inr ⟨_, res, (transaction, _, receipt), rfl, rfl, rfl, hgas, hlogs, rfl⟩⟩

/-- An accepted transaction carries the nonce of its sender. -/
theorem accepted_nonce {transaction : Transaction} {source : H160} {st st' : State (Evm.World S)}
    {weight : UInt64} (hsigner : recoverSigner rt.ethereum transaction = some source)
    (h : doTransact rt.ethereum transaction st = some (.ok weight, st')) :
    transaction.nonce.val = Evm.nonceOf rt.evm (rt.evm.intoAccountId source) st.world := by
  obtain ⟨_, herror, -⟩ | ⟨source', R, f, r, hsigner', -, hrun, hend⟩ :=
    doTransact_ran (fun _ _ _ => True) (fun _ _ _ => trivial) (fun _ _ => trivial) h
  · cases herror
  obtain ⟨_, _, herror, -⟩ | ⟨_, info, entry, -, rfl, -⟩ := hend
  · cases herror
  · rw [hsigner, Option.some.injEq] at hsigner'
    subst hsigner'
    exact Evm.accountBasic_nonce (Evm.execute_checks_nonce hrun _ rfl)

/-- A transaction that keeps an account does not lower its nonce. If it is accepted, it raises the
nonce of its sender, provided that its gas covers the intrinsic cost. -/
theorem doTransact_nonce (hsys : Evm.SystemLaws rt.evm.system hold)
    (hexec : Evm.ExecutorLaws rt.evm rt.executor callCost createCost) {transaction : Transaction}
    {st st' : State (Evm.World S)} {r : Except DispatchError UInt64}
    (hkeeps : TransactKeeps rt hold who transaction st)
    (h : doTransact rt.ethereum transaction st = some (r, st')) :
    Evm.nonceOf rt.evm who st.world ≤ Evm.nonceOf rt.evm who st'.world ∧
      ∀ source, recoverSigner rt.ethereum transaction = some source →
        rt.evm.intoAccountId source = who → (∃ weight, r = .ok weight) →
          intrinsicCost callCost createCost transaction ≤ transaction.gasLimit.lowU64.toNat →
            Evm.nonceOf rt.evm who st.world < Evm.nonceOf rt.evm who st'.world := by
  obtain ⟨e, rfl, rfl⟩ | ⟨source, R, f, r', hsigner, ⟨hlaws, hkept⟩, hrun, hend⟩ :=
    doTransact_ran (fun source _ f => (∀ vicinity world, Evm.RunLaws rt.evm rt.executor source
        (intrinsicCost callCost createCost transaction) transaction.gasLimit.lowU64 world
          (f vicinity world)) ∧
        (recoverSigner rt.ethereum transaction = some source → Evm.ExecuteKeeps rt.evm hold who source
          transaction.value transaction.gasLimit.lowU64 (some transaction.gasPrice)
            (some transaction.nonce) f st.world))
      (fun _ _ haction => ⟨runLaws_call hexec haction, hkeeps.call haction⟩)
      (fun _ haction => ⟨runLaws_create hexec haction, hkeeps.create haction⟩) h
  · exact ⟨le_refl _, fun _ _ _ ⟨_, hw⟩ => by cases hw⟩
  · obtain ⟨hle, hlt⟩ := Evm.execute_nonce hsys hlaws (hkept hsigner) hrun
    refine ⟨hle, fun source' hsigner' hwho ⟨weight, hw⟩ hgas => ?_⟩
    rw [hsigner, Option.some.injEq] at hsigner'
    subst hsigner'
    obtain ⟨_, _, rfl, -⟩ | ⟨_, info, _, -, rfl, -⟩ := hend
    · cases hw
    · exact hlt ⟨info, rfl⟩ hwho hgas

/-! ## Histories -/

theorem storeBlock_world {W : Type} {cfg : Config W} {postLog : Bool} {st st' : State W}
    (h : storeBlock cfg postLog st = some st') : st'.world = st.world := by
  obtain ⟨gasUsed, -, rfl⟩ := storeBlock_eq_some h
  rfl

theorem onInitialize_world {W : Type} {cfg : Config W} {st st' : State W} {input : BlockInput W}
    (h : onInitialize cfg (initializeBlock input st) = some st') : st'.world = st.world := by
  unfold onInitialize at h
  dsimp only at h
  split at h
  · rename_i block hpre
    have hstart : findPreLog ({ initializeBlock input st with pending := [] } : State W).digest =
        .ok (.block block) := hpre
    obtain ⟨-, rfl⟩ := executePreLog_eq_some hstart h
    rfl
  · rw [Option.some.injEq] at h
    rw [← h]
    rfl

theorem nextBlock_world {W : Type} {cfg : Config W} {st st' : State W} {input : BlockInput W}
    (h : ((onFinalize cfg st).bind fun st => onInitialize cfg (initializeBlock input st)) =
      some st') : st'.world = st.world := by
  rw [Option.bind_eq_some_iff] at h
  obtain ⟨mid, hfin, hinit⟩ := h
  exact (onInitialize_world hinit).trans (storeBlock_world hfin)

theorem KeepingStep.nonce_le (hsys : Evm.SystemLaws rt.evm.system hold)
    (hexec : Evm.ExecutorLaws rt.evm rt.executor callCost createCost)
    {st st' : State (Evm.World S)} (h : KeepingStep rt hold who st st') :
    Evm.nonceOf rt.evm who st.world ≤ Evm.nonceOf rt.evm who st'.world := by
  obtain ⟨a, hkeeps, hact⟩ := h
  cases a with
  | transact transaction =>
    rw [act, Option.map_eq_some_iff] at hact
    obtain ⟨⟨r, after⟩, hcall, rfl⟩ := hact
    exact (doTransact_nonce hsys hexec hkeeps hcall).1
  | transfer source target amount =>
    rw [act] at hact
    cases hcall : rt.evm.system.transfer source target amount st.world.system with
    | none =>
      simp only [hcall, Option.some.injEq] at hact
      rw [hact]
    | some s =>
      simp only [hcall, Option.some.injEq] at hact
      rw [← hact]
      exact Evm.TransferKeeps.nonce_le hsys hkeeps hcall
  | withdraw source amount =>
    rw [act] at hact
    cases hcall : rt.evm.system.withdraw source amount st.world.system with
    | none =>
      simp only [hcall, Option.some.injEq] at hact
      rw [hact]
    | some out =>
      simp only [hcall, Option.some.injEq] at hact
      rw [← hact]
      exact Evm.WithdrawKeeps.nonce_le hsys hkeeps hcall
  | deposit target amount =>
    rw [act, Option.some.injEq] at hact
    rw [← hact]
    show Evm.nonceOf rt.evm who st.world ≤ (rt.evm.system.accountNonce
      (rt.evm.system.depositCreating target amount st.world.system) who).toNat
    rw [hsys.depositCreating]
    exact le_refl _
  | nextBlock digest timestamp =>
    rw [nextBlock_world hact]

theorem keepingSteps_nonce_le (hsys : Evm.SystemLaws rt.evm.system hold)
    (hexec : Evm.ExecutorLaws rt.evm rt.executor callCost createCost)
    {st st' : State (Evm.World S)} (h : Relation.ReflTransGen (KeepingStep rt hold who) st st') :
    Evm.nonceOf rt.evm who st.world ≤ Evm.nonceOf rt.evm who st'.world := by
  induction h with
  | refl => exact le_refl _
  | tail _ hstep ih => exact le_trans ih (hstep.nonce_le hsys hexec)

/-! ## Calls on the ledger -/

/-- A call that the pallet's `execute` runs is accepted, unless there is a pre-log. -/
theorem doTransact_of_execute {W : Type} {cfg : Config W} {transaction : Transaction}
    {st : State W} {e : FindLogError} {source : H160}
    {out : Option H160 × Option H160 × CallOrCreateInfo} {world : W}
    (hpre : findPreLog st.digest = .error e)
    (hsigner : recoverSigner cfg transaction = some source)
    (hexecute : execute cfg source transaction.input transaction.value transaction.gasLimit
      (some transaction.gasPrice) (some transaction.nonce) transaction.action st.world =
        some (.ok out, world)) :
    ∃ weight st', doTransact cfg transaction st = some (.ok weight, st') ∧ st'.world = world ∧
      st'.digest = st.digest := by
  unfold doTransact
  simp only [hpre, hsigner, hexecute]
  exact ⟨_, _, rfl, rfl, rfl⟩

/-- On the ledger a call is accepted in a state without digest, if it is executed. -/
theorem accepted_of_ledgerCall {transaction : Transaction} {st : State (Evm.World Evm.Ledger)}
    {l : Evm.Ledger} {out : Option H160 × Option H160 × CallOrCreateInfo} (l' : Evm.Ledger)
    (hworld : st.world = bareWorld l) (hdigest : st.digest = [])
    (hcall : ledgerCall transaction l = some (.ok out, Evm.depositLogs []
      (Evm.removeDeleted Evm.ledgerConfig ∅ (bareWorld l')))) :
    ∃ weight st', doTransact ledgerRuntime.ethereum transaction st = some (.ok weight, st') ∧
      st'.world = bareWorld l' ∧ st'.digest = [] := by
  rw [Evm.removeDeleted_empty] at hcall
  have hpre : findPreLog st.digest = .error .notFound := by
    rw [hdigest]
    rfl
  have hsigner : recoverSigner ledgerRuntime.ethereum transaction = some caller := rfl
  have hexecute : execute ledgerRuntime.ethereum caller transaction.input transaction.value
      transaction.gasLimit (some transaction.gasPrice) (some transaction.nonce) transaction.action
        st.world = some (.ok out, bareWorld l') := by
    rw [hworld]
    exact hcall
  obtain ⟨weight, st', h, hw, hd⟩ := doTransact_of_execute hpre hsigner hexecute
  exact ⟨weight, st', h, hw, hd.trans hdigest⟩

theorem update_soleAccount (nonce nonce' : UInt32) (free free' : ℕ) :
    Function.update (soleAccount nonce free) caller ⟨nonce', 0, free'⟩ = soleAccount nonce' free' :=
  Function.update_idem _ _ _

/-! ## Replays -/

/-- **Replay protection.** A transaction whose gas covers the intrinsic cost is not accepted again,
if it keeps the account of its sender and so does every later step. -/
theorem accepted_once (hsys : Evm.SystemLaws rt.evm.system hold)
    (hexec : Evm.ExecutorLaws rt.evm rt.executor callCost createCost) {transaction : Transaction}
    {source : H160} {st st₁ st₂ : State (Evm.World S)} {weight : UInt64}
    (hsigner : recoverSigner rt.ethereum transaction = some source)
    (haccepted : doTransact rt.ethereum transaction st = some (.ok weight, st₁))
    (hgas : intrinsicCost callCost createCost transaction ≤ transaction.gasLimit.lowU64.toNat)
    (hkeeps : TransactKeeps rt hold (rt.evm.intoAccountId source) transaction st)
    (hrun : Relation.ReflTransGen (KeepingStep rt hold (rt.evm.intoAccountId source)) st₁ st₂) :
    ∀ weight' st₃, doTransact rt.ethereum transaction st₂ ≠ some (.ok weight', st₃) := by
  intro weight' st₃ hagain
  have hfirst := accepted_nonce hsigner haccepted
  have hsecond := accepted_nonce hsigner hagain
  have hraised := (doTransact_nonce hsys hexec hkeeps haccepted).2 source hsigner rfl
    ⟨weight, rfl⟩ hgas
  have hkept := keepingSteps_nonce_le hsys hexec hrun
  omega

theorem callWithNonce_keeps :
    TransactKeeps ledgerRuntime Evm.ledgerHoldings caller (callWithNonce 0) (funded 100000) := by
  intro source hsigner
  have hsource : caller = source := by
    have hs : some caller = some source := hsigner
    exact Option.some.inj hs
  subst hsource
  intro price fee world hprep
  have hprepared : Evm.prepare Evm.ledgerConfig caller 0 21000 (some 1) (some 0)
      (bareWorld (soleAccount 0 100000)) = .ok (1, some 21000,
        bareWorld (Function.update (soleAccount 0 100000) caller ⟨0, 0, 79000⟩)) := rfl
  have hpaid := hprepared.symm.trans hprep
  simp only [Except.ok.injEq, Prod.mk.injEq] at hpaid
  obtain ⟨rfl, rfl, rfl⟩ := hpaid
  refine ⟨fun _ hne => absurd rfl hne, ?_⟩
  show Evm.OpsKeep Evm.ledgerConfig Evm.ledgerHoldings caller
    [.incNonce caller, .transfer caller 7 0] _
  refine ⟨fun _ => ?_, fun _ _ _ _ hreaps => ?_, trivial⟩
  · show 0 + 1 < 2 ^ 32
    omega
  · exact absurd hreaps.1 (Nat.lt_irrefl 0)

theorem accepted_once_caller :
    ∃ st₁ st₂ weight,
      doTransact ledgerRuntime.ethereum (callWithNonce 0) (funded 100000) =
        some (.ok weight, st₁) ∧
      act ledgerRuntime (.transfer caller 7 600) st₁ = some st₂ ∧
      ∀ weight' st₃, doTransact ledgerRuntime.ethereum (callWithNonce 0) st₂ ≠
        some (.ok weight', st₃) := by
  have hstart : (funded 100000).world = bareWorld (soleAccount 0 100000) := rfl
  obtain ⟨weight, st₁, hfirst, hworld, hdigest⟩ := accepted_of_ledgerCall
    (Function.update (Function.update (soleAccount 0 100000) caller ⟨0, 0, 79000⟩)
      caller ⟨1, 0, 79000⟩) hstart rfl
    (show ledgerCall (callWithNonce 0) (soleAccount 0 100000) = some (.ok (_, _, _), _) from rfl)
  rw [update_soleAccount, update_soleAccount] at hworld
  have hkeeps : (Action.transfer caller 7 600).Keeps ledgerRuntime Evm.ledgerHoldings caller st₁ := by
    intro _ _ _ _ hreaps
    rw [hworld] at hreaps
    have hlow : 79000 < 600 + 500 := hreaps.2.2
    omega
  have htransfer : ∃ st₂, act ledgerRuntime (.transfer caller 7 600) st₁ = some st₂ := by
    rw [act]
    cases ledgerRuntime.evm.system.transfer caller 7 600 st₁.world.system with
    | none => exact ⟨_, rfl⟩
    | some s => exact ⟨_, rfl⟩
  obtain ⟨st₂, htransfer⟩ := htransfer
  exact ⟨st₁, st₂, weight, hfirst, htransfer,
    accepted_once Evm.ledgerSystem_laws Evm.ledgerExecutor_laws rfl hfirst (by decide)
      callWithNonce_keeps (.single ⟨_, hkeeps, htransfer⟩)⟩

/-- A call below the intrinsic cost is charged for, and the nonce stays. -/
theorem lowGas_replayed : AcceptedTwice ledgerRuntime lowGas (funded 100000) := by
  have hstart : (funded 100000).world = bareWorld (soleAccount 0 100000) := rfl
  obtain ⟨weight, st₁, hfirst, hworld, hdigest⟩ := accepted_of_ledgerCall
    (Function.update (soleAccount 0 100000) caller ⟨0, 0, 80000⟩) hstart rfl
    (show ledgerCall lowGas (soleAccount 0 100000) = some (.ok (_, _, _), _) from rfl)
  rw [update_soleAccount] at hworld
  obtain ⟨weight', st₃, hsecond, -, -⟩ := accepted_of_ledgerCall
    (Function.update (soleAccount 0 80000) caller ⟨0, 0, 60000⟩) hworld hdigest
    (show ledgerCall lowGas (soleAccount 0 80000) = some (.ok (_, _, _), _) from rfl)
  exact ⟨st₁, st₁, st₃, weight, weight', hfirst, .refl, hsecond⟩

theorem depositCreating_caller {l : Evm.Ledger} {free : ℕ} (hl : l caller = ⟨0, 0, 0⟩)
    (hfree : 500 ≤ free) :
    Evm.Ledger.depositCreating caller free l = Function.update l caller ⟨0, 0, free⟩ := by
  have hlow : ¬ 0 + free < Evm.existentialDeposit := by
    unfold Evm.existentialDeposit
    omega
  unfold Evm.Ledger.depositCreating Evm.Ledger.give
  rw [hl, if_neg hlow, Nat.zero_add]

theorem ledger_deposit {st : State (Evm.World Evm.Ledger)} {l : Evm.Ledger} (target : H160)
    (amount : ℕ) (hworld : st.world = bareWorld l) :
    ∃ st', act ledgerRuntime (.deposit target amount) st = some st' ∧
      st'.world = bareWorld (Evm.Ledger.depositCreating target amount l) ∧
      st'.digest = st.digest := by
  refine ⟨_, rfl, ?_, rfl⟩
  unfold withSystem
  rw [hworld]
  rfl

/-- A call that empties the account removes its nonce; once the account is funded again, the call is
accepted again. -/
theorem emptying_replayed : AcceptedTwice ledgerRuntime emptying (funded 21550) := by
  have hstart : (funded 21550).world = bareWorld (soleAccount 0 21550) := rfl
  obtain ⟨weight, st₁, hfirst, hworld, hdigest⟩ := accepted_of_ledgerCall
    (Function.update (Function.update (Function.update (Function.update (soleAccount 0 21550)
      caller ⟨0, 0, 550⟩) caller ⟨1, 0, 550⟩) caller ⟨0, 0, 0⟩) 7 ⟨0, 0, 550⟩) hstart rfl
    (show ledgerCall emptying (soleAccount 0 21550) = some (.ok (_, _, _), _) from rfl)
  rw [update_soleAccount, update_soleAccount, update_soleAccount] at hworld
  obtain ⟨st₂, hdeposit, hworld₂, hdigest₂⟩ := ledger_deposit caller 21550 hworld
  rw [depositCreating_caller rfl (by omega)] at hworld₂
  obtain ⟨weight', st₃, hsecond, -, -⟩ := accepted_of_ledgerCall
    (Function.update (Function.update (Function.update (Function.update (Function.update
      (Function.update (soleAccount 0 0) 7 ⟨0, 0, 550⟩) caller ⟨0, 0, 21550⟩) caller ⟨0, 0, 550⟩)
        caller ⟨1, 0, 550⟩) caller ⟨0, 0, 0⟩) 7 ⟨0, 0, 1100⟩)
    hworld₂ (hdigest₂.trans hdigest) (show ledgerCall emptying _ = some (.ok (_, _, _), _) from rfl)
  exact ⟨st₁, st₂, st₃, weight, weight', hfirst, .single ⟨_, hdeposit⟩, hsecond⟩

/-- The ledger and its executor obey the laws, and transactions are replayed. -/
theorem ledgerRuntime_replays :
    Evm.SystemLaws ledgerRuntime.evm.system Evm.ledgerHoldings ∧
      Evm.ExecutorLaws ledgerRuntime.evm ledgerRuntime.executor Evm.callCost Evm.createCost ∧
      AcceptedTwice ledgerRuntime lowGas (funded 100000) ∧
      AcceptedTwice ledgerRuntime emptying (funded 21550) ∧ ¬ ReplayProtected ledgerRuntime :=
  ⟨Evm.ledgerSystem_laws, Evm.ledgerExecutor_laws, lowGas_replayed, emptying_replayed,
    fun h => h _ _ lowGas_replayed⟩

end Shadows.Ethereum
