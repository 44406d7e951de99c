import Shadows.Evm.Dispatch
import Shadows.Evm.Proofs.ContractProofs

/-!
# Proofs: the calls of `pallet_evm`

A call that the pallet does not allow changes nothing. An execution takes from nobody but its source and
the contracts that it runs, so that an address without code is spent by nobody else.
-/

namespace Shadows.Evm

open Foundations

variable {S AccountId M R : Type}

/-! ## One call -/

section Dispatch

variable {pallet : Pallet S AccountId M} {origin : Origin AccountId} {world world' : World S}
  {result : Except DispatchError PostDispatchInfo} {events : List PalletEvent}

/-- An execution that is dispatched ends at the check of the origin, or with what the runner returns. -/
theorem dispatchExecution_cases {source : H160} {value : U256} {gasLimit : UInt64} {gasPrice : U256}
    {nonce : Option U256} {f : Vicinity → World S → ExecutorRun R}
    {outcome : ExitReason → R → PalletEvent}
    (h : dispatchExecution pallet origin source value gasLimit gasPrice nonce f outcome world =
      some (result, events, world')) :
    ((∃ refused, pallet.callOrigin source origin = .error refused) ∧ result = .error .badOrigin ∧
      events = [] ∧ world' = world) ∨
    pallet.callOrigin source origin = .ok () ∧ ∃ r,
      execute pallet.config pallet.executor source value gasLimit (some gasPrice) nonce f world =
        some (r, world') ∧
      ((∃ e, r = .error e ∧ result = .error (.module e) ∧ events = []) ∨
        ∃ info, r = .ok info ∧
          result = .ok ⟨some (pallet.gasToWeight info.usedGas.saturatedU64), false⟩ ∧
          events = info.logs.map .log ++ [outcome info.exitReason info.value]) := by
  unfold dispatchExecution at h
  cases horigin : pallet.callOrigin source origin with
  | error refused =>
    simp only [horigin, Option.some.injEq, Prod.mk.injEq] at h
    exact .inl ⟨⟨refused, rfl⟩, h.1.symm, h.2.1.symm, h.2.2.symm⟩
  | ok _ =>
    simp only [horigin, Option.map_eq_some_iff, Prod.exists] at h
    obtain ⟨r, after, hexecute, hend⟩ := h
    cases r with
    | error e =>
      simp only [Prod.mk.injEq] at hend
      obtain ⟨rfl, rfl, rfl⟩ := hend
      exact .inr ⟨rfl, _, hexecute, .inl ⟨e, rfl, rfl, rfl⟩⟩
    | ok info =>
      simp only [Prod.mk.injEq] at hend
      obtain ⟨rfl, rfl, rfl⟩ := hend
      exact .inr ⟨rfl, _, hexecute, .inr ⟨info, rfl, rfl, rfl⟩⟩

/-- A withdrawal is refused, fails, or moves the value to the account that the origin is allowed for. -/
theorem dispatchWithdraw_cases {address : H160} {value : ℕ}
    (h : dispatchWithdraw pallet origin address value world = (result, events, world')) :
    ((∃ refused, pallet.withdrawOrigin address origin = .error refused) ∧ result = .error .badOrigin ∧
      events = [] ∧ world' = world) ∨
    ∃ destination, pallet.withdrawOrigin address origin = .ok destination ∧ events = [] ∧
      ((pallet.config.system.transfer (pallet.config.intoAccountId address) destination value
            world.system = none ∧ result = .error .currency ∧ world' = world) ∨
        ∃ system, pallet.config.system.transfer (pallet.config.intoAccountId address) destination value
            world.system = some system ∧
          result = .ok ⟨none, true⟩ ∧ world' = { world with system := system }) := by
  unfold dispatchWithdraw at h
  cases horigin : pallet.withdrawOrigin address origin with
  | error refused =>
    simp only [horigin, Prod.mk.injEq] at h
    exact .inl ⟨⟨refused, rfl⟩, h.1.symm, h.2.1.symm, h.2.2.symm⟩
  | ok destination =>
    simp only [horigin] at h
    cases htransfer : pallet.config.system.transfer (pallet.config.intoAccountId address) destination
        value world.system with
    | none =>
      simp only [htransfer, Prod.mk.injEq] at h
      exact .inr ⟨destination, rfl, h.2.1.symm, .inl ⟨htransfer, h.1.symm, h.2.2.symm⟩⟩
    | some system =>
      simp only [htransfer, Prod.mk.injEq] at h
      exact .inr ⟨destination, rfl, h.2.1.symm, .inr ⟨system, htransfer, h.1.symm, h.2.2.symm⟩⟩

theorem Accepted.eq_ok {Success : Type} {answer : Except (Origin AccountId) Success}
    (h : Accepted answer) : ∃ success, answer = .ok success := by
  cases answer with
  | error refused => exact h.elim
  | ok success => exact ⟨success, rfl⟩

theorem not_accepted {Success : Type} {answer : Except (Origin AccountId) Success}
    (h : ¬ Accepted answer) : ∃ refused, answer = .error refused := by
  cases answer with
  | error refused => exact ⟨refused, rfl⟩
  | ok success => exact absurd trivial h

/-- What the pallet does not allow changes nothing and deposits nothing. -/
theorem dispatch_refused {c : PalletCall} (hrefused : ¬ Allows pallet origin c) :
    dispatch pallet origin world c = some (.error .badOrigin, [], world) := by
  cases c with
  | withdraw address value =>
    obtain ⟨refused, horigin⟩ := not_accepted hrefused
    simp only [dispatch, dispatchWithdraw, horigin]
  | call source target input value gasLimit gasPrice nonce =>
    obtain ⟨refused, horigin⟩ := not_accepted hrefused
    simp only [dispatch, dispatchExecution, horigin]
  | create source init value gasLimit gasPrice nonce =>
    obtain ⟨refused, horigin⟩ := not_accepted hrefused
    simp only [dispatch, dispatchExecution, horigin]
  | create2 source init salt value gasLimit gasPrice nonce =>
    obtain ⟨refused, horigin⟩ := not_accepted hrefused
    simp only [dispatch, dispatchExecution, horigin]

end Dispatch

/-! ## What is reported -/

section Reports

variable {pallet : Pallet S AccountId M}

theorem saturatedU64_ofU64 (gas : UInt64) : (U256.ofU64 gas).saturatedU64 = gas := by
  have hlt := gas.toNat_lt
  have hmin : min (U256.ofU64 gas).val (2 ^ 64 - 1) = gas.toNat := by
    show min gas.toNat _ = _
    omega
  unfold U256.saturatedU64
  rw [hmin, UInt64.ofNat_toNat]

/-- The event of an outcome is no log. -/
theorem PalletCall.Ends.deposited {world : World S} {c : PalletCall} {usedGas : U256}
    {logs : List Shadows.Log} {event : PalletEvent} (h : c.Ends pallet world usedGas logs event) :
    event.deposited = none := by
  cases h with
  | call source target input value gasLimit gasPrice nonce info =>
    split_ifs
    · rfl
    · rfl
  | create source init value gasLimit gasPrice nonce info =>
    split_ifs
    · rfl
    · rfl
  | create2 source init salt value gasLimit gasPrice nonce info =>
    split_ifs
    · rfl
    · rfl

/-- The log events that a call reports are those that it adds to the state. -/
theorem Reports.deposited {world world' : World S} {call : Origin AccountId × PalletCall}
    {report : Except DispatchError PostDispatchInfo × List PalletEvent}
    (h : Reports pallet world call report world') :
    world'.events = world.events ++ report.2.filterMap PalletEvent.deposited := by
  cases h with
  | refused origin c h => exact (List.append_nil _).symm
  | failed origin c h e world' hfails hevents => exact hevents.trans (List.append_nil _).symm
  | withdrawn origin address value destination h system hmoves => exact (List.append_nil _).symm
  | executed origin c h usedGas logs event hends hweight world' hevents =>
    show _ = _ ++ (logs.map PalletEvent.log ++ [event]).filterMap PalletEvent.deposited
    rw [hevents, List.filterMap_append, List.filterMap_map, List.filterMap_cons_none hends.deposited,
      List.filterMap_nil, List.append_nil]
    exact congrArg _ (congrFun List.filterMap_eq_map.symm _)

theorem ReportsAll.deposited {world world' : World S} {calls : List (Origin AccountId × PalletCall)}
    {reports : List (Except DispatchError PostDispatchInfo × List PalletEvent)}
    (h : ReportsAll pallet world calls reports world') :
    world'.events = world.events ++
      (reports.flatMap fun report => report.2).filterMap PalletEvent.deposited := by
  induction h with
  | nil world => exact (List.append_nil _).symm
  | cons h hrest ih =>
    rw [ih, h.deposited, List.flatMap_cons, List.filterMap_append, List.append_assoc]

/-- An execution from an allowed origin fails without an event, or reports its logs and its outcome. -/
theorem dispatchExecution_reports (hweight : ∀ gas gas', gas ≤ gas' →
      pallet.gasToWeight gas ≤ pallet.gasToWeight gas') {origin : Origin AccountId} {c : PalletCall}
    {gasLimit : UInt64} (hdeclared : c.weight pallet = pallet.gasToWeight gasLimit)
    (hallows : Allows pallet origin c ↔ Accepted (pallet.callOrigin c.address origin)) {value : U256}
    {gasPrice : U256} {nonce : Option U256} {f : Vicinity → World S → ExecutorRun R}
    (hgas : ∀ vicinity world, (f vicinity world).usedGas ≤ gasLimit)
    {outcome : ExitReason → R → PalletEvent} (world : World S)
    (hfails : ∀ e world', execute pallet.config pallet.executor c.address value gasLimit (some gasPrice)
      nonce f world = some (.error e, world') → c.Fails pallet world (.module e) world')
    (hends : ∀ info, Returns pallet.config pallet.executor c.address value gasLimit (some gasPrice) nonce
      f world info → c.Ends pallet world info.usedGas info.logs (outcome info.exitReason info.value)) :
    ∃ result events world', dispatchExecution pallet origin c.address value gasLimit gasPrice nonce f
        outcome world = some (result, events, world') ∧
      Reports pallet world (origin, c) (result, events) world' := by
  obtain ⟨⟨result, events, world'⟩, hdispatch⟩ : ∃ out, dispatchExecution pallet origin c.address value
      gasLimit gasPrice nonce f outcome world = some out := by
    unfold dispatchExecution
    obtain ⟨r, world', hexecute⟩ := execute_isSome pallet.config pallet.executor c.address value gasLimit
      (some gasPrice) nonce f world
    cases pallet.callOrigin c.address origin with
    | error refused => exact ⟨_, rfl⟩
    | ok _ =>
      simp only [hexecute, Option.map_some]
      exact ⟨_, rfl⟩
  refine ⟨result, events, world', hdispatch, ?_⟩
  obtain ⟨⟨refused, horigin⟩, rfl, rfl, rfl⟩ | ⟨horigin, r, hexecute, hend⟩ :=
    dispatchExecution_cases hdispatch
  · refine .refused origin c ?_
    rw [hallows, horigin]
    exact id
  have hallowed : Allows pallet origin c := by
    rw [hallows, horigin]
    exact trivial
  obtain ⟨e, rfl, rfl, rfl⟩ | ⟨info, rfl, rfl, rfl⟩ := hend
  · exact .failed origin c hallowed (.module e) world' (hfails e world' hexecute)
      (execute_error_events hexecute)
  · have hreturns := execute_returns hexecute
    have hle : pallet.gasToWeight info.usedGas.saturatedU64 ≤ c.weight pallet := by
      obtain ⟨price, fee, paid, rs, st, -, -, rfl⟩ := hreturns
      rw [saturatedU64_ofU64, hdeclared]
      exact hweight _ _ (hgas _ _)
    exact .executed origin c hallowed info.usedGas info.logs _ (hends info hreturns) hle world'
      (execute_ok_events hexecute)

theorem callOutcome_eq (target : H160) (reason : ExitReason) (output : Bytes) :
    callOutcome target reason output =
      if reason = .succeed then .executed target else .executedFailed target := by
  cases reason with
  | succeed => rfl
  | error e => rfl
  | revert => rfl
  | fatal => rfl

theorem createOutcome_eq (reason : ExitReason) (address : H160) :
    createOutcome reason address =
      if reason = .succeed then .created address else .createdFailed address := by
  cases reason with
  | succeed => rfl
  | error e => rfl
  | revert => rfl
  | fatal => rfl

/-- A withdrawal is refused, fails or moves the balance. -/
theorem dispatchWithdraw_reports (origin : Origin AccountId) (address : H160) (value : ℕ)
    (world : World S) :
    ∃ result events world', some (dispatchWithdraw pallet origin address value world) =
        some (result, events, world') ∧
      Reports pallet world (origin, .withdraw address value) (result, events) world' := by
  obtain ⟨⟨result, events, world'⟩, hdispatch⟩ : ∃ out,
    dispatchWithdraw pallet origin address value world = out := ⟨_, rfl⟩
  refine ⟨result, events, world', congrArg some hdispatch, ?_⟩
  obtain ⟨⟨refused, horigin⟩, rfl, rfl, rfl⟩ | ⟨destination, horigin, rfl, hend⟩ :=
    dispatchWithdraw_cases hdispatch
  · refine .refused origin _ ?_
    show ¬ Accepted (pallet.withdrawOrigin address origin)
    rw [horigin]
    exact id
  · obtain ⟨htransfer, rfl, rfl⟩ | ⟨system, htransfer, rfl, rfl⟩ := hend
    · have hallowed : Allows pallet origin (.withdraw address value) := by
        show Accepted (pallet.withdrawOrigin address origin)
        rw [horigin]
        exact trivial
      exact .failed origin _ hallowed .currency world' (.withdraw address value destination htransfer)
        rfl
    · exact .withdrawn origin address value destination horigin system htransfer

/-- A call does not panic, and reports what it should. -/
theorem dispatch_reports (hgas : GasLaws pallet.executor pallet.create2)
    (hweight : ∀ gas gas', gas ≤ gas' → pallet.gasToWeight gas ≤ pallet.gasToWeight gas')
    (origin : Origin AccountId) (c : PalletCall) (world : World S) :
    ∃ result events world', dispatch pallet origin world c = some (result, events, world') ∧
      Reports pallet world (origin, c) (result, events) world' := by
  cases c with
  | withdraw address value => exact dispatchWithdraw_reports origin address value world
  | call source target input value gasLimit gasPrice nonce =>
    have hdeclared : (PalletCall.call source target input value gasLimit gasPrice nonce).weight pallet =
        pallet.gasToWeight gasLimit := rfl
    refine dispatchExecution_reports hweight hdeclared Iff.rfl
      (fun vicinity world => hgas.call source target value input gasLimit vicinity world) world
      (fun e world' => .call source target input value gasLimit gasPrice nonce e world') ?_
    intro info hreturns
    rw [callOutcome_eq]
    exact .call source target input value gasLimit gasPrice nonce info hreturns
  | create source init value gasLimit gasPrice nonce =>
    have hdeclared : (PalletCall.create source init value gasLimit gasPrice nonce).weight pallet =
        pallet.gasToWeight gasLimit := rfl
    have hused : ∀ vicinity world,
        (createOperation pallet.executor source init value gasLimit vicinity world).usedGas ≤ gasLimit :=
      fun vicinity world => hgas.create source value init gasLimit vicinity world
    refine dispatchExecution_reports hweight hdeclared Iff.rfl hused world
      (fun e world' => .create source init value gasLimit gasPrice nonce e world') ?_
    intro info hreturns
    rw [createOutcome_eq]
    exact .create source init value gasLimit gasPrice nonce info hreturns
  | create2 source init salt value gasLimit gasPrice nonce =>
    have hdeclared : (PalletCall.create2 source init salt value gasLimit gasPrice nonce).weight pallet =
        pallet.gasToWeight gasLimit := rfl
    have hused : ∀ vicinity world, (create2Operation pallet.create2 source init salt value gasLimit
        vicinity world).usedGas ≤ gasLimit :=
      fun vicinity world => hgas.create2 source value init salt gasLimit vicinity world
    refine dispatchExecution_reports hweight hdeclared Iff.rfl hused world
      (fun e world' => .create2 source init salt value gasLimit gasPrice nonce e world') ?_
    intro info hreturns
    rw [createOutcome_eq]
    exact .create2 source init salt value gasLimit gasPrice nonce info hreturns

/-- Calls that the pallet does not allow make no difference to a run. -/
theorem runDispatches_allowed (calls : List (Origin AccountId × PalletCall)) :
    ∀ {world world' : World S}
      {results : List (Except DispatchError PostDispatchInfo × List PalletEvent)},
      runDispatches pallet calls world = some (results, world') →
        ∃ results', runDispatches pallet (calls.filter fun call => Allows pallet call.1 call.2) world =
          some (results', world') := by
  induction calls with
  | nil =>
    intro world world' results h
    exact ⟨results, h⟩
  | cons call rest ih =>
    intro world world' results h
    obtain ⟨origin, c⟩ := call
    simp only [runDispatches, Option.bind_eq_some_iff, Option.map_eq_some_iff, Prod.exists,
      Prod.mk.injEq] at h
    obtain ⟨result, events, mid, hdispatch, results', world'', hrest, rfl, rfl⟩ := h
    obtain ⟨kept, hkept⟩ := ih hrest
    by_cases hallows : Allows pallet origin c
    · refine ⟨(result, events) :: kept, ?_⟩
      simp only [List.filter_cons, hallows, decide_true, if_true, runDispatches, hdispatch, hkept,
        Option.bind_some, Option.map_some]
    · rw [dispatch_refused hallows] at hdispatch
      obtain ⟨-, -, rfl⟩ := Prod.mk.inj (Option.some.inj hdispatch)
      refine ⟨kept, ?_⟩
      simp only [List.filter_cons, hallows, decide_false, Bool.false_eq_true, if_false, hkept]

/-- **Reports.** Whatever is dispatched to the pallet, by anybody and in any order, no call panics, each
reports as it should, and the events that the run adds to the state are the logs of its reports. The state
at the end is the same without the calls that the pallet does not allow. -/
theorem dispatches_report (hgas : GasLaws pallet.executor pallet.create2)
    (hweight : ∀ gas gas', gas ≤ gas' → pallet.gasToWeight gas ≤ pallet.gasToWeight gas')
    (calls : List (Origin AccountId × PalletCall)) (world : World S) :
    ∃ results world', runDispatches pallet calls world = some (results, world') ∧
      ReportsAll pallet world calls results world' ∧
      world'.events = world.events ++
        (results.flatMap fun report => report.2).filterMap PalletEvent.deposited ∧
      ∃ results', runDispatches pallet (calls.filter fun call => Allows pallet call.1 call.2) world =
        some (results', world') := by
  have hrun : ∃ results world', runDispatches pallet calls world = some (results, world') ∧
      ReportsAll pallet world calls results world' := by
    induction calls generalizing world with
    | nil => exact ⟨[], world, rfl, .nil world⟩
    | cons call rest ih =>
      obtain ⟨origin, c⟩ := call
      obtain ⟨result, events, mid, hdispatch, hreports⟩ := dispatch_reports hgas hweight origin c world
      obtain ⟨results, world', hrest, hall⟩ := ih mid
      refine ⟨(result, events) :: results, world', ?_, .cons hreports hall⟩
      simp only [runDispatches, hdispatch, hrest, Option.bind_some, Option.map_some]
  obtain ⟨results, world', hdispatches, hall⟩ := hrun
  exact ⟨results, world', hdispatches, hall, hall.deposited, runDispatches_allowed calls hdispatches⟩

end Reports

theorem samePallet_gas : GasLaws samePallet.executor samePallet.create2 where
  call := fun _ _ _ _ _ _ _ => UInt64.zero_le
  create := fun _ _ _ _ _ _ => UInt64.zero_le
  create2 := fun _ _ _ _ _ _ _ => UInt64.zero_le

theorem dispatches_report_same :
    ∃ results world', runDispatches samePallet callThenTheft onePurse = some (results, world') ∧
      ReportsAll samePallet onePurse callThenTheft results world' ∧
      world'.events = onePurse.events ++
        (results.flatMap fun report => report.2).filterMap PalletEvent.deposited ∧
      ∃ results', runDispatches samePallet (callThenTheft.filter fun call =>
        Allows samePallet call.1 call.2) onePurse = some (results', world') :=
  dispatches_report samePallet_gas (fun _ _ h => h) callThenTheft onePurse

/-! ## Custody -/

section Custody

variable {cfg : Config S AccountId} {who : AccountId}

theorem CustodyLaws.applyWorld (hlaws : CustodyLaws cfg.system who) (o : StackOp) (world : World S)
    (hspends : ∀ sender target value, o = .transfer sender target value →
      cfg.intoAccountId sender ≠ who) :
    freeOf cfg world who ≤ freeOf cfg (o.applyWorld cfg world) who := by
  cases o with
  | incNonce address => exact (hlaws.incAccountNonce _ _).ge
  | setStorage address index value => exact le_rfl
  | resetStorage address => exact le_rfl
  | log address topics data => exact le_rfl
  | setDeleted address => exact le_rfl
  | setCode address code =>
    show freeOf cfg world who ≤ freeOf cfg (createAccount cfg address code world) who
    unfold createAccount
    split_ifs
    · exact le_rfl
    · exact (hlaws.incConsumers _ _).ge
    · exact le_rfl
  | transfer source target value =>
    show freeOf cfg world who ≤ freeOf cfg (Evm.transfer cfg source target value world).2 who
    unfold Evm.transfer
    split
    · rename_i system htransfer
      exact hlaws.transfer _ _ _ _ _ (hspends source target value rfl) htransfer
    · exact le_rfl

theorem CustodyLaws.removeDeleted (hlaws : CustodyLaws cfg.system who) (deletes : Finset H160)
    (world : World S) : freeOf cfg (removeDeleted cfg deletes world) who = freeOf cfg world who := by
  have hremove : ∀ (address : H160) (w : World S),
      freeOf cfg (removeAccount cfg address w) who = freeOf cfg w who := by
    intro address w
    unfold removeAccount
    split_ifs
    · exact hlaws.decConsumers _ _
    · rfl
  unfold Evm.removeDeleted
  refine List.foldlRecOn (motive := fun w : World S => freeOf cfg w who = freeOf cfg world who) _ _ rfl
    fun w hw address _ => ?_
  rw [hremove, hw]

/-- A refund takes nothing from anybody. -/
theorem CustodyLaws.correctAndDepositFee (hlaws : CustodyLaws cfg.system who) {payer : H160}
    {correctedFee : U256} {paid : Option ℕ} {world world' : World S} {result : Except EvmError Unit}
    (h : correctAndDepositFee cfg payer correctedFee paid world = (result, world')) :
    freeOf cfg world who ≤ freeOf cfg world' who := by
  unfold Evm.correctAndDepositFee at h
  cases paid with
  | none =>
    obtain rfl := (Prod.mk.inj h).2
    exact le_rfl
  | some paid =>
    dsimp only at h
    have hrefund : cfg.system.freeBalance world.system who ≤ cfg.system.freeBalance
        ((cfg.system.depositIntoExisting (cfg.intoAccountId payer) (paid - correctedFee.lowU128)
          world.system).getD (0, world.system)).2 who := by
      cases hdeposit : cfg.system.depositIntoExisting (cfg.intoAccountId payer)
          (paid - correctedFee.lowU128) world.system with
      | none => exact le_rfl
      | some refunded => exact (hlaws.depositIntoExisting _ _ _ _ _ hdeposit).2
    split at h
    · obtain rfl := (Prod.mk.inj h).2
      exact hrefund.trans (hlaws.onUnbalanced _ _)
    · obtain rfl := (Prod.mk.inj h).2
      exact hrefund.trans (hlaws.dropPositive _ _)

/-- An execution takes nothing from an account that neither is that of its source nor has any of the value
that its run moves. -/
theorem execute_custody (hlaws : CustodyLaws cfg.system who) {exec : Executor S M} {source : H160}
    {value : U256} {gasLimit : UInt64} {gasPrice nonce : Option U256}
    {f : Vicinity → World S → ExecutorRun R} {world world' : World S}
    {r : Except EvmError (ExecutionInfo R)} (hsource : cfg.intoAccountId source ≠ who)
    (hspends : ∀ price fee paid,
      prepare cfg source value gasLimit gasPrice nonce world = .ok (price, fee, paid) →
        ∀ sender target value,
          .op (.transfer sender target value) ∈ (f ⟨price, source⟩ paid).trace.calls →
            cfg.intoAccountId sender ≠ who)
    (h : execute cfg exec source value gasLimit gasPrice nonce f world = some (r, world')) :
    freeOf cfg world who ≤ freeOf cfg world' who := by
  obtain ⟨e, -, -, rfl⟩ |
    ⟨price, fee, mid, rs, st, result, after, hprep, hcalls, hfee, hend⟩ := execute_cases h
  · exact le_rfl
  have hown := hspends price fee mid hprep
  obtain ⟨-, imbalance, s, hwithdraw, -, rfl⟩ := prepare_ok hprep
  have hpaid : freeOf cfg world who ≤ cfg.system.freeBalance s who :=
    (hlaws.withdraw _ _ _ _ _ hsource hwithdraw).ge
  have hop : ∀ (o : StackOp) (w : World S),
      .op o ∈ (f ⟨price, source⟩ { world with system := s }).trace.calls →
        freeOf cfg world who ≤ freeOf cfg w who →
          freeOf cfg world who ≤ freeOf cfg (o.applyWorld cfg w) who := by
    intro o w ho hw
    refine hw.trans (hlaws.applyWorld o w ?_)
    rintro sender target value rfl
    exact hown sender target value ho
  have hstart : ∀ w ∈ [{ world with system := s }], freeOf cfg world who ≤ freeOf cfg w who :=
    List.forall_mem_singleton.2 hpaid
  have hbody : freeOf cfg world who ≤ freeOf cfg st.storage.current who :=
    stackCalls_keeps hop hstart hcalls _ List.mem_cons_self
  have hafter := hbody.trans (hlaws.correctAndDepositFee hfee)
  obtain ⟨-, -, -, rfl⟩ | ⟨-, -, -, rfl⟩ := hend
  · exact hafter
  · show freeOf cfg world who ≤ freeOf cfg (Evm.removeDeleted cfg _ after) who
    rw [hlaws.removeDeleted]
    exact hafter

/-- Nobody but the address itself spends its balance in an execution, as long as it has no code and no
contract is created there. -/
theorem execute_spends {address : H160}
    (hsole : ∀ other, cfg.intoAccountId other = cfg.intoAccountId address → other = address)
    (hlaws : CustodyLaws cfg.system (cfg.intoAccountId address)) {exec : Executor S M} {source : H160}
    {value : U256} {gasLimit : UInt64} {gasPrice nonce : Option U256}
    {f : Vicinity → World S → ExecutorRun R} {world world' : World S}
    {r : Except EvmError (ExecutionInfo R)} (hsource : source ≠ address)
    (hspends : ∀ vicinity world, SpendsOwn source world (f vicinity world))
    (hcodeless : Codeless address world)
    (hnone : ¬ ExecuteCreates cfg address source value gasLimit gasPrice nonce f world)
    (h : execute cfg exec source value gasLimit gasPrice nonce f world = some (r, world')) :
    freeOf cfg world (cfg.intoAccountId address) ≤ freeOf cfg world' (cfg.intoAccountId address) := by
  refine execute_custody hlaws (fun heq => hsource (hsole _ heq)) ?_ h
  intro price fee paid hprep sender target value hmem haccount
  obtain rfl := hsole sender haccount
  exact not_acts hsource (hcodeless.prepare hprep)
    (fun hcreates => hnone ⟨price, fee, paid, hprep, hcreates⟩) (hspends _ _ sender target value hmem)

end Custody

section DispatchCustody

variable {pallet : Pallet S AccountId M} {address : H160} {origin : Origin AccountId}
  {world world' : World S} {result : Except DispatchError PostDispatchInfo} {events : List PalletEvent}

/-- An execution that is dispatched gives the address no code, and takes from it only if it is the source. -/
theorem dispatchExecution_custody
    (hsole : ∀ other, pallet.config.intoAccountId other = pallet.config.intoAccountId address →
      other = address)
    (hlaws : CustodyLaws pallet.config.system (pallet.config.intoAccountId address)) {source : H160}
    {value : U256} {gasLimit : UInt64} {gasPrice : U256} {nonce : Option U256}
    {f : Vicinity → World S → ExecutorRun R} {outcome : ExitReason → R → PalletEvent}
    (hspends : ∀ vicinity world, SpendsOwn source world (f vicinity world))
    (hcodeless : Codeless address world)
    (hnone : ¬ ExecuteCreates pallet.config address source value gasLimit (some gasPrice) nonce f world)
    (h : dispatchExecution pallet origin source value gasLimit gasPrice nonce f outcome world =
      some (result, events, world')) :
    Codeless address world' ∧ (freeOf pallet.config world' (pallet.config.intoAccountId address) <
      freeOf pallet.config world (pallet.config.intoAccountId address) → source = address) := by
  obtain ⟨-, -, -, rfl⟩ | ⟨-, r, hexecute, -⟩ := dispatchExecution_cases h
  · exact ⟨hcodeless, fun hfalls => absurd hfalls (lt_irrefl _)⟩
  · refine ⟨hcodeless.execute hnone hexecute, fun hfalls => ?_⟩
    by_contra hsource
    exact absurd hfalls (execute_spends hsole hlaws hsource hspends hcodeless hnone hexecute).not_gt

variable (pallet) in
/-- A call gives an address without code none, unless it creates a contract there, and its balance falls
only in a call that acts for it, from an origin that the pallet allows to. -/
theorem dispatch_custody
    (hsole : ∀ other, pallet.config.intoAccountId other = pallet.config.intoAccountId address →
      other = address)
    (hlaws : CustodyLaws pallet.config.system (pallet.config.intoAccountId address))
    (hcaller : CallerLaws pallet.executor pallet.create2) {c : PalletCall}
    (hcodeless : Codeless address world)
    (hnone : ¬ (Allows pallet origin c ∧ c.Creates pallet address world))
    (h : dispatch pallet origin world c = some (result, events, world')) :
    Codeless address world' ∧ (freeOf pallet.config world' (pallet.config.intoAccountId address) <
      freeOf pallet.config world (pallet.config.intoAccountId address) →
        c.address = address ∧ Allows pallet origin c) := by
  by_cases hallows : Allows pallet origin c
  · have hnone' : ¬ c.Creates pallet address world := fun hcreates => hnone ⟨hallows, hcreates⟩
    cases c with
    | withdraw source value =>
      obtain ⟨-, -, -, rfl⟩ | ⟨destination, -, -, ⟨-, -, rfl⟩ | ⟨system, htransfer, -, rfl⟩⟩ :=
        dispatchWithdraw_cases (Option.some.inj h)
      · exact ⟨hcodeless, fun hfalls => absurd hfalls (lt_irrefl _)⟩
      · exact ⟨hcodeless, fun hfalls => absurd hfalls (lt_irrefl _)⟩
      · refine ⟨hcodeless, fun hfalls => ⟨?_, hallows⟩⟩
        by_contra hsource
        have haccount : pallet.config.intoAccountId source ≠ pallet.config.intoAccountId address :=
          fun heq => hsource (hsole _ heq)
        exact absurd hfalls (hlaws.transfer _ _ _ _ _ haccount htransfer).not_gt
    | call source target input value gasLimit gasPrice nonce =>
      obtain ⟨hkept, hsource⟩ := dispatchExecution_custody hsole hlaws
        (fun vicinity world => hcaller.call source target value input gasLimit vicinity world)
        hcodeless hnone' h
      exact ⟨hkept, fun hfalls => ⟨hsource hfalls, hallows⟩⟩
    | create source init value gasLimit gasPrice nonce =>
      have hspends : ∀ vicinity world, SpendsOwn source world
          (createOperation pallet.executor source init value gasLimit vicinity world) :=
        fun vicinity world => hcaller.create source value init gasLimit vicinity world
      obtain ⟨hkept, hsource⟩ := dispatchExecution_custody hsole hlaws hspends hcodeless hnone' h
      exact ⟨hkept, fun hfalls => ⟨hsource hfalls, hallows⟩⟩
    | create2 source init salt value gasLimit gasPrice nonce =>
      have hspends : ∀ vicinity world, SpendsOwn source world
          (create2Operation pallet.create2 source init salt value gasLimit vicinity world) :=
        fun vicinity world => hcaller.create2 source value init salt gasLimit vicinity world
      obtain ⟨hkept, hsource⟩ := dispatchExecution_custody hsole hlaws hspends hcodeless hnone' h
      exact ⟨hkept, fun hfalls => ⟨hsource hfalls, hallows⟩⟩
  · rw [dispatch_refused hallows] at h
    obtain ⟨-, -, rfl⟩ := Prod.mk.inj (Option.some.inj h)
    exact ⟨hcodeless, fun hfalls => absurd hfalls (lt_irrefl _)⟩

end DispatchCustody

end Shadows.Evm
