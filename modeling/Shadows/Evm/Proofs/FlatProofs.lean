import Shadows.Evm.Flat
import Shadows.Evm.Proofs.FrameProofs
import Shadows.Evm.Proofs.RunnerProofs

/-!
# Proofs: execution without a journal

Replaying the survivors of a run on the storage, the logs and the deleted accounts at once is the same as
replaying them on each alone.
-/

namespace Shadows.Evm

open Foundations

variable {S AccountId M R : Type} {cfg : Config S AccountId}

/-! ## The three parts of a replay -/

theorem applyOps_cons (cfg : Config S AccountId) (o : StackOp) (os : List StackOp) (world : World S) :
    applyOps cfg (o :: os) world = applyOps cfg os (o.applyWorld cfg world) :=
  rfl

theorem replay_cons (o : StackOp) (os : List StackOp) (e : Effects S) :
    Journal.replay (StackOp.apply cfg) (o :: os) e =
      Journal.replay (StackOp.apply cfg) os (o.apply cfg e) :=
  rfl

theorem world_replay (os : List StackOp) : ∀ e : Effects S,
    (Journal.replay (StackOp.apply cfg) os e).world = applyOps cfg os e.world := by
  induction os with
  | nil => exact fun _ => rfl
  | cons o os ih =>
    intro e
    rw [replay_cons, ih, applyOps_cons]
    rfl

theorem logs_replay (os : List StackOp) : ∀ e : Effects S,
    (Journal.replay (StackOp.apply cfg) os e).logs = e.logs ++ os.filterMap StackOp.emitted := by
  induction os with
  | nil => exact fun e => (List.append_nil e.logs).symm
  | cons o os ih =>
    intro e
    rw [replay_cons, ih]
    cases o with
    | log address topics data =>
      have happly : ((StackOp.log address topics data).apply cfg e).logs =
        e.logs ++ [⟨address, topics, data⟩] := rfl
      rw [happly, List.append_assoc]
      rfl
    | incNonce address => rfl
    | setStorage address index value => rfl
    | resetStorage address => rfl
    | setDeleted address => rfl
    | setCode address code => rfl
    | transfer source target value => rfl

theorem mem_deletion {os : List StackOp} {a : H160} :
    a ∈ (os.filterMap StackOp.deletion).toFinset ↔ .setDeleted a ∈ os := by
  rw [List.mem_toFinset, List.mem_filterMap]
  constructor
  · rintro ⟨o, ho, hdeletion⟩
    cases o with
    | setDeleted address =>
      obtain rfl := Option.some.inj hdeletion
      exact ho
    | incNonce address => cases hdeletion
    | setStorage address index value => cases hdeletion
    | resetStorage address => cases hdeletion
    | log address topics data => cases hdeletion
    | setCode address code => cases hdeletion
    | transfer source target value => cases hdeletion
  · exact fun h => ⟨.setDeleted a, h, rfl⟩

theorem deletes_replay (os : List StackOp) (world : World S) :
    (Journal.replay (StackOp.apply cfg) os ⟨world, [], ∅⟩).deletes =
      (os.filterMap StackOp.deletion).toFinset := by
  ext a
  rw [mem_deletes_replay, mem_deletion]
  simp

/-! ## The runner -/

/-- What a successful execution returns, and the world that it leaves. -/
theorem execute_info {exec : Executor S M} {source : H160} {value : U256} {gasLimit : UInt64}
    {gasPrice nonce : Option U256} {f : Vicinity → World S → ExecutorRun R} {world world' : World S}
    {info : ExecutionInfo R}
    (h : execute cfg exec source value gasLimit gasPrice nonce f world = some (.ok info, world')) :
    ∃ price fee mid rs st after,
      prepare cfg source value gasLimit gasPrice nonce world = .ok (price, fee, mid) ∧
      stackCalls cfg exec.metadataOps (f ⟨price, source⟩ mid).trace.calls
        (.new (exec.newMetadata gasLimit) ⟨mid, []⟩) = some (rs, st) ∧
      correctAndDepositFee cfg source ((f ⟨price, source⟩ mid).fee price) fee
        st.storage.current = (.ok (), after) ∧
      info = ⟨(f ⟨price, source⟩ mid).exitReason, (f ⟨price, source⟩ mid).value,
        .ofU64 (f ⟨price, source⟩ mid).usedGas, st.substate.frame.logs⟩ ∧
      world' = depositLogs info.logs (removeDeleted cfg st.substate.frame.deletes after) := by
  unfold execute at h
  cases hprep : prepare cfg source value gasLimit gasPrice nonce world with
  | error e => simp only [hprep, Option.some.injEq, Prod.mk.injEq, reduceCtorEq, false_and] at h
  | ok paid =>
    obtain ⟨price, fee, mid⟩ := paid
    simp only [hprep] at h
    cases hcalls : stackCalls cfg exec.metadataOps (f ⟨price, source⟩ mid).trace.calls
        (.new (exec.newMetadata gasLimit) ⟨mid, []⟩) with
    | none => simp only [hcalls, reduceCtorEq] at h
    | some out =>
      obtain ⟨rs, st⟩ := out
      simp only [hcalls] at h
      cases hfee : correctAndDepositFee cfg source ((f ⟨price, source⟩ mid).fee price) fee
          st.storage.current with
      | mk result after =>
        cases result with
        | error e => simp only [hfee, Option.some.injEq, Prod.mk.injEq, reduceCtorEq, false_and] at h
        | ok _ =>
          simp only [hfee, Option.some.injEq, Prod.mk.injEq, Except.ok.injEq] at h
          obtain ⟨rfl, rfl⟩ := h
          exact ⟨price, fee, mid, rs, st, after, rfl, hcalls, hfee, rfl, rfl⟩

/-- A successful execution returns what its run does. -/
theorem execute_returns {exec : Executor S M} {source : H160} {value : U256} {gasLimit : UInt64}
    {gasPrice nonce : Option U256} {f : Vicinity → World S → ExecutorRun R} {world world' : World S}
    {info : ExecutionInfo R}
    (h : execute cfg exec source value gasLimit gasPrice nonce f world = some (.ok info, world')) :
    Returns cfg exec source value gasLimit gasPrice nonce f world info := by
  obtain ⟨price, fee, mid, rs, st, after, hprep, hcalls, -, hinfo, -⟩ := execute_info h
  exact ⟨price, fee, mid, rs, st, hprep, hcalls, hinfo⟩

/-- A run whose exits succeed leaves what its surviving operations make of the storage, the logs and the
deleted accounts. -/
theorem stackCalls_flat (exec : Executor S M) {gasLimit : UInt64}
    {f : Vicinity → World S → ExecutorRun R} (hexits : ExitsSucceed cfg exec gasLimit f)
    (vicinity : Vicinity) (world : World S) :
    ∃ rs st, stackCalls cfg exec.metadataOps (f vicinity world).trace.calls
        (.new (exec.newMetadata gasLimit) ⟨world, []⟩) = some (rs, st) ∧
      st.storage.current = applyOps cfg (f vicinity world).trace.survivors world ∧
      st.substate.frame.logs = (f vicinity world).trace.survivors.filterMap StackOp.emitted ∧
      st.substate.frame.deletes =
        ((f vicinity world).trace.survivors.filterMap StackOp.deletion).toFinset := by
  obtain ⟨rs, st, hcalls, hdepth, -⟩ := stackCalls_trace cfg exec.metadataOps
    (f vicinity world).trace (.new (exec.newMetadata gasLimit) ⟨world, []⟩) (Nat.zero_le _)
  have hsim := stackCalls_replay hcalls (hexits vicinity world rs st hcalls)
  refine ⟨rs, st, hcalls, ?_⟩
  obtain ⟨storage, substate⟩ := st
  cases substate with
  | child frame parent => cases hdepth
  | root frame =>
    refine ⟨?_, ?_, ?_⟩
    · rw [hsim.world, world_replay]
    · have hlogs : frame.logs = _ := hsim.logs
      show frame.logs = _
      rw [hlogs, logs_replay, List.nil_append]
    · have hdeletes : frame.deletes = _ := hsim.deletes
      show frame.deletes = _
      rw [hdeletes, deletes_replay]

/-- The runner does what the surviving operations do, and does not panic. -/
theorem execute_flat (exec : Executor S M) {gasLimit : UInt64}
    {f : Vicinity → World S → ExecutorRun R} (hexits : ExitsSucceed cfg exec gasLimit f)
    (source : H160) (value : U256) (gasPrice nonce : Option U256) (world : World S) :
    execute cfg exec source value gasLimit gasPrice nonce f world =
      some (flatExecute cfg source value gasLimit gasPrice nonce f world) := by
  unfold execute flatExecute
  cases hprep : prepare cfg source value gasLimit gasPrice nonce world with
  | error e => rfl
  | ok paid =>
    obtain ⟨price, fee, mid⟩ := paid
    obtain ⟨rs, st, hcalls, hworld, hlogs, hdeletes⟩ := stackCalls_flat exec hexits ⟨price, source⟩ mid
    simp only [hcalls, hworld, hlogs, hdeletes]
    cases hfee : correctAndDepositFee cfg source ((f ⟨price, source⟩ mid).fee price) fee
        (applyOps cfg (f ⟨price, source⟩ mid).trace.survivors mid) with
    | mk result after =>
      cases result with
      | error e => rfl
      | ok _ => rfl

/-- The runner does not panic, whether the exits of the run succeed or not. -/
theorem execute_isSome (cfg : Config S AccountId) (exec : Executor S M) (source : H160) (value : U256)
    (gasLimit : UInt64) (gasPrice nonce : Option U256) (f : Vicinity → World S → ExecutorRun R)
    (world : World S) :
    ∃ r world', execute cfg exec source value gasLimit gasPrice nonce f world = some (r, world') := by
  unfold execute
  cases hprep : prepare cfg source value gasLimit gasPrice nonce world with
  | error e => exact ⟨_, _, rfl⟩
  | ok paid =>
    obtain ⟨price, fee, mid⟩ := paid
    obtain ⟨rs, st, hcalls, -, -⟩ := stackCalls_trace cfg exec.metadataOps
      (f ⟨price, source⟩ mid).trace (.new (exec.newMetadata gasLimit) ⟨mid, []⟩) (Nat.zero_le _)
    simp only [hcalls]
    cases hfee : correctAndDepositFee cfg source ((f ⟨price, source⟩ mid).fee price) fee
        st.storage.current with
    | mk result after =>
      cases result with
      | error e => exact ⟨_, _, rfl⟩
      | ok _ => exact ⟨_, _, rfl⟩

/-! ## What every operation keeps -/

section Keeps

variable {P : World S → Prop}

/-- A call keeps a property of the world that the operations keep, in the current storage and in every
storage to roll back to. -/
theorem stackCall_keeps {ops : MetadataOps M} {c : StackCall} {st st' : StackState S M}
    {r : Except ExitError Unit}
    (hop : ∀ (o : StackOp) world, c = .op o → P world → P (o.applyWorld cfg world))
    (hst : ∀ world ∈ st.storage.current :: st.storage.saved, P world)
    (h : stackCall cfg ops c st = some (r, st')) :
    ∀ world ∈ st'.storage.current :: st'.storage.saved, P world := by
  obtain ⟨hcurrent, hsaved⟩ := List.forall_mem_cons.1 hst
  cases c with
  | enter args =>
    simp only [stackCall, Option.some.injEq, Prod.mk.injEq] at h
    obtain ⟨-, rfl⟩ := h
    exact List.forall_mem_cons.2 ⟨hcurrent, hst⟩
  | op o =>
    simp only [stackCall, Option.some.injEq, Prod.mk.injEq] at h
    obtain ⟨-, rfl⟩ := h
    exact List.forall_mem_cons.2 ⟨hop o _ rfl hcurrent, hsaved⟩
  | exit x =>
    obtain ⟨exited, parent, -, heffect⟩ := stackCall_exit_cases h
    cases hswallow : (ops.swallow x parent.frame.metadata exited.metadata).1 with
    | error e =>
      rw [heffect.failed e hswallow]
      exact hst
    | ok _ =>
      obtain ⟨w, worlds, hworlds, hstorage⟩ := heffect.closed hswallow
      rw [hworlds] at hsaved
      obtain ⟨hw, hrestored⟩ := List.forall_mem_cons.1 hsaved
      rw [hstorage]
      cases x with
      | commit => exact List.forall_mem_cons.2 ⟨hcurrent, hrestored⟩
      | revert => exact List.forall_mem_cons.2 ⟨hw, hrestored⟩
      | discard => exact List.forall_mem_cons.2 ⟨hw, hrestored⟩

theorem stackCalls_keeps {ops : MetadataOps M} {cs : List StackCall}
    (hop : ∀ (o : StackOp) world, .op o ∈ cs → P world → P (o.applyWorld cfg world)) :
    ∀ {st st' : StackState S M} {rs : List (Except ExitError Unit)},
      (∀ world ∈ st.storage.current :: st.storage.saved, P world) →
        stackCalls cfg ops cs st = some (rs, st') →
          ∀ world ∈ st'.storage.current :: st'.storage.saved, P world := by
  induction cs with
  | nil =>
    intro st st' rs hst h
    simp only [stackCalls, Option.some.injEq, Prod.mk.injEq] at h
    obtain ⟨-, rfl⟩ := h
    exact hst
  | cons c cs ih =>
    intro st st' rs hst h
    obtain ⟨r, mid, rs', hcall, hrest, -⟩ := stackCalls_cons h
    have hfirst : ∀ (o : StackOp) world, c = .op o → P world → P (o.applyWorld cfg world) :=
      fun o world ho => hop o world (ho ▸ List.mem_cons_self)
    have hmore : ∀ (o : StackOp) world, .op o ∈ cs → P world → P (o.applyWorld cfg world) :=
      fun o world ho => hop o world (List.mem_cons_of_mem _ ho)
    exact ih hmore (stackCall_keeps hfirst hst hcall) hrest

/-- The refund changes the system only. -/
theorem correctAndDepositFee_system {who : H160} {correctedFee : U256} {paid : Option ℕ}
    {world world' : World S} {result : Except EvmError Unit}
    (h : correctAndDepositFee cfg who correctedFee paid world = (result, world')) :
    ∃ s, world' = { world with system := s } := by
  unfold correctAndDepositFee at h
  cases paid with
  | none =>
    obtain rfl := (Prod.mk.inj h).2
    exact ⟨world.system, rfl⟩
  | some paid =>
    dsimp only at h
    split at h
    · exact ⟨_, (Prod.mk.inj h).2.symm⟩
    · exact ⟨_, (Prod.mk.inj h).2.symm⟩

/-- A property of the codes and storages that the operations and the removal of accounts keep is kept by
an execution. -/
theorem execute_keeps (hop : ∀ (o : StackOp) world, P world → P (o.applyWorld cfg world))
    (hsystem : ∀ world s, P world → P { world with system := s })
    (hremove : ∀ address world, P world → P (removeAccount cfg address world))
    (hdeposit : ∀ logs world, P world → P (depositLogs logs world)) {exec : Executor S M}
    {source : H160} {value : U256} {gasLimit : UInt64} {gasPrice nonce : Option U256}
    {f : Vicinity → World S → ExecutorRun R} {world world' : World S}
    {r : Except EvmError (ExecutionInfo R)} (hworld : P world)
    (h : execute cfg exec source value gasLimit gasPrice nonce f world = some (r, world')) :
    P world' := by
  obtain ⟨e, -, -, rfl⟩ |
    ⟨price, fee, mid, rs, st, result, after, hprep, hcalls, hfee, hend⟩ := execute_cases h
  · exact hworld
  obtain ⟨-, imbalance, s, -, -, rfl⟩ := prepare_ok hprep
  have hbody : P st.storage.current := stackCalls_keeps (fun o w _ => hop o w)
    (List.forall_mem_singleton.2 (hsystem world s hworld)) hcalls _ List.mem_cons_self
  obtain ⟨s', rfl⟩ := correctAndDepositFee_system hfee
  have hafter := hsystem _ s' hbody
  obtain ⟨-, -, -, rfl⟩ | ⟨-, -, -, rfl⟩ := hend
  · exact hafter
  · refine hdeposit _ _ ?_
    unfold removeDeleted
    exact List.foldlRecOn _ _ hafter fun world hworld address _ => hremove address world hworld

end Keeps

/-! ## Events -/

theorem events_applyWorld (o : StackOp) (world : World S) :
    (o.applyWorld cfg world).events = world.events := by
  cases o with
  | incNonce address => rfl
  | setStorage address index value => rfl
  | resetStorage address => rfl
  | log address topics data => rfl
  | setDeleted address => rfl
  | setCode address code =>
    show (createAccount cfg address code world).events = world.events
    unfold createAccount
    split_ifs
    · rfl
    · rfl
    · rfl
  | transfer source target value =>
    show (transfer cfg source target value world).2.events = world.events
    unfold transfer
    split
    · rfl
    · rfl

theorem events_removeDeleted (deletes : Finset H160) (world : World S) :
    (removeDeleted cfg deletes world).events = world.events := by
  unfold removeDeleted
  exact List.foldlRecOn (motive := fun w : World S => w.events = world.events) _ _ rfl fun _ h _ _ => h

/-- The calls of an execution deposit no event. -/
theorem events_stackCalls {ops : MetadataOps M} {cs : List StackCall} {metadata : M} {world : World S}
    {rs : List (Except ExitError Unit)} {st : StackState S M}
    (h : stackCalls cfg ops cs (.new metadata ⟨world, []⟩) = some (rs, st)) :
    st.storage.current.events = world.events := by
  have hop : ∀ (o : StackOp) (w : World S), w.events = world.events →
      (o.applyWorld cfg w).events = world.events := fun o w hw => (events_applyWorld o w).trans hw
  have hstart : ∀ w ∈ [world], w.events = world.events := List.forall_mem_singleton.2 rfl
  exact stackCalls_keeps (fun o w _ => hop o w) hstart h _ List.mem_cons_self

/-- A failed execution deposits no event. -/
theorem execute_error_events {exec : Executor S M} {source : H160} {value : U256} {gasLimit : UInt64}
    {gasPrice nonce : Option U256} {f : Vicinity → World S → ExecutorRun R} {world world' : World S}
    {e : EvmError}
    (h : execute cfg exec source value gasLimit gasPrice nonce f world = some (.error e, world')) :
    world'.events = world.events := by
  obtain ⟨e, -, -, rfl⟩ |
    ⟨price, fee, mid, rs, st, result, after, hprep, hcalls, hfee, hend⟩ := execute_cases h
  · rfl
  obtain ⟨-, imbalance, s, -, -, rfl⟩ := prepare_ok hprep
  have hbody := events_stackCalls hcalls
  obtain ⟨s', rfl⟩ := correctAndDepositFee_system hfee
  obtain ⟨_, -, -, rfl⟩ | ⟨_, -, hr, -⟩ := hend
  · exact hbody
  · cases hr

/-- A successful execution deposits the logs that it returns. -/
theorem execute_ok_events {exec : Executor S M} {source : H160} {value : U256} {gasLimit : UInt64}
    {gasPrice nonce : Option U256} {f : Vicinity → World S → ExecutorRun R} {world world' : World S}
    {info : ExecutionInfo R}
    (h : execute cfg exec source value gasLimit gasPrice nonce f world = some (.ok info, world')) :
    world'.events = world.events ++ info.logs.map Event.log := by
  obtain ⟨price, fee, mid, rs, st, after, hprep, hcalls, hfee, -, rfl⟩ := execute_info h
  obtain ⟨-, imbalance, s, -, -, rfl⟩ := prepare_ok hprep
  have hbody := events_stackCalls hcalls
  obtain ⟨s', rfl⟩ := correctAndDepositFee_system hfee
  show (removeDeleted cfg _ _).events ++ _ = _
  rw [events_removeDeleted]
  exact congrArg (· ++ info.logs.map Event.log) hbody

/-! ## Canonical storage -/

theorem Canonical.update_storage {world : World S} (h : Canonical world) (address : H160)
    {storage : H256 → Option H256} (hstorage : ∀ index, storage index ≠ some 0) :
    Canonical { world with
      accountStorages := Function.update world.accountStorages address storage } where
  nonzero := by
    intro other index
    by_cases hother : other = address
    · subst hother
      simp only [Function.update_self]
      exact hstorage index
    · simp only [Function.update_of_ne hother]
      exact h.nonzero other index
  nonempty := h.nonempty

theorem Canonical.update_code {world : World S} (h : Canonical world) (address : H160)
    {code : Option Bytes} (hcode : code ≠ some []) (s : S) :
    Canonical { world with
      system := s
      accountCodes := Function.update world.accountCodes address code } where
  nonzero := h.nonzero
  nonempty := by
    intro other
    by_cases hother : other = address
    · subst hother
      simp only [Function.update_self]
      exact hcode
    · simp only [Function.update_of_ne hother]
      exact h.nonempty other

theorem Canonical.setStorage {world : World S} (h : Canonical world) (address : H160)
    (index value : H256) : Canonical (setStorage address index value world) := by
  unfold Evm.setStorage
  refine h.update_storage address fun other => ?_
  by_cases hvalue : value = 0
  · rw [if_pos hvalue]
    by_cases hother : other = index
    · rw [hother, Function.update_self]
      exact nofun
    · rw [Function.update_of_ne hother]
      exact h.nonzero address other
  · rw [if_neg hvalue]
    by_cases hother : other = index
    · rw [hother, Function.update_self]
      exact fun heq => hvalue (Option.some.inj heq)
    · rw [Function.update_of_ne hother]
      exact h.nonzero address other

theorem Canonical.createAccount {world : World S} (h : Canonical world) (address : H160)
    (code : Bytes) : Canonical (createAccount cfg address code world) := by
  unfold Evm.createAccount
  by_cases hempty : code.isEmpty = true
  · rw [if_pos hempty]
    exact h
  · rw [if_neg hempty]
    refine h.update_code address ?_ _
    rintro heq
    rw [Option.some.inj heq] at hempty
    exact hempty rfl

theorem Canonical.removeAccount {world : World S} (h : Canonical world) (address : H160) :
    Canonical (removeAccount cfg address world) := by
  have hnone : (none : Option Bytes) ≠ some [] := nofun
  have hempty : ∀ _ : H256, (none : Option H256) ≠ some 0 := fun _ => nofun
  exact (h.update_code address hnone _).update_storage address hempty

theorem Canonical.applyWorld {world : World S} (h : Canonical world) (o : StackOp) :
    Canonical (o.applyWorld cfg world) := by
  cases o with
  | incNonce address => exact ⟨h.nonzero, h.nonempty⟩
  | setStorage address index value => exact h.setStorage address index value
  | resetStorage address =>
    have hempty : ∀ _ : H256, (none : Option H256) ≠ some 0 := fun _ => nofun
    exact h.update_storage address hempty
  | log address topics data => exact h
  | setDeleted address => exact h
  | setCode address code => exact h.createAccount address code
  | transfer source target value =>
    show Canonical (transfer cfg source target value world).2
    unfold transfer
    split
    · exact ⟨h.nonzero, h.nonempty⟩
    · exact h

theorem Canonical.execute {exec : Executor S M} {source : H160} {value : U256} {gasLimit : UInt64}
    {gasPrice nonce : Option U256} {f : Vicinity → World S → ExecutorRun R} {world world' : World S}
    {r : Except EvmError (ExecutionInfo R)} (hworld : Canonical world)
    (h : execute cfg exec source value gasLimit gasPrice nonce f world = some (r, world')) :
    Canonical world' :=
  execute_keeps (fun o _ h => h.applyWorld o) (fun _ _ h => ⟨h.nonzero, h.nonempty⟩)
    (fun address _ h => h.removeAccount address) (fun _ _ h => ⟨h.nonzero, h.nonempty⟩) hworld h

end Shadows.Evm
