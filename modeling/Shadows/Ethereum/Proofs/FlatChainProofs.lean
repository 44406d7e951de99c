import Shadows.Ethereum.Proofs.ChainProofs
import Shadows.Evm.Proofs.FlatProofs
import Shadows.Evm.Proofs.LedgerProofs

/-!
# Proofs: chains on the flat runner

The runner of `pallet_evm` is the flat one if the exits succeed, and it never panics. What it keeps, a
chain keeps.
-/

namespace Shadows.Ethereum

open Consensus

variable {S AccountId M : Type} {rt : Runtime S AccountId M}

/-! ## The same chain -/

theorem stackRunner_flat {evm : Evm.Config S AccountId} {exec : Evm.Executor S M}
    (hexits : ExitLaws evm exec) : stackRunner evm exec = flatRunner evm exec := by
  have hcall : Evm.call evm exec = (flatRunner evm exec).call := by
    funext source target input value gasLimit gasPrice nonce world
    exact Evm.execute_flat exec (hexits.call source target value input gasLimit) source value gasPrice
      nonce world
  have hcreate : Evm.create evm exec = (flatRunner evm exec).create := by
    funext source init value gasLimit gasPrice nonce world
    have hcreation : Evm.ExitsSucceed evm exec gasLimit
        (Evm.createOperation exec source init value gasLimit) :=
      hexits.create source value init gasLimit
    exact Evm.execute_flat exec hcreation source value gasPrice nonce world
  unfold stackRunner
  rw [hcall, hcreate]

/-- **Flat execution.** If the exits of the executor succeed, a chain of blocks is what it is when the
transactions are executed without a journal, by applying their surviving operations. -/
theorem chain_flat (hexits : ExitLaws rt.evm rt.executor) (inputs : List (BlockInput (Evm.World S)))
    (st : State (Evm.World S)) : runBlocks rt.ethereum inputs st = runBlocks rt.flat inputs st := by
  have hsame : rt.flat = rt.ethereum := by
    unfold Runtime.flat
    rw [← stackRunner_flat hexits, ← rt.runner_eq]
  rw [hsame]

theorem chain_flat_ledger : runBlocks ledgerRuntime.ethereum ledgerBlocks (funded 50000) =
    runBlocks ledgerRuntime.flat ledgerBlocks (funded 50000) := by
  have hexits : ExitLaws Evm.ledgerConfig Evm.ledgerExecutor :=
    ⟨fun source target value input gasLimit vicinity world =>
        (Evm.ledgerExecutor_laws.call source target value input gasLimit vicinity world).exits,
      fun source value init gasLimit vicinity world =>
        (Evm.ledgerExecutor_laws.create source value init gasLimit vicinity world).exits⟩
  exact chain_flat hexits ledgerBlocks (funded 50000)

/-! ## No panics -/

theorem doTransact_isSome (rt : Runtime S AccountId M) (transaction : Transaction) (st : State (Evm.World S)) :
    ∃ r st', doTransact rt.ethereum transaction st = some (r, st') := by
  have hexecute : ∀ source, ∃ out, execute rt.ethereum source transaction.input transaction.value
      transaction.gasLimit (some transaction.gasPrice) (some transaction.nonce) transaction.action
        st.world = some out := by
    intro source
    unfold execute
    rw [rt.runner_eq]
    cases transaction.action with
    | call target =>
      obtain ⟨r, world', hrun⟩ := Evm.execute_isSome rt.evm rt.executor source transaction.value
        transaction.gasLimit.lowU64 (some transaction.gasPrice) (some transaction.nonce)
        (rt.executor.transactCall source target transaction.value transaction.input
          transaction.gasLimit.lowU64) st.world
      have hcall : (stackRunner rt.evm rt.executor).call source target transaction.input
        transaction.value transaction.gasLimit.lowU64 (some transaction.gasPrice)
          (some transaction.nonce) st.world = some (r, world') := hrun
      simp only [hcall]
      cases r with
      | error e => exact ⟨_, rfl⟩
      | ok res => exact ⟨_, rfl⟩
    | create =>
      obtain ⟨r, world', hrun⟩ := Evm.execute_isSome rt.evm rt.executor source transaction.value
        transaction.gasLimit.lowU64 (some transaction.gasPrice) (some transaction.nonce)
        (Evm.createOperation rt.executor source transaction.input transaction.value
          transaction.gasLimit.lowU64) st.world
      have hcreate : (stackRunner rt.evm rt.executor).create source transaction.input
        transaction.value transaction.gasLimit.lowU64 (some transaction.gasPrice)
          (some transaction.nonce) st.world = some (r, world') := hrun
      simp only [hcreate]
      cases r with
      | error e => exact ⟨_, rfl⟩
      | ok res => exact ⟨_, rfl⟩
  unfold doTransact
  cases hpre : findPreLog st.digest with
  | ok log => exact ⟨_, _, rfl⟩
  | error e =>
    cases hsigner : recoverSigner rt.ethereum transaction with
    | none => exact ⟨_, _, rfl⟩
    | some source =>
      obtain ⟨⟨out, world⟩, hout⟩ := hexecute source
      simp only [hout]
      cases out with
      | error e => exact ⟨_, _, rfl⟩
      | ok res => exact ⟨_, _, rfl⟩

theorem runExtrinsics_isSome (rt : Runtime S AccountId M)
    (extrinsics : List (Extrinsic (Evm.World S))) :
    ∀ st : State (Evm.World S), ∃ accepted st',
      runExtrinsics rt.ethereum extrinsics st = some (accepted, st') ∧
        accepted.length ≤ extrinsics.length := by
  induction extrinsics with
  | nil => exact fun st => ⟨[], st, rfl, le_refl _⟩
  | cons extrinsic rest ih =>
    intro st
    cases extrinsic with
    | other effect =>
      obtain ⟨accepted, st', hrun, hlength⟩ := ih { st with world := effect st.world }
      exact ⟨accepted, st', hrun, Nat.le_succ_of_le hlength⟩
    | transact transaction =>
      obtain ⟨r, mid, hcall⟩ := doTransact_isSome rt transaction st
      obtain ⟨accepted, st', hrun, hlength⟩ := ih mid
      unfold runExtrinsics
      simp only [hcall]
      cases r with
      | error e => exact ⟨accepted, st', hrun, Nat.le_succ_of_le hlength⟩
      | ok weight =>
        simp only [hrun, Option.map_some]
        exact ⟨_, _, rfl, Nat.succ_le_succ hlength⟩

/-- The gas of a receipt is a `u64`. -/
theorem usedGas_rule : ChainRule rt.ethereum fun _ entries _ =>
    ∀ entry ∈ entries, entry.2.2.usedGas.val < 2 ^ 64 where
  refl := fun _ _ h => absurd h List.not_mem_nil
  trans := fun h h' => List.forall_mem_append.2 ⟨h, h'⟩
  failed := fun _ _ h => absurd h List.not_mem_nil
  executed := by
    intro transaction st st' weight entry h hentry
    obtain ⟨e', herror, -⟩ | ⟨source, R, f, r', -, -, hrun, hend⟩ :=
      doTransact_ran (fun _ _ _ => True) (fun _ _ _ => trivial) (fun _ _ => trivial) h
    · cases herror
    · obtain ⟨_, _, herror, -⟩ | ⟨_, info, entry', -, rfl, -, hused, -, hpending⟩ := hend
      · cases herror
      · rw [hentry] at hpending
        obtain rfl : entry = entry' := List.singleton_inj.1 (List.append_cancel_left hpending)
        obtain ⟨price, fee, mid, rs, st'', -, -, rfl⟩ := Evm.execute_returns hrun
        refine List.forall_mem_singleton.2 ?_
        rw [hused]
        exact (f ⟨price, source⟩ mid).usedGas.toNat_lt

theorem totalGas_of_lt (receipts : List Receipt) : ∀ acc : U256,
    acc.val + (receipts.map fun r => r.usedGas.val).sum < 2 ^ 256 →
      ∃ total, receipts.foldlM (fun acc r => acc.checkedAdd r.usedGas) acc = some total := by
  induction receipts with
  | nil => exact fun acc _ => ⟨acc, rfl⟩
  | cons receipt rest ih =>
    intro acc hfits
    rw [List.map_cons, List.sum_cons] at hfits
    have hnext : acc.checkedAdd receipt.usedGas =
        some ⟨acc.val + receipt.usedGas.val, by omega⟩ := U256.checkedAdd_eq_some.2 rfl
    obtain ⟨total, htotal⟩ := ih ⟨acc.val + receipt.usedGas.val, by omega⟩
      (by rw [← Nat.add_assoc] at hfits; exact hfits)
    refine ⟨total, ?_⟩
    rw [List.foldlM_cons, hnext]
    exact htotal

/-- A block without a pre-log does not panic, as long as the gas of so many transactions fits into a
`U256`. -/
theorem runBlock_isSome (rt : Runtime S AccountId M) {input : BlockInput (Evm.World S)}
    (hdigest : NoPreLog input.digest) (hlength : input.extrinsics.length < 2 ^ 192) (st : State (Evm.World S)) :
    ∃ accepted st', runBlock rt.ethereum input st = some (accepted, st') := by
  have hinit : onInitialize rt.ethereum (initializeBlock input st) =
    some { initializeBlock input st with pending := [] } := onInitialize_noPreLog hdigest
  obtain ⟨accepted, mid, hrun, hle⟩ := runExtrinsics_isSome rt input.extrinsics
    { initializeBlock input st with pending := [] }
  have hbody : runBody rt.ethereum input st = some (accepted, mid) := by
    unfold runBody
    rw [hinit, Option.bind_some, hrun]
  obtain ⟨-, entries, hpending, hmap, -⟩ := runExtrinsics_spec input.extrinsics hrun
  obtain ⟨entries', hpending', hgas⟩ := usedGas_rule.runExtrinsics input.extrinsics
    (fun _ _ _ _ h => absurd h List.not_mem_nil) hrun
  obtain rfl : entries = entries' := List.append_cancel_left (hpending.symm.trans hpending')
  rw [List.nil_append] at hpending
  have hcount : entries.length < 2 ^ 192 := by
    rw [← hmap, List.length_map] at hle
    omega
  have hsum : ((mid.pending.map fun p => p.2.2).map fun r => r.usedGas.val).sum ≤
      entries.length * 2 ^ 64 := by
    rw [hpending, List.map_map, ← smul_eq_mul, ← List.length_map (fun p => p.2.2.usedGas.val)]
    refine List.sum_le_card_nsmul _ _ fun gas hgas' => ?_
    obtain ⟨entry, hentry, rfl⟩ := List.mem_map.1 hgas'
    exact (hgas entry hentry).le
  obtain ⟨total, htotal⟩ := totalGas_of_lt (mid.pending.map fun p => p.2.2) 0 (by
    show 0 + _ < _
    omega)
  have htotal' : totalGas (mid.pending.map fun p => p.2.2) = some total := htotal
  unfold runBlock onFinalize storeBlock
  simp only [hbody, Option.bind_some, htotal']
  exact ⟨_, _, rfl⟩

/-- **No panics.** No transactions and no other extrinsics make a chain of blocks without pre-logs panic,
whatever they are and whatever the executor does. -/
theorem chain_runs (rt : Runtime S AccountId M) {inputs : List (BlockInput (Evm.World S))}
    (hdigest : ∀ input ∈ inputs, NoPreLog input.digest)
    (hlength : ∀ input ∈ inputs, input.extrinsics.length < 2 ^ 192) :
    ∀ st : State (Evm.World S), ∃ blocks st', runBlocks rt.ethereum inputs st = some (blocks, st') := by
  induction inputs with
  | nil => exact fun st => ⟨[], st, rfl⟩
  | cons input rest ih =>
    intro st
    obtain ⟨hinput, hrest⟩ := List.forall_mem_cons.1 hdigest
    obtain ⟨hinput', hrest'⟩ := List.forall_mem_cons.1 hlength
    obtain ⟨accepted, mid, hblock⟩ := runBlock_isSome rt hinput hinput' st
    obtain ⟨blocks, st', hrun⟩ := ih hrest hrest' mid
    refine ⟨mid.pending :: blocks, st', ?_⟩
    simp only [runBlocks, hblock, Option.bind_some, hrun, Option.map_some]

theorem chain_runs_ledger :
    ∃ blocks st', runBlocks ledgerRuntime.ethereum ledgerBlocks (funded 50000) = some (blocks, st') := by
  have hdigest : NoPreLog [] := fun _ => nofun
  exact chain_runs ledgerRuntime (List.forall_mem_singleton.2 hdigest)
    (List.forall_mem_singleton.2 (by decide)) (funded 50000)

/-! ## Logs -/

/-- The logs of entries as events of `pallet_evm`. -/
def logEvents (entries : Entries) : List Evm.Event :=
  (entries.flatMap fun entry => entry.2.2.logs).map .log

theorem logEvents_append (entries entries' : Entries) :
    logEvents (entries ++ entries') = logEvents entries ++ logEvents entries' := by
  unfold logEvents
  rw [List.flatMap_append, List.map_append]

theorem logs_rule : ChainRule rt.ethereum fun world entries world' =>
    world'.events = world.events ++ logEvents entries where
  refl := fun world => (List.append_nil world.events).symm
  trans := by
    intro world world' world'' entries entries' h h'
    rw [h', h, List.append_assoc, logEvents_append]
  failed := by
    intro transaction st st' e h
    obtain ⟨e', -, rfl⟩ | ⟨source, R, f, r', -, -, hrun, hend⟩ :=
      doTransact_ran (fun _ _ _ => True) (fun _ _ _ => trivial) (fun _ _ => trivial) h
    · exact (List.append_nil _).symm
    · obtain ⟨_, e', -, rfl⟩ | ⟨_, _, _, hok, -⟩ := hend
      · rw [Evm.execute_error_events hrun]
        exact (List.append_nil _).symm
      · cases hok
  executed := by
    intro transaction st st' weight entry h hentry
    obtain ⟨e', herror, -⟩ | ⟨source, R, f, r', -, -, hrun, hend⟩ :=
      doTransact_ran (fun _ _ _ => True) (fun _ _ _ => trivial) (fun _ _ => trivial) h
    · cases herror
    · obtain ⟨_, _, herror, -⟩ | ⟨_, info, entry', -, rfl, -, -, hlogs, hpending⟩ := hend
      · cases herror
      · rw [hentry] at hpending
        obtain rfl : entry = entry' := List.singleton_inj.1 (List.append_cancel_left hpending)
        rw [Evm.execute_ok_events hrun]
        unfold logEvents
        rw [List.flatMap_singleton, hlogs]

/-- **Logs.** The events that the transactions of a block deposit are the logs of the receipts that are
stored with it, in order, whichever of the transactions fail and whatever their frames drop. -/
theorem block_logs {input : BlockInput (Evm.World S)} {st st' : State (Evm.World S)}
    {accepted : List Transaction}
    (hother : ∀ effect, .other effect ∈ input.extrinsics → ∀ world,
      (effect world).events = world.events)
    (h : runBlock rt.ethereum input st = some (accepted, st')) :
    ∃ receipts, st'.currentReceipts = some receipts ∧
      st'.world.events = st.world.events ++ (receipts.flatMap fun receipt => receipt.logs).map .log := by
  have hothers : ∀ effect, .other effect ∈ input.extrinsics → ∀ world,
      (effect world).events = world.events ++ logEvents [] := by
    intro effect heffect world
    rw [hother effect heffect world]
    exact (List.append_nil _).symm
  have hevents := logs_rule.runBlock hothers h
  obtain ⟨mid, -, hfin⟩ := runBlock_cases h
  obtain ⟨gasUsed, -, rfl⟩ := storeBlock_eq_some hfin
  refine ⟨mid.pending.map fun p => p.2.2, rfl, ?_⟩
  rw [hevents]
  unfold logEvents
  rw [List.flatMap_map]

theorem block_logs_till :
    ∃ accepted st', runBlock tillRuntime.ethereum tillBlock (genesisState Evm.onePurse 0) =
        some (accepted, st') ∧
      ∃ receipts, st'.currentReceipts = some receipts ∧
        st'.world.events = [] ++ (receipts.flatMap fun receipt => receipt.logs).map .log := by
  obtain ⟨accepted, st', hrun⟩ : ∃ accepted st', runBlock tillRuntime.ethereum tillBlock
    (genesisState Evm.onePurse 0) = some (accepted, st') := ⟨_, _, rfl⟩
  exact ⟨accepted, st', hrun, block_logs (fun _ h => absurd h tillBlock_others) hrun⟩

/-! ## Canonical storage -/

theorem canonical_rule : ChainRule rt.ethereum fun world _ world' =>
    Evm.Canonical world → Evm.Canonical world' where
  refl := fun _ h => h
  trans := fun h h' hworld => h' (h hworld)
  failed := by
    intro transaction st st' e h hworld
    obtain ⟨e', -, rfl⟩ | ⟨source, R, f, r', -, -, hrun, -⟩ :=
      doTransact_ran (fun _ _ _ => True) (fun _ _ _ => trivial) (fun _ _ => trivial) h
    · exact hworld
    · exact hworld.execute hrun
  executed := by
    intro transaction st st' weight entry h _ hworld
    obtain ⟨e', -, rfl⟩ | ⟨source, R, f, r', -, -, hrun, -⟩ :=
      doTransact_ran (fun _ _ _ => True) (fun _ _ _ => trivial) (fun _ _ => trivial) h
    · exact hworld
    · exact hworld.execute hrun

/-- **Canonical storage.** A chain of blocks that starts with a canonical storage ends with one, whatever
the executor does and however its exits end. -/
theorem chain_canonical {inputs : List (BlockInput (Evm.World S))} {st st' : State (Evm.World S)}
    {blocks : List Entries}
    (hother : OthersSatisfy (fun effect => ∀ world, Evm.Canonical world → Evm.Canonical (effect world))
      inputs) (hcanonical : Evm.Canonical st.world)
    (h : runBlocks rt.ethereum inputs st = some (blocks, st')) : Evm.Canonical st'.world :=
  canonical_rule.runBlocks inputs hother h hcanonical

theorem chain_canonical_till :
    ∃ blocks st', runBlocks tillRuntime.ethereum tillBlocks (genesisState Evm.onePurse 0) =
      some (blocks, st') ∧ Evm.Canonical st'.world := by
  obtain ⟨blocks, st', hrun⟩ : ∃ blocks st', runBlocks tillRuntime.ethereum tillBlocks
    (genesisState Evm.onePurse 0) = some (blocks, st') := ⟨_, _, rfl⟩
  have hstart : Evm.Canonical Evm.onePurse := ⟨fun _ _ => nofun, fun _ => nofun⟩
  exact ⟨blocks, st', hrun, chain_canonical (tillBlocks_others _) hstart hrun⟩

end Shadows.Ethereum
