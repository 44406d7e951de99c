import Shadows.Ethereum.Records
import Shadows.Ethereum.Proofs.AssemblyProofs

/-!
# Proofs: what a block records of its transactions

A successful call of `do_transact` appends an entry and an event that tell what the runner has returned, a
failed one appends neither, so that entries and events stay paired up through a block.
-/

namespace Shadows.Ethereum

open Consensus Foundations

variable {W : Type} {cfg : Config W}

/-! ## One transaction -/

/-- The contract of an outcome is that of a creation. -/
theorem Ran.created_iff {source : H160} {transaction : Transaction} {world world' : W}
    {outcome : Outcome} (h : Ran cfg source transaction world (.ok outcome) world') :
    outcome.created.isSome ↔ transaction.action = .create := by
  generalize hresult : Except.ok outcome = result at h
  cases h with
  | call target result world' haction h =>
    cases result with
    | error e => cases hresult
    | ok info =>
      obtain rfl := Except.ok.inj hresult
      rw [haction]
      exact iff_of_false nofun nofun
  | create result world' haction h =>
    cases result with
    | error e => cases hresult
    | ok info =>
      obtain rfl := Except.ok.inj hresult
      exact iff_of_true rfl haction

/-- The outcome that `do_transact` summarizes. -/
def infoOutcome : CallOrCreateInfo → Outcome
  | .call info => ⟨info.exitReason, none, info.usedGas, info.logs⟩
  | .create info => ⟨info.exitReason, some info.value, info.usedGas, info.logs⟩

/-- The pallet's `execute` fails as the runner does, or names the target of the transaction and the outcome
of the runner. -/
theorem execute_ran {source : H160} {transaction : Transaction} {world world' : W}
    {out : Except DispatchError (Option H160 × Option H160 × CallOrCreateInfo)}
    (h : execute cfg source transaction.input transaction.value transaction.gasLimit
      (some transaction.gasPrice) (some transaction.nonce) transaction.action world =
        some (out, world')) :
    (∃ e, out = .error (.evm e) ∧ Ran cfg source transaction world (.error e) world') ∨
      ∃ info, out = .ok (transaction.action.target, (infoOutcome info).created, info) ∧
        Ran cfg source transaction world (.ok (infoOutcome info)) world' := by
  obtain ⟨target, r, haction, hcall, rfl⟩ | ⟨r, haction, hcreate, rfl⟩ := execute_cases h
  · rw [haction]
    have hran := Ran.call target r world' haction hcall
    cases r with
    | error e => exact .inl ⟨e, rfl, hran⟩
    | ok info => exact .inr ⟨.call info, rfl, hran⟩
  · rw [haction]
    have hran := Ran.create r world' haction hcreate
    cases r with
    | error e => exact .inl ⟨e, rfl, hran⟩
    | ok info => exact .inr ⟨.create info, rfl, hran⟩

/-- The state root of a receipt is `1` exactly for a success. -/
theorem stateRoot_eq (reason : ExitReason) :
    (match reason with
      | .succeed => 1
      | .error _ => 0
      | .revert => 0
      | .fatal => 0 : H256) = if reason = .succeed then 1 else 0 := by
  cases reason with
  | succeed => rfl
  | error e => rfl
  | revert => rfl
  | fatal => rfl

/-- `do_transact` refuses a transaction without a signer, appends nothing where the runner fails, and
appends an entry and an event that tell the outcome of the runner. -/
theorem doTransact_recorded {transaction : Transaction} {st st' : State W}
    {r : Except DispatchError UInt64} (hdigest : NoPreLog st.digest)
    (h : doTransact cfg transaction st = some (r, st')) :
    (recoverSigner cfg transaction = none ∧ st' = st) ∨
    ∃ source, recoverSigner cfg transaction = some source ∧
      ((∃ e, Ran cfg source transaction st.world (.error e) st'.world ∧ st'.pending = st.pending ∧
          st'.events = st.events) ∨
        ∃ outcome status receipt event,
          Ran cfg source transaction st.world (.ok outcome) st'.world ∧
          Recorded cfg source outcome (transaction, status, receipt) event ∧
          st'.pending = st.pending ++ [(transaction, status, receipt)] ∧
          st'.events = st.events ++ [event]) := by
  unfold doTransact at h
  cases hpre : findPreLog st.digest with
  | ok log => exact absurd hpre (hdigest log)
  | error e =>
    cases hsigner : recoverSigner cfg transaction with
    | none =>
      simp only [hpre, hsigner, Option.some.injEq, Prod.mk.injEq] at h
      exact .inl ⟨rfl, h.2.symm⟩
    | some source =>
      refine .inr ⟨source, rfl, ?_⟩
      simp only [hpre, hsigner] at h
      split at h
      · cases h
      · rename_i e world hexecute
        simp only [Option.some.injEq, Prod.mk.injEq] at h
        obtain ⟨-, rfl⟩ := h
        obtain ⟨e', -, hran⟩ | ⟨info, hok, -⟩ := execute_ran hexecute
        · exact .inl ⟨e', hran, rfl, rfl⟩
        · cases hok
      · rename_i «to» contractAddress info world hexecute
        simp only [Option.some.injEq, Prod.mk.injEq] at h
        obtain ⟨-, rfl⟩ := h
        obtain ⟨e', herror, -⟩ | ⟨info', hok, hran⟩ := execute_ran hexecute
        · cases herror
        · cases hok
          refine .inr ⟨infoOutcome info, _, _, _, hran, ?_, rfl, rfl⟩
          cases info with
          | call info => exact ⟨rfl, rfl, rfl, rfl, rfl, rfl, rfl, stateRoot_eq info.exitReason, rfl⟩
          | create info => exact ⟨rfl, rfl, rfl, rfl, rfl, rfl, rfl, stateRoot_eq info.exitReason, rfl⟩

/-! ## A block -/

/-- The extrinsics append the entries and the events of what the runner executes. -/
theorem runExtrinsics_recorded (extrinsics : List (Extrinsic W)) : ∀ {st st' : State W}
    {accepted : List Transaction}, NoPreLog st.digest →
      runExtrinsics cfg extrinsics st = some (accepted, st') →
        ∃ entries events, Executed cfg extrinsics st.world entries events st'.world ∧
          st'.pending = st.pending ++ entries ∧ st'.events = st.events ++ events := by
  induction extrinsics with
  | nil =>
    intro st st' accepted _ h
    simp only [runExtrinsics, Option.some.injEq, Prod.mk.injEq] at h
    obtain ⟨-, rfl⟩ := h
    exact ⟨[], [], .nil _, (List.append_nil _).symm, (List.append_nil _).symm⟩
  | cons extrinsic rest ih =>
    intro st st' accepted hdigest h
    cases extrinsic with
    | other effect =>
      obtain ⟨entries, events, hexecuted, hpending, hevents⟩ :=
        @ih { st with world := effect st.world } st' accepted hdigest h
      exact ⟨entries, events, .other hexecuted, hpending, hevents⟩
    | transact transaction =>
      obtain ⟨r, mid, hcall, hrun⟩ := runExtrinsics_transact h
      have hmid : NoPreLog mid.digest := by
        rw [(doTransact_cases hcall).1.digest]
        exact hdigest
      obtain ⟨accepted', hrest⟩ : ∃ accepted', runExtrinsics cfg rest mid = some (accepted', st') := by
        obtain ⟨_, -, hrest⟩ | ⟨_, accepted', -, -, hrest⟩ := hrun
        · exact ⟨accepted, hrest⟩
        · exact ⟨accepted', hrest⟩
      obtain ⟨entries, events, hexecuted, hpending, hevents⟩ := ih hmid hrest
      obtain ⟨hsigner, rfl⟩ | ⟨source, hsigner, ⟨e, hran, hpending', hevents'⟩ |
        ⟨outcome, status, receipt, event, hran, hrecorded, hpending', hevents'⟩⟩ :=
          doTransact_recorded hdigest hcall
      · exact ⟨entries, events, .unsigned hsigner hexecuted, hpending, hevents⟩
      · rw [hpending'] at hpending
        rw [hevents'] at hevents
        exact ⟨entries, events, .failed hsigner hran hexecuted, hpending, hevents⟩
      · rw [hpending', List.append_assoc] at hpending
        rw [hevents', List.append_assoc] at hevents
        have hfirst : Executed cfg (.transact transaction :: rest) st.world
            ((transaction, status, receipt) :: entries) (event :: events) st'.world :=
          .executed hsigner hran hrecorded hexecuted
        exact ⟨_, _, hfirst, hpending, hevents⟩

/-- The records of a block before its finalisation. -/
theorem runBody_recorded {input : BlockInput W} {st mid : State W} {accepted : List Transaction}
    (hdigest : NoPreLog input.digest) (h : runBody cfg input st = some (accepted, mid)) :
    Executed cfg input.extrinsics st.world mid.pending mid.events mid.world := by
  unfold runBody at h
  rw [onInitialize_noPreLog hdigest, Option.bind_some] at h
  obtain ⟨entries, events, hexecuted, hpending, hevents⟩ :=
    runExtrinsics_recorded input.extrinsics hdigest h
  rw [hpending, hevents]
  exact hexecuted

/-- What is executed at a position of the rest is executed as far behind what the first extrinsic adds. -/
theorem ExecutedAt.cons {first : Extrinsic W} {rest : List (Extrinsic W)} {world mid before after : W}
    {i k : ℕ} {transaction : Transaction} {source : H160} {outcome : Outcome}
    (hfirst : ∀ {earlier entries events}, Executed cfg earlier mid entries events before →
      ∃ entries' events', entries'.length = entries.length + k ∧
        Executed cfg (first :: earlier) world entries' events' before)
    (h : ExecutedAt cfg rest mid i transaction source before outcome after) :
    ExecutedAt cfg (first :: rest) world (i + k) transaction source before outcome after := by
  obtain ⟨⟨earlier, later, entries, events, rfl, rfl, hearlier⟩, hsigner, hran⟩ := h
  obtain ⟨entries', events', hlength, hexecuted⟩ := hfirst hearlier
  exact ⟨⟨first :: earlier, later, entries', events', rfl, hlength, hexecuted⟩, hsigner, hran⟩

/-- Every entry has been executed at its position, and is recorded with its event. -/
theorem Executed.get {extrinsics : List (Extrinsic W)} {world world' : W}
    {entries : List (Transaction × TransactionStatus × Receipt)} {events : List Event}
    (h : Executed cfg extrinsics world entries events world') :
    ∀ {i : ℕ} {entry : Transaction × TransactionStatus × Receipt}, entries[i]? = some entry →
      ∃ event source before outcome after, events[i]? = some event ∧
        ExecutedAt cfg extrinsics world i entry.1 source before outcome after ∧
        Recorded cfg source outcome entry event := by
  induction h with
  | nil world => exact fun hi => by cases hi
  | other h ih =>
    intro i entry hi
    obtain ⟨event, source, before, outcome, after, hevent, hat, hrecorded⟩ := ih hi
    exact ⟨event, source, before, outcome, after, hevent,
      hat.cons (k := 0) fun hearlier => ⟨_, _, rfl, .other hearlier⟩, hrecorded⟩
  | unsigned hsigner h ih =>
    intro i entry hi
    obtain ⟨event, source, before, outcome, after, hevent, hat, hrecorded⟩ := ih hi
    exact ⟨event, source, before, outcome, after, hevent,
      hat.cons (k := 0) fun hearlier => ⟨_, _, rfl, .unsigned hsigner hearlier⟩, hrecorded⟩
  | failed hsigner hran h ih =>
    intro i entry hi
    obtain ⟨event, source, before, outcome, after, hevent, hat, hrecorded⟩ := ih hi
    exact ⟨event, source, before, outcome, after, hevent,
      hat.cons (k := 0) fun hearlier => ⟨_, _, rfl, .failed hsigner hran hearlier⟩, hrecorded⟩
  | executed hsigner hran hrecorded h ih =>
    intro i entry hi
    cases i with
    | zero =>
      obtain rfl := Option.some.inj hi
      exact ⟨_, _, _, _, _, rfl, ⟨⟨[], _, [], [], rfl, rfl, .nil _⟩, hsigner, hran⟩, hrecorded⟩
    | succ i =>
      obtain ⟨event, source, before, outcome, after, hevent, hat, hrecorded'⟩ := ih hi
      exact ⟨event, source, before, outcome, after, hevent,
        hat.cons fun hearlier => ⟨_, _, rfl, .executed hsigner hran hrecorded hearlier⟩, hrecorded'⟩

/-- The finalisation stores the records. -/
theorem records_of_finalize {accepted : List Transaction} {mid st' : State W}
    (hmap : mid.pending.map (fun entry => entry.1) = accepted)
    (hal : ∀ i entry, mid.pending[i]? = some entry → Aligned cfg i entry)
    (h : onFinalize cfg mid = some st') : BlockRecords accepted st' := by
  unfold onFinalize at h
  obtain ⟨gasUsed, -, rfl⟩ := storeBlock_eq_some h
  exact {
    transactions := hmap
    currentBlock := congrArg some hmap
    statuses := rfl
    receipts := rfl
    index := fun i entry hi => (hal i entry hi).transactionIndex }

theorem executed_of_finalize {extrinsics : List (Extrinsic W)} {world : W} {mid st' : State W}
    (hexecuted : Executed cfg extrinsics world mid.pending mid.events mid.world)
    (h : onFinalize cfg mid = some st') :
    Executed cfg extrinsics world st'.pending st'.events st'.world := by
  unfold onFinalize at h
  obtain ⟨gasUsed, -, rfl⟩ := storeBlock_eq_some h
  exact hexecuted

/-- **Records.** Every block without a pre-log, on top of any state, is stored with exactly one status,
one receipt and one event for each transaction that has been accepted, in order, and these tell what the
runner has returned for it. -/
theorem block_records {st st' : State W} {input : BlockInput W} {accepted : List Transaction}
    (hdigest : NoPreLog input.digest) (hrun : runBlock cfg input st = some (accepted, st')) :
    BlockRecords accepted st' ∧
      Executed cfg input.extrinsics st.world st'.pending st'.events st'.world := by
  obtain ⟨mid, hbody, hfin⟩ := runBlock_cases hrun
  obtain ⟨-, -, -, hmap, hal⟩ := runBody_spec hdigest hbody
  exact ⟨records_of_finalize hmap hal hfin,
    executed_of_finalize (runBody_recorded hdigest hbody) hfin⟩

theorem block_records_threeCalls :
    ∃ st', BlockRecords [callWithNonce 0, callWithNonce 1] st' ∧
      Executed countingConfig threeCalls.extrinsics countingGenesis.world st'.pending st'.events
        st'.world ∧
      st'.events.length = 2 := by
  obtain ⟨st', hrun, hevents⟩ : ∃ st', runBlock countingConfig threeCalls countingGenesis =
    some ([callWithNonce 0, callWithNonce 1], st') ∧ st'.events.length = 2 := ⟨_, rfl, rfl⟩
  have hdigest : NoPreLog threeCalls.digest := fun _ => nofun
  obtain ⟨hrecords, hexecuted⟩ := block_records hdigest hrun
  exact ⟨st', hrecords, hexecuted, hevents⟩

end Shadows.Ethereum
