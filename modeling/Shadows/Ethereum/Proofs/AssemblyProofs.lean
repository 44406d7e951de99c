import Shadows.Ethereum.Proofs.StoreBlockProofs

/-!
# Proofs: the block that a run of transactions assembles

The invariant of the extrinsics is that the entries of `Pending` are those of the accepted
transactions, in order and each aligned with its position; `store_block` splits them into the
transactions, statuses and receipts of the block.
-/

namespace Shadows.Ethereum

open Consensus Foundations

variable {W : Type} {cfg : Config W}

/-- A transaction among the extrinsics fails, or is the next of the accepted ones. -/
theorem runExtrinsics_transact {transaction : Transaction} {rest : List (Extrinsic W)}
    {st st' : State W} {accepted : List Transaction}
    (h : runExtrinsics cfg (.transact transaction :: rest) st = some (accepted, st')) :
    ∃ r mid, doTransact cfg transaction st = some (r, mid) ∧
      ((∃ e, r = .error e ∧ runExtrinsics cfg rest mid = some (accepted, st')) ∨
        ∃ weight accepted', r = .ok weight ∧ accepted = transaction :: accepted' ∧
          runExtrinsics cfg rest mid = some (accepted', st')) := by
  rw [runExtrinsics] at h
  cases hcall : doTransact cfg transaction st with
  | none => simp only [hcall, reduceCtorEq] at h
  | some out =>
    obtain ⟨r, mid⟩ := out
    simp only [hcall] at h
    refine ⟨r, mid, rfl, ?_⟩
    cases r with
    | error e => exact .inl ⟨e, rfl, h⟩
    | ok weight =>
      simp only [Option.map_eq_some_iff, Prod.mk.injEq, Prod.exists] at h
      obtain ⟨accepted', st'', hrest, rfl, rfl⟩ := h
      exact .inr ⟨weight, accepted', rfl, rfl, hrest⟩

/-- The extrinsics append the accepted transactions to `Pending`. -/
theorem runExtrinsics_spec (extrinsics : List (Extrinsic W)) : ∀ {st st' : State W}
    {accepted : List Transaction}, runExtrinsics cfg extrinsics st = some (accepted, st') →
      SameBlock st st' ∧ ∃ entries, st'.pending = st.pending ++ entries ∧
        entries.map (fun p => p.1) = accepted ∧
        ∀ i entry, entries[i]? = some entry → Aligned cfg (st.pending.length + i) entry := by
  induction extrinsics with
  | nil =>
    intro st st' accepted h
    simp only [runExtrinsics, Option.some.injEq, Prod.mk.injEq] at h
    obtain ⟨rfl, rfl⟩ := h
    exact ⟨SameBlock.refl st, [], by simp, rfl, by simp⟩
  | cons extrinsic rest ih =>
    intro st st' accepted h
    cases extrinsic with
    | other effect =>
      obtain ⟨hsame, hentries⟩ := ih h
      exact ⟨⟨hsame.digest, hsame.blockNumber, hsame.currentBlock⟩, hentries⟩
    | transact transaction =>
      obtain ⟨r, mid, hcall, hrun⟩ := runExtrinsics_transact h
      obtain ⟨hmid, hout⟩ := doTransact_cases hcall
      rcases hout with ⟨e, rfl, hpending⟩ | ⟨-, weight, entry, rfl, htx, haligned, hpending⟩
      · obtain ⟨_, -, hrest⟩ | ⟨_, _, hok, -⟩ := hrun
        · obtain ⟨hsame, entries, happend, hmap, hal⟩ := ih hrest
          rw [hpending] at happend hal
          exact ⟨hmid.trans hsame, entries, happend, hmap, hal⟩
        · cases hok
      · obtain ⟨_, herror, -⟩ | ⟨_, accepted', -, rfl, hrest⟩ := hrun
        · cases herror
        · obtain ⟨hsame, entries, happend, hmap, hal⟩ := ih hrest
          refine ⟨hmid.trans hsame, entry :: entries, ?_, ?_, ?_⟩
          · rw [happend, hpending, List.append_assoc]
            rfl
          · rw [List.map_cons, hmap, htx]
          · intro i entry' hi
            cases i with
            | zero =>
              have he : entry = entry' := by simpa using hi
              rw [← he]
              exact haligned
            | succ i =>
              have hlen : mid.pending.length = st.pending.length + 1 := by
                rw [hpending, List.length_append, List.length_singleton]
              have hi' := hal i entry' (by simpa using hi)
              rw [hlen] at hi'
              have hidx : st.pending.length + (i + 1) = st.pending.length + 1 + i := by omega
              rw [hidx]
              exact hi'

theorem onInitialize_noPreLog {st : State W} (h : NoPreLog st.digest) :
    onInitialize cfg st = some { st with pending := [] } := by
  unfold onInitialize
  cases hpre : findPreLog st.digest with
  | ok log => exact absurd hpre (h log)
  | error e => simp only [hpre]

/-- The state before the finalisation of a block without a pre-log. -/
theorem runBody_spec {input : BlockInput W} {st mid : State W} {accepted : List Transaction}
    (hdigest : NoPreLog input.digest) (h : runBody cfg input st = some (accepted, mid)) :
    mid.digest = input.digest ∧ mid.blockNumber = st.blockNumber + 1 ∧
      mid.currentBlock = st.currentBlock ∧ mid.pending.map (fun p => p.1) = accepted ∧
      ∀ i entry, mid.pending[i]? = some entry → Aligned cfg i entry := by
  unfold runBody at h
  rw [onInitialize_noPreLog hdigest, Option.bind_some] at h
  obtain ⟨hsame, entries, happend, hmap, hal⟩ := runExtrinsics_spec input.extrinsics h
  rw [List.nil_append] at happend
  refine ⟨hsame.digest, hsame.blockNumber, hsame.currentBlock, ?_, ?_⟩
  · rw [happend, hmap]
  · intro i entry hi
    rw [happend] at hi
    have := hal i entry hi
    rw [List.length_nil, Nat.zero_add] at this
    exact this

theorem runBlock_cases {input : BlockInput W} {st st' : State W} {accepted : List Transaction}
    (h : runBlock cfg input st = some (accepted, st')) :
    ∃ mid, runBody cfg input st = some (accepted, mid) ∧ onFinalize cfg mid = some st' := by
  unfold runBlock at h
  rw [Option.bind_eq_some_iff] at h
  obtain ⟨⟨accepted', mid⟩, hbody, hfin⟩ := h
  simp only [Option.map_eq_some_iff, Prod.mk.injEq] at hfin
  obtain ⟨st'', hfin, rfl, rfl⟩ := hfin
  exact ⟨mid, hbody, hfin⟩

theorem assembled_of_finalize {accepted : List Transaction} {parent : Block} {mid st' : State W}
    (hparent : mid.currentBlock = some parent) (hmap : mid.pending.map (fun p => p.1) = accepted)
    (hal : ∀ i entry, mid.pending[i]? = some entry → Aligned cfg i entry)
    (h : onFinalize cfg mid = some st') :
    ∃ block receipts statuses, Assembled cfg accepted parent st' block receipts statuses := by
  unfold onFinalize at h
  obtain ⟨gasUsed, hgas, hblock, hreceipts, hstatuses, hnumber, -⟩ := storeBlock_spec h
  have hmem : ∀ entry ∈ mid.pending, ∃ i, Aligned cfg i entry := by
    intro entry hentry
    obtain ⟨i, hi⟩ := List.mem_iff_getElem?.1 hentry
    exact ⟨i, hal i entry hi⟩
  have hbloom : ∀ receipt ∈ mid.pending.map (fun p => p.2.2),
      receipt.logsBloom = logsBloom cfg receipt.logs 0 := by
    intro receipt hreceipt
    obtain ⟨entry, hentry, rfl⟩ := List.mem_map.1 hreceipt
    obtain ⟨i, hi⟩ := hmem entry hentry
    exact hi.bloom
  refine ⟨buildBlock cfg mid gasUsed, mid.pending.map fun p => p.2.2,
    mid.pending.map fun p => p.2.1, ?_⟩
  exact {
    currentBlock := hblock
    currentReceipts := hreceipts
    currentTransactionStatuses := hstatuses
    transactions := hmap
    receipts_length := by rw [List.length_map, ← hmap, List.length_map]
    statuses_length := by rw [List.length_map, ← hmap, List.length_map]
    aligned := by
      intro i transaction status receipt ht hs hr
      rw [← hmap, List.getElem?_map, Option.map_eq_some_iff] at ht
      obtain ⟨entry, hentry, rfl⟩ := ht
      rw [List.getElem?_map, hentry, Option.map_some, Option.some.injEq] at hs hr
      subst hs hr
      have he := hal i entry hentry
      exact ⟨he.transactionIndex, he.transactionHash, he.logs, he.logsBloom⟩
    gasUsed := totalGas_eq hgas
    logsBloom_union := allLogs_eq_union hbloom
    logsBloom_contains := by
      intro receipt hreceipt log hlog
      have hset : ∀ i, (logsBloom cfg receipt.logs 0).getLsbD i = true →
          (buildBlock cfg mid gasUsed).header.logsBloom.getLsbD i = true := fun i hi =>
        (getLsbD_allLogs _ i 0).2 (Or.inr ⟨receipt, hreceipt, hi⟩)
      constructor
      · intro i hi
        exact hset i ((getLsbD_logsBloom _ i 0).2 (Or.inr ⟨log, hlog, Or.inl hi⟩))
      · intro topic htopic i hi
        exact hset i ((getLsbD_logsBloom _ i 0).2
          (Or.inr ⟨log, hlog, Or.inr ⟨topic, htopic, hi⟩⟩))
    number := by
      rw [hnumber]
      rfl
    parentHash := by
      show (currentBlockHash cfg mid).getD 0 = cfg.hashing.headerHash parent.header
      unfold currentBlockHash
      rw [hparent]
      rfl }

/-- Every state of a run is one that `store_block` has left behind. -/
theorem Reached.stored {st : State W} (h : Reached cfg st) :
    ∃ postLog mid, storeBlock cfg postLog mid = some st := by
  cases h with
  | genesis world timestamp _ hstore => exact ⟨_, _, hstore⟩
  | block st _ input accepted hst hdigest hrun =>
    obtain ⟨mid, -, hfin⟩ := runBlock_cases hrun
    exact ⟨_, mid, hfin⟩

theorem Reached.currentBlock {st : State W} (h : Reached cfg st) :
    ∃ block, st.currentBlock = some block := by
  obtain ⟨postLog, mid, hstore⟩ := h.stored
  obtain ⟨gasUsed, -, hblock, -⟩ := storeBlock_spec hstore
  exact ⟨_, hblock⟩

/-- The stored block has the number of the Substrate block. -/
theorem Reached.number {st : State W} (h : Reached cfg st) {block : Block}
    (hblock : st.currentBlock = some block) : block.header.number = U256.ofU32 st.blockNumber := by
  obtain ⟨postLog, mid, hstore⟩ := h.stored
  obtain ⟨gasUsed, -, hcurrent, -, -, hnumber, -⟩ := storeBlock_spec hstore
  rw [hblock, Option.some.injEq] at hcurrent
  rw [hcurrent, hnumber]
  rfl

/-- **Block assembly.** In every run of blocks, each block is assembled from its accepted
transactions on top of the block stored before it. -/
theorem block_assembled {st st' : State W} {input : BlockInput W} {accepted : List Transaction}
    (hst : Reached cfg st) (hdigest : NoPreLog input.digest)
    (hrun : runBlock cfg input st = some (accepted, st')) :
    st'.blockNumber = st.blockNumber + 1 ∧
      ∃ parent block receipts statuses, st.currentBlock = some parent ∧
        Assembled cfg accepted parent st' block receipts statuses := by
  obtain ⟨mid, hbody, hfin⟩ := runBlock_cases hrun
  obtain ⟨-, hnumber, hcurrent, hmap, hal⟩ := runBody_spec hdigest hbody
  obtain ⟨parent, hparent⟩ := hst.currentBlock
  have hnumber' : st'.blockNumber = st.blockNumber + 1 := by
    obtain ⟨gasUsed, -, -, -, -, hsame, -⟩ := storeBlock_spec hfin
    rw [hsame, hnumber]
  obtain ⟨block, receipts, statuses, hassembled⟩ :=
    assembled_of_finalize (hcurrent.trans hparent) hmap hal hfin
  exact ⟨hnumber', parent, block, receipts, statuses, hparent, hassembled⟩

theorem block_assembled_threeCalls :
    ∃ st', runBlock countingConfig threeCalls countingGenesis =
        some ([callWithNonce 0, callWithNonce 1], st') ∧
      ∃ parent block receipts statuses, countingGenesis.currentBlock = some parent ∧
        Assembled countingConfig [callWithNonce 0, callWithNonce 1] parent st' block receipts
          statuses := by
  have hdigest : NoPreLog threeCalls.digest := fun _ => nofun
  exact ⟨_, rfl, (block_assembled countingGenesis_reached hdigest rfl).2⟩

end Shadows.Ethereum
