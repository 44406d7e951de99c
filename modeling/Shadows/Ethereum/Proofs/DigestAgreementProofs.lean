import Shadows.Consensus.Proofs.DigestProofs
import Shadows.Ethereum.Proofs.AssemblyProofs

/-!
# Proofs: does the digest name the stored block?

Without a pre-log the post-log is taken of the block that `store_block` stores. With a pre-log the
mapping takes the claimed block at its word: `on_initialize` cannot execute a transaction of it, so
that the stored block is empty, and nothing compares the claimed header with the stored one.
-/

namespace Shadows.Ethereum

open Consensus Foundations

variable {W : Type} {cfg : Config W}

/-- A pre-log whose block has transactions makes `on_initialize` panic. -/
theorem executePreLog_eq_some {log : PreLog} {transactions : List Transaction} {st st' : State W}
    (hpre : findPreLog st.digest = .ok log)
    (h : executePreLog cfg transactions st = some st') : transactions = [] ∧ st' = st := by
  cases transactions with
  | nil =>
    rw [executePreLog, Option.some.injEq] at h
    exact ⟨rfl, h.symm⟩
  | cons transaction rest =>
    rw [executePreLog, doTransact_preLog hpre] at h
    cases h

theorem runExtrinsics_preLog {log : PreLog} (extrinsics : List (Extrinsic W)) :
    ∀ {st st' : State W} {accepted : List Transaction}, findPreLog st.digest = .ok log →
      runExtrinsics cfg extrinsics st = some (accepted, st') →
        st'.pending = st.pending ∧ st'.digest = st.digest := by
  induction extrinsics with
  | nil =>
    intro st st' accepted _ h
    simp only [runExtrinsics, Option.some.injEq, Prod.mk.injEq] at h
    obtain ⟨-, rfl⟩ := h
    exact ⟨rfl, rfl⟩
  | cons extrinsic rest ih =>
    intro st st' accepted hpre h
    cases extrinsic with
    | other effect =>
      have hpre' : findPreLog ({ st with world := effect st.world } : State W).digest = .ok log :=
        hpre
      have hrest := ih hpre' h
      exact hrest
    | transact transaction =>
      rw [runExtrinsics, doTransact_preLog hpre] at h
      exact ih hpre h

/-- The state before the finalisation of a block with a pre-log: the claimed block and `Pending` are
empty. -/
theorem runBody_preLog {input : BlockInput W} {st mid : State W} {accepted : List Transaction}
    {claimed : Block} (hpre : findPreLog input.digest = .ok (.block claimed))
    (h : runBody cfg input st = some (accepted, mid)) :
    claimed.transactions = [] ∧ mid.pending = [] ∧ mid.digest = input.digest := by
  unfold runBody at h
  rw [Option.bind_eq_some_iff] at h
  obtain ⟨start, hinit, hrun⟩ := h
  have hpre' : findPreLog (initializeBlock input st).digest = .ok (.block claimed) := hpre
  unfold onInitialize at hinit
  simp only [hpre'] at hinit
  obtain ⟨htxs, rfl⟩ := executePreLog_eq_some hpre hinit
  obtain ⟨hpending, hdigest⟩ := runExtrinsics_preLog input.extrinsics hpre hrun
  exact ⟨htxs, hpending, hdigest⟩

theorem digestAgrees_noPreLog {mid st' : State W} (hno : NoPreLog mid.digest)
    (h : onFinalize cfg mid = some st') : DigestAgrees cfg st' := by
  intro hensure
  obtain ⟨log, hlog⟩ := (ensureLog_ok_iff _).1 hensure
  have hpost : onFinalize cfg mid = storeBlock cfg true mid := by
    unfold onFinalize
    cases hpre : findPreLog mid.digest with
    | ok log => exact absurd hpre (hno log)
    | error e => rfl
  rw [hpost] at h
  obtain ⟨gasUsed, -, hblock, -, -, -, hdigest⟩ := storeBlock_spec h
  rw [if_pos rfl] at hdigest
  have hverdict : verdict (logs mid.digest ++ [.post (.hashes
      (Hashes.fromBlock cfg.hashing (buildBlock cfg mid gasUsed)))]) = .ok log := by
    rw [← hlog, findLog_eq, hdigest, logs_append]
    rfl
  obtain ⟨-, rfl⟩ := verdict_append_singleton hverdict
  exact ⟨_, _, hlog, hblock, rfl⟩

/-- With a pre-log the hashes of the claimed header and of the stored one decide. -/
theorem digestAgrees_preLog_iff {mid st' : State W} {claimed : Block}
    (hpre : findPreLog mid.digest = .ok (.block claimed)) (hall : AllPreRuntime mid.digest)
    (hclaimed : claimed.transactions = []) (hpending : mid.pending = [])
    (h : onFinalize cfg mid = some st') :
    DigestAgrees cfg st' ↔
      cfg.hashing.headerHash claimed.header = cfg.hashing.headerHash (emptyBlockHeader cfg mid) := by
  unfold onFinalize at h
  simp only [hpre] at h
  obtain ⟨gasUsed, hgas, hblock, -, -, -, hdigest⟩ := storeBlock_spec h
  have hzero : gasUsed = 0 := by
    rw [hpending] at hgas
    exact (Option.some.inj hgas).symm
  have hheader : (buildBlock cfg mid gasUsed).header = emptyBlockHeader cfg mid := by
    unfold buildBlock emptyBlockHeader Block.new
    rw [hpending, hzero]
    rfl
  have htxs : (buildBlock cfg mid gasUsed).transactions = [] := by
    show mid.pending.map (fun p => p.1) = []
    rw [hpending]
    rfl
  have hlog : findLog st'.digest = .ok (.pre (.block claimed)) := by
    have hsingle := verdict_eq_ok_iff.mp ((findPreLog_eq _).symm.trans hpre)
    rw [hdigest]
    show findLog mid.digest = _
    rw [findLog_eq, logs_preRuntime hall, hsingle]
    rfl
  constructor
  · intro hagrees
    obtain ⟨log, block, hlog', hblock', hhashes⟩ :=
      hagrees ((ensureLog_ok_iff _).2 ⟨_, hlog⟩)
    rw [hlog, Except.ok.injEq] at hlog'
    rw [hblock, Option.some.injEq] at hblock'
    subst hlog' hblock'
    have hhash := congrArg Hashes.blockHash hhashes
    rw [← hheader]
    exact hhash
  · intro hhash _
    refine ⟨_, _, hlog, hblock, ?_⟩
    show Hashes.fromBlock cfg.hashing claimed = _
    unfold Hashes.fromBlock
    rw [hclaimed, htxs, hheader, hhash]

/-- **The digest and the stored block.** They agree exactly if the header has no single pre-log, or
the block that it claims has the hash of the empty block that is stored. -/
theorem digestAgrees_iff {input : BlockInput W} {st mid st' : State W} {accepted : List Transaction}
    (hall : AllPreRuntime input.digest) (hbody : runBody cfg input st = some (accepted, mid))
    (hfin : onFinalize cfg mid = some st') :
    DigestAgrees cfg st' ↔ NoPreLog input.digest ∨
      ∃ claimed, findPreLog input.digest = .ok (.block claimed) ∧
        cfg.hashing.headerHash claimed.header =
          cfg.hashing.headerHash (emptyBlockHeader cfg mid) := by
  cases hpre : findPreLog input.digest with
  | error e =>
    have hno : NoPreLog input.digest := fun log hlog => by rw [hpre] at hlog; cases hlog
    have hdigest := (runBody_spec hno hbody).1
    rw [← hdigest] at hno
    have hagrees := digestAgrees_noPreLog hno hfin
    rw [hdigest] at hno
    exact ⟨fun _ => Or.inl hno, fun _ => hagrees⟩
  | ok log =>
    obtain ⟨claimed⟩ := log
    obtain ⟨htxs, hpending, hdigest⟩ := runBody_preLog hpre hbody
    rw [← hdigest] at hall
    have hpre' := hpre
    rw [← hdigest] at hpre'
    rw [digestAgrees_preLog_iff hpre' hall htxs hpending hfin]
    constructor
    · intro hhash
      exact Or.inr ⟨claimed, rfl, hhash⟩
    · rintro (hno | ⟨claimed', he, hhash⟩)
      · exact absurd hpre (hno _)
      · rw [Except.ok.injEq, PreLog.block.injEq] at he
        rw [he]
        exact hhash

theorem claimedBlock_preRuntime (number : U256) : AllPreRuntime (claimedBlock number).digest := by
  intro item hitem
  exact ⟨_, _, List.mem_singleton.1 hitem⟩

theorem digestAgrees_iff_claimedBlock : DigestAgrees countingConfig (claimedState 1) := by
  have hbody : runBody countingConfig (claimedBlock 1) countingGenesis =
      some ([], claimedBody 1) := rfl
  have hfin : onFinalize countingConfig (claimedBody 1) = some (claimedState 1) := rfl
  exact (digestAgrees_iff (claimedBlock_preRuntime 1) hbody hfin).2 (Or.inr ⟨_, rfl, rfl⟩)

/-- The author of the first block claims an empty block of number `99` by a pre-log. The block is
importable, and its digest does not name the stored block. -/
theorem digest_disagrees_claimedBlock :
    AllPreRuntime (claimedBlock 99).digest ∧
      runBlock countingConfig (claimedBlock 99) countingGenesis = some ([], claimedState 99) ∧
      ensureLog (claimedState 99).digest = .ok () ∧
      ¬ DigestAgrees countingConfig (claimedState 99) := by
  have hall : AllPreRuntime (claimedBody 99).digest := claimedBlock_preRuntime 99
  have hfin : onFinalize countingConfig (claimedBody 99) = some (claimedState 99) := rfl
  refine ⟨claimedBlock_preRuntime 99, rfl, rfl, ?_⟩
  rw [digestAgrees_preLog_iff rfl hall rfl rfl hfin]
  decide

end Shadows.Ethereum
