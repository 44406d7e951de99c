import Shadows.Ethereum.Blocks

/-!
# Proofs: `do_transact` and `store_block`

What a call of `do_transact` appends to `Pending`, and what `store_block` makes of the entries: the
sum of the gas and the union of the blooms.
-/

namespace Shadows.Ethereum

open Consensus Foundations

variable {W : Type} {cfg : Config W}

/-! ## Blooms -/

theorem getLsbD_accrue (bloom : Bloom) (input : Bytes) (i : ℕ) :
    (accrue cfg bloom input).getLsbD i = true ↔
      bloom.getLsbD i = true ∨ (cfg.bloomBits input).getLsbD i = true := by
  unfold accrue
  rw [BitVec.getLsbD_or, Bool.or_eq_true]

theorem getLsbD_topics (topics : List H256) (i : ℕ) : ∀ bloom : Bloom,
    (topics.foldl (fun bloom topic => accrue cfg bloom topic.asBytes) bloom).getLsbD i = true ↔
      bloom.getLsbD i = true ∨
        ∃ topic ∈ topics, (cfg.bloomBits topic.asBytes).getLsbD i = true := by
  induction topics with
  | nil => intro bloom; simp
  | cons topic rest ih =>
    intro bloom
    rw [List.foldl_cons, ih, getLsbD_accrue]
    simp [or_assoc]

/-- The bits of a bloom are those of the addresses and topics put into it. -/
theorem getLsbD_logsBloom (logs : List Shadows.Log) (i : ℕ) : ∀ bloom : Bloom,
    (logsBloom cfg logs bloom).getLsbD i = true ↔
      bloom.getLsbD i = true ∨ ∃ log ∈ logs,
        (cfg.bloomBits log.address.asBytes).getLsbD i = true ∨
          ∃ topic ∈ log.topics, (cfg.bloomBits topic.asBytes).getLsbD i = true := by
  induction logs with
  | nil => intro bloom; simp [logsBloom]
  | cons log rest ih =>
    intro bloom
    have hstep : logsBloom cfg (log :: rest) bloom = logsBloom cfg rest
        (log.topics.foldl (fun bloom topic => accrue cfg bloom topic.asBytes)
          (accrue cfg bloom log.address.asBytes)) := rfl
    rw [hstep, ih, getLsbD_topics, getLsbD_accrue]
    simp [or_assoc]

theorem getLsbD_union (receipts : List Receipt) (i : ℕ) : ∀ bloom : Bloom,
    (receipts.foldl (fun bloom receipt => bloom ||| receipt.logsBloom) bloom).getLsbD i = true ↔
      bloom.getLsbD i = true ∨ ∃ receipt ∈ receipts, receipt.logsBloom.getLsbD i = true := by
  induction receipts with
  | nil => intro bloom; simp
  | cons receipt rest ih =>
    intro bloom
    rw [List.foldl_cons, ih, BitVec.getLsbD_or, Bool.or_eq_true]
    simp [or_assoc]

theorem getLsbD_allLogs (receipts : List Receipt) (i : ℕ) : ∀ bloom : Bloom,
    (receipts.foldl (fun bloom receipt => logsBloom cfg receipt.logs bloom) bloom).getLsbD i = true ↔
      bloom.getLsbD i = true ∨
        ∃ receipt ∈ receipts, (logsBloom cfg receipt.logs 0).getLsbD i = true := by
  induction receipts with
  | nil => intro bloom; simp
  | cons receipt rest ih =>
    intro bloom
    have hone : (logsBloom cfg receipt.logs bloom).getLsbD i = true ↔
        bloom.getLsbD i = true ∨ (logsBloom cfg receipt.logs 0).getLsbD i = true := by
      rw [getLsbD_logsBloom receipt.logs i bloom, getLsbD_logsBloom receipt.logs i 0]
      simp
    rw [List.foldl_cons, ih, hone]
    simp [or_assoc]

/-- The bloom of the header, which is computed from the logs, is the union of the blooms of the
receipts, which were computed when the transactions were executed. -/
theorem allLogs_eq_union {receipts : List Receipt}
    (h : ∀ receipt ∈ receipts, receipt.logsBloom = logsBloom cfg receipt.logs 0) :
    receipts.foldl (fun bloom receipt => logsBloom cfg receipt.logs bloom) 0 =
      receipts.foldl (fun bloom receipt => bloom ||| receipt.logsBloom) 0 := by
  apply BitVec.eq_of_getLsbD_eq
  intro i _
  rw [Bool.eq_iff_iff, getLsbD_allLogs, getLsbD_union]
  constructor
  · rintro (h0 | ⟨receipt, hr, hi⟩)
    · exact Or.inl h0
    · exact Or.inr ⟨receipt, hr, by rw [h receipt hr]; exact hi⟩
  · rintro (h0 | ⟨receipt, hr, hi⟩)
    · exact Or.inl h0
    · exact Or.inr ⟨receipt, hr, by rw [← h receipt hr]; exact hi⟩

/-! ## The gas -/

theorem totalGas_aux (receipts : List Receipt) : ∀ acc total : U256,
    receipts.foldlM (fun acc r => acc.checkedAdd r.usedGas) acc = some total →
      total.val = acc.val + (receipts.map fun r => r.usedGas.val).sum := by
  induction receipts with
  | nil =>
    intro acc total h
    simp only [List.foldlM_nil, Option.pure_def, Option.some.injEq] at h
    rw [h]
    rfl
  | cons receipt rest ih =>
    intro acc total h
    rw [List.foldlM_cons, Option.bind_eq_bind, Option.bind_eq_some_iff] at h
    obtain ⟨next, hnext, hrest⟩ := h
    rw [ih next total hrest, U256.checkedAdd_eq_some.1 hnext, List.map_cons, List.sum_cons,
      Nat.add_assoc]

theorem totalGas_eq {receipts : List Receipt} {total : U256} (h : totalGas receipts = some total) :
    total.val = (receipts.map fun r => r.usedGas.val).sum := by
  have := totalGas_aux receipts 0 total h
  rw [this]
  exact Nat.zero_add _

/-! ## `execute` -/

/-- The runner is called for the action, and its outcome is the outcome. -/
theorem execute_cases {source : H160} {input : Bytes} {value gasLimit : U256}
    {gasPrice nonce : Option U256} {action : TransactionAction} {world world' : W}
    {out : Except DispatchError (Option H160 × Option H160 × CallOrCreateInfo)}
    (h : execute cfg source input value gasLimit gasPrice nonce action world = some (out, world')) :
    (∃ target r, action = .call target ∧
      cfg.runner.call source target input value gasLimit.lowU64 gasPrice nonce world =
        some (r, world') ∧
      out = (r.map fun res => (some target, none, .call res)).mapError .evm) ∨
    ∃ r, action = .create ∧
      cfg.runner.create source input value gasLimit.lowU64 gasPrice nonce world = some (r, world') ∧
      out = (r.map fun res => (none, some res.value, .create res)).mapError .evm := by
  cases action with
  | call target =>
    rw [execute] at h
    cases hcall : cfg.runner.call source target input value gasLimit.lowU64 gasPrice nonce world with
    | none =>
      rw [hcall] at h
      cases h
    | some p =>
      obtain ⟨r, after⟩ := p
      rw [hcall] at h
      cases r with
      | error e =>
        cases h
        exact .inl ⟨target, _, rfl, hcall, rfl⟩
      | ok res =>
        cases h
        exact .inl ⟨target, _, rfl, hcall, rfl⟩
  | create =>
    rw [execute] at h
    cases hcreate : cfg.runner.create source input value gasLimit.lowU64 gasPrice nonce world with
    | none =>
      rw [hcreate] at h
      cases h
    | some p =>
      obtain ⟨r, after⟩ := p
      rw [hcreate] at h
      cases r with
      | error e =>
        cases h
        exact .inr ⟨_, rfl, rfl, rfl⟩
      | ok res =>
        cases h
        exact .inr ⟨_, rfl, rfl, rfl⟩

/-! ## `do_transact` -/

/-- An entry of `Pending` whose position is `i`. -/
structure Aligned (cfg : Config W) (i : ℕ) (entry : Transaction × TransactionStatus × Receipt) :
    Prop where
  transactionIndex : entry.2.1.transactionIndex = UInt32.ofNat i
  transactionHash : entry.2.1.transactionHash = cfg.hashing.transactionHash entry.1
  logs : entry.2.1.logs = entry.2.2.logs
  logsBloom : entry.2.1.logsBloom = entry.2.2.logsBloom
  bloom : entry.2.2.logsBloom = Ethereum.logsBloom cfg entry.2.2.logs 0

/-- Two states of one block: what the transactions of the block leave alone. -/
structure SameBlock (st st' : State W) : Prop where
  digest : st'.digest = st.digest
  blockNumber : st'.blockNumber = st.blockNumber
  currentBlock : st'.currentBlock = st.currentBlock

theorem SameBlock.refl (st : State W) : SameBlock st st := ⟨rfl, rfl, rfl⟩

theorem SameBlock.trans {st st' st'' : State W} (h : SameBlock st st') (h' : SameBlock st' st'') :
    SameBlock st st'' :=
  ⟨h'.digest.trans h.digest, h'.blockNumber.trans h.blockNumber,
    h'.currentBlock.trans h.currentBlock⟩

theorem summarize_spec (cfg : Config W) (source : H160) (transactionHash : H256) (transactionIndex : UInt32)
    («to» : Option H160) (info : CallOrCreateInfo) :
    (summarize cfg source transactionHash transactionIndex «to» info).2.1.transactionHash =
        transactionHash ∧
      (summarize cfg source transactionHash transactionIndex «to» info).2.1.transactionIndex =
        transactionIndex ∧
      (summarize cfg source transactionHash transactionIndex «to» info).2.1.logsBloom = logsBloom cfg
        (summarize cfg source transactionHash transactionIndex «to» info).2.1.logs 0 := by
  cases info with
  | call info => exact ⟨rfl, rfl, rfl⟩
  | create info => exact ⟨rfl, rfl, rfl⟩

/-- The outcomes of `do_transact`: it fails before it gets to the runner, or it has the outcome of the
pallet's `execute`, whose summary it appends to `Pending` if there is one. -/
theorem doTransact_outcome {transaction : Transaction} {st st' : State W}
    {r : Except DispatchError UInt64} (h : doTransact cfg transaction st = some (r, st')) :
    (∃ e, r = .error e ∧ st' = st) ∨
    ∃ source out world, NoPreLog st.digest ∧ recoverSigner cfg transaction = some source ∧
      execute cfg source transaction.input transaction.value transaction.gasLimit
        (some transaction.gasPrice) (some transaction.nonce) transaction.action st.world =
          some (out, world) ∧
      ((∃ e, out = .error e ∧ r = .error e ∧ st' = { st with world := world }) ∨
        ∃ «to» contractAddress info reason status usedGas receipt events,
          out = .ok («to», contractAddress, info) ∧
          summarize cfg source (cfg.hashing.transactionHash transaction)
            (UInt32.ofNat st.pending.length) «to» info = (reason, status, usedGas) ∧
          receipt.usedGas = usedGas ∧ receipt.logsBloom = status.logsBloom ∧
          receipt.logs = status.logs ∧ r = .ok (cfg.gasToWeight usedGas.saturatedU64) ∧
          st' = { st with
            world := world
            pending := st.pending ++ [(transaction, status, receipt)]
            events := events }) := by
  unfold doTransact at h
  cases hpre : findPreLog st.digest with
  | ok log =>
    simp only [hpre, Option.some.injEq, Prod.mk.injEq] at h
    exact .inl ⟨_, h.1.symm, h.2.symm⟩
  | error e =>
    have hno : NoPreLog st.digest := fun log hlog => by rw [hpre] at hlog; cases hlog
    cases hsigner : recoverSigner cfg transaction with
    | none =>
      simp only [hpre, hsigner, Option.some.injEq, Prod.mk.injEq] at h
      exact .inl ⟨_, h.1.symm, h.2.symm⟩
    | some source =>
      simp only [hpre, hsigner] at h
      split at h
      · cases h
      · rename_i e world hexecute
        simp only [Option.some.injEq, Prod.mk.injEq] at h
        exact .inr ⟨source, _, world, hno, rfl, hexecute, .inl ⟨e, rfl, h.1.symm, h.2.symm⟩⟩
      · rename_i «to» contractAddress info world hexecute
        simp only [Option.some.injEq, Prod.mk.injEq] at h
        exact .inr ⟨source, _, world, hno, rfl, hexecute, .inr ⟨«to», contractAddress, info, _, _, _,
          _, _, rfl, rfl, rfl, rfl, rfl, h.1.symm, h.2.symm⟩⟩

/-- A failed call leaves `Pending` alone, a successful one appends an entry that is aligned with its
position. -/
theorem doTransact_cases {transaction : Transaction} {st st' : State W}
    {r : Except DispatchError UInt64} (h : doTransact cfg transaction st = some (r, st')) :
    SameBlock st st' ∧
      ((∃ e, r = .error e ∧ st'.pending = st.pending) ∨
        NoPreLog st.digest ∧ ∃ weight entry, r = .ok weight ∧ entry.1 = transaction ∧
          Aligned cfg st.pending.length entry ∧ st'.pending = st.pending ++ [entry]) := by
  obtain ⟨e, rfl, rfl⟩ | ⟨source, out, world, hno, -, -, hout⟩ := doTransact_outcome h
  · exact ⟨SameBlock.refl _, .inl ⟨e, rfl, rfl⟩⟩
  · obtain ⟨e, -, rfl, rfl⟩ | ⟨«to», contractAddress, info, reason, status, usedGas, receipt, events,
      -, hsummary, -, hlogsBloom, hlogs, rfl, rfl⟩ := hout
    · exact ⟨⟨rfl, rfl, rfl⟩, .inl ⟨e, rfl, rfl⟩⟩
    · obtain ⟨hhash, hindex, hbloom⟩ := summarize_spec cfg source
        (cfg.hashing.transactionHash transaction) (UInt32.ofNat st.pending.length) «to» info
      rw [hsummary] at hhash hindex hbloom
      refine ⟨⟨rfl, rfl, rfl⟩, .inr ⟨hno, _, (transaction, status, receipt), rfl, rfl, ?_, rfl⟩⟩
      refine ⟨hindex, hhash, hlogs.symm, hlogsBloom.symm, ?_⟩
      rw [hlogsBloom, hlogs]
      exact hbloom

theorem doTransact_preLog {transaction : Transaction} {st : State W} {log : PreLog}
    (h : findPreLog st.digest = .ok log) :
    doTransact cfg transaction st = some (.error .preLogExists, st) := by
  unfold doTransact
  rw [h]

/-! ## `store_block` -/

/-- What is stored, if the gas of the receipts adds up. -/
theorem storeBlock_eq_some {postLog : Bool} {st st' : State W}
    (h : storeBlock cfg postLog st = some st') :
    ∃ gasUsed, totalGas (st.pending.map fun p => p.2.2) = some gasUsed ∧
      st' = { st with
        currentBlock := some (buildBlock cfg st gasUsed)
        currentReceipts := some (st.pending.map fun p => p.2.2)
        currentTransactionStatuses := some (st.pending.map fun p => p.2.1)
        digest := if postLog then st.digest ++ [.consensus shadowsEngineId
          (.encoded (.hashes (Hashes.fromBlock cfg.hashing (buildBlock cfg st gasUsed))))]
          else st.digest } := by
  unfold storeBlock at h
  cases hgas : totalGas (st.pending.map fun p => p.2.2) with
  | none => simp only [hgas, reduceCtorEq] at h
  | some gasUsed =>
    simp only [hgas, Option.some.injEq] at h
    exact ⟨gasUsed, rfl, h.symm⟩

theorem storeBlock_spec {postLog : Bool} {st st' : State W} (h : storeBlock cfg postLog st = some st') :
    ∃ gasUsed, totalGas (st.pending.map fun p => p.2.2) = some gasUsed ∧
      st'.currentBlock = some (buildBlock cfg st gasUsed) ∧
      st'.currentReceipts = some (st.pending.map fun p => p.2.2) ∧
      st'.currentTransactionStatuses = some (st.pending.map fun p => p.2.1) ∧
      st'.blockNumber = st.blockNumber ∧
      st'.digest = if postLog then st.digest ++ [.consensus shadowsEngineId
        (.encoded (.hashes (Hashes.fromBlock cfg.hashing (buildBlock cfg st gasUsed))))]
        else st.digest := by
  obtain ⟨gasUsed, hgas, rfl⟩ := storeBlock_eq_some h
  exact ⟨gasUsed, hgas, rfl, rfl, rfl, rfl, rfl⟩

end Shadows.Ethereum
