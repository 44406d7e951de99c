import Shadows.Rpc.RichBlocks

/-!
# Proofs: the two interfaces give different times

All fields that the header of a subscription and the block of a query have in common are copied
alike, but the query divides the milliseconds of the header into seconds.
-/

namespace Shadows.Rpc

variable {codec : BlockCodec}

/-- The milliseconds and the seconds of a header are the same number only at zero. -/
theorem ofU64_div_thousand_eq_iff (timestamp : UInt64) :
    U256.ofU64 timestamp = U256.ofU64 (timestamp / 1000) ↔ timestamp = 0 := by
  have hdiv : (timestamp / 1000).toNat = timestamp.toNat / 1000 := UInt64.toNat_div _ _
  constructor
  · intro h
    have hval : (U256.ofU64 timestamp).val = (U256.ofU64 (timestamp / 1000)).val := by rw [h]
    change timestamp.toNat = (timestamp / 1000).toNat at hval
    rw [hdiv] at hval
    apply UInt64.toNat_inj.1
    show timestamp.toNat = 0
    omega
  · rintro rfl
    rfl

/-! ## The builders -/

/-- Apart from the time, the builders copy the header alike. -/
theorem sameButTime {block : Block} {statuses : List (Option TransactionStatus)} {full : Bool}
    {rich : Rich RpcBlock}
    (h : richBlockBuild codec block statuses (some (codec.hashing.headerHash block.header)) full =
      some rich) : SameButTime (newHeads codec block) rich := by
  obtain ⟨transactions, -, rfl⟩ := Option.map_eq_some_iff.1 h
  exact ⟨rfl, rfl, rfl, rfl, rfl, rfl, rfl, rfl, rfl, rfl, rfl, rfl, rfl, rfl, rfl, rfl, rfl⟩

theorem timestamp_richBlockBuild {block : Block} {statuses : List (Option TransactionStatus)}
    {hash : Option H256} {full : Bool} {rich : Rich RpcBlock}
    (h : richBlockBuild codec block statuses hash full = some rich) :
    rich.inner.timestamp = .ofU64 (block.header.timestamp / 1000) := by
  obtain ⟨transactions, -, rfl⟩ := Option.map_eq_some_iff.1 h
  rfl

theorem headersAgree_richBlockBuild_iff {block : Block} {statuses : List (Option TransactionStatus)}
    {full : Bool} {rich : Rich RpcBlock}
    (h : richBlockBuild codec block statuses (some (codec.hashing.headerHash block.header)) full =
      some rich) :
    HeadersAgree (newHeads codec block) rich ↔ block.header.timestamp = 0 := by
  rw [← ofU64_div_thousand_eq_iff, ← timestamp_richBlockBuild h]
  exact ⟨fun hagree => hagree.timestamp, fun htime => ⟨sameButTime h, htime⟩⟩

/-! ## The query -/

variable {Hash : Type} [DecidableEq Hash] {api : BlockApi Hash}

/-- An answer with a block is built from the block that is read at the number. -/
theorem blockByNumber_eq_some {number : BlockNumber} {full : Bool} {rich : Rich RpcBlock}
    (h : blockByNumber codec api number full = some (some rich)) :
    ∃ id block statuses, api.nativeBlockId (some number) = some id ∧
      api.currentBlock id = some block ∧
      richBlockBuild codec block statuses (some (codec.hashing.headerHash block.header)) full =
        some rich := by
  unfold blockByNumber at h
  cases hid : api.nativeBlockId (some number) with
  | none =>
    rw [hid] at h
    cases h
  | some id =>
    rw [hid] at h
    dsimp only at h
    cases hblock : api.currentBlock id with
    | none =>
      rw [hblock] at h
      cases h
    | some block =>
      cases hstatuses : api.currentTransactionStatuses id with
      | none =>
        rw [hblock, hstatuses] at h
        cases h
      | some statuses =>
        rw [hblock, hstatuses] at h
        obtain ⟨rich', hrich, hsome⟩ := Option.map_eq_some_iff.1 h
        rw [Option.some.inj hsome] at hrich
        exact ⟨id, block, statuses.map some, rfl, hblock, hrich⟩

/-- **Headers in two interfaces.** The header that is pushed for a block and the block that a query
answers with agree in all common fields exactly if the block has the time zero. -/
theorem headers_agree_iff {number : BlockNumber} {id : BlockId Hash} {block : Block} {full : Bool}
    {rich : Rich RpcBlock} (hid : api.nativeBlockId (some number) = some id)
    (hblock : api.currentBlock id = some block)
    (h : blockByNumber codec api number full = some (some rich)) :
    HeadersAgree (newHeads codec block) rich ↔ block.header.timestamp = 0 := by
  obtain ⟨id', block', statuses, hid', hblock', hrich⟩ := blockByNumber_eq_some h
  rw [hid, Option.some.injEq] at hid'
  rw [← hid', hblock, Option.some.injEq] at hblock'
  rw [← hblock'] at hrich
  exact headersAgree_richBlockBuild_iff hrich

theorem headers_agree_iff_sixSeconds :
    ∃ rich, blockByNumber smallCodec (soleBlockReader numberHashing sixSeconds) .latest true =
        some (some rich) ∧
      (HeadersAgree (newHeads smallCodec sixSecondsBlock) rich ↔
        sixSecondsBlock.header.timestamp = 0) := by
  have hblock : (soleBlockReader numberHashing sixSeconds).currentBlock (.hash ()) =
    some sixSecondsBlock := rfl
  obtain ⟨rich, hrich⟩ : ∃ rich, blockByNumber smallCodec (soleBlockReader numberHashing sixSeconds)
    .latest true = some (some rich) := ⟨_, rfl⟩
  exact ⟨rich, hrich, headers_agree_iff rfl hblock hrich⟩

/-- The subscription gives the block the time 6000, the query gives it the time 6. -/
theorem sixSeconds_disagree :
    (soleBlockReader numberHashing sixSeconds).currentBlock (.hash ()) = some sixSecondsBlock ∧
      ∃ rich, blockByNumber smallCodec (soleBlockReader numberHashing sixSeconds) .latest false =
        some (some rich) ∧
      (newHeads smallCodec sixSecondsBlock).inner.timestamp = 6000 ∧ rich.inner.timestamp = 6 ∧
      ¬ HeadersAgree (newHeads smallCodec sixSecondsBlock) rich := by
  refine ⟨rfl, _, rfl, rfl, rfl, fun h => ?_⟩
  exact absurd h.timestamp (by decide)

end Shadows.Rpc
