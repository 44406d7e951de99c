import Shadows.Rpc.IndexLookups
import Shadows.Rpc.Proofs.LoadHashProofs
import Shadows.Rpc.Proofs.ReceiptProofs

/-!
# Proofs: an index beyond the block

The index of a request comes from the remote caller, and nothing compares it with the length of the
block before both vectors are indexed.
-/

namespace Shadows.Rpc

open Db Ethereum

variable {Hash : Type} {codec : BlockCodec} {api : BlockApi Hash}

/-! ## One block -/

theorem hasIndex_some (id : BlockId Hash) (index : Index) :
    api.HasIndex (some id) index ↔ ∀ block, api.currentBlock id = some block →
      index.value.toNat < block.transactions.length := by
  constructor
  · exact fun h block => h id block rfl
  · intro h id' block hid
    cases hid
    exact h block

theorem hasIndex_none (index : Index) : api.HasIndex none index :=
  fun _ _ hid => absurd hid.symm (Option.some_ne_none _)

/-- The lookup in a block of aligned vectors panics exactly if the index is beyond the block. -/
theorem transactionAt_eq_some_iff (codec : BlockCodec) (haligned : api.Aligned)
    (id : BlockId Hash) (index : Index) :
    transactionAt codec api id index = some (api.findTransaction codec (some id) index) ↔
      api.HasIndex (some id) index := by
  rw [hasIndex_some]
  unfold transactionAt BlockApi.findTransaction
  rw [Option.bind_some]
  cases hblock : api.currentBlock id with
  | none => exact iff_of_true rfl fun block h => absurd h.symm (Option.some_ne_none block)
  | some block =>
    obtain ⟨statuses, hstatuses, hlength⟩ := haligned id block hblock
    rw [hstatuses]
    simp only [Option.bind_some, Option.some.injEq, forall_eq']
    by_cases hlt : index.value.toNat < block.transactions.length
    · rw [List.getElem?_eq_getElem hlt, List.getElem?_eq_getElem (hlength ▸ hlt)]
      exact iff_of_true rfl hlt
    · rw [List.getElem?_eq_none (not_lt.1 hlt)]
      exact iff_of_false (fun h => absurd h.symm (Option.some_ne_none _)) hlt

/-- The index is beyond the block: the request panics. -/
theorem transactionAt_eq_none {id : BlockId Hash} {index : Index} {block : Block}
    {statuses : List TransactionStatus} (hblock : api.currentBlock id = some block)
    (hstatuses : api.currentTransactionStatuses id = some statuses)
    (hbeyond : block.transactions.length ≤ index.value.toNat) :
    transactionAt codec api id index = none := by
  unfold transactionAt
  rw [hblock, hstatuses]
  dsimp only
  rw [List.getElem?_eq_none hbeyond]
  rfl

/-! ## The lookups -/

variable [DecidableEq Hash]

theorem byNumber_total_iff (haligned : api.Aligned) (number : BlockNumber) (index : Index) :
    transactionByBlockNumberAndIndex codec api number index =
        some (api.findTransaction codec (api.nativeBlockId (some number)) index) ↔
      api.HasIndex (api.nativeBlockId (some number)) index := by
  unfold transactionByBlockNumberAndIndex
  cases api.nativeBlockId (some number) with
  | none => exact iff_of_true rfl (hasIndex_none index)
  | some id => exact transactionAt_eq_some_iff codec haligned id index

theorem nativeBlockId_hash {hash : H256} {found : Option Hash}
    (h : loadHash api.client api.backend hash = .ok found) :
    api.nativeBlockId (some (.hash hash false)) = found.map .hash := by
  unfold ChainApi.nativeBlockId
  rw [Option.getD_some]
  dsimp only
  rw [h]

theorem byHash_total_iff (haligned : api.Aligned) (hash : H256) (index : Index) :
    transactionByBlockHashAndIndex codec api hash index =
        some (.ok (api.findTransaction codec (api.nativeBlockId (some (.hash hash false))) index)) ↔
      (∃ hashes, MappingDb.blockHashes api.backend hash = .ok hashes) ∧
        api.HasIndex (api.nativeBlockId (some (.hash hash false))) index := by
  rw [← loadHash_ok_iff api.client]
  unfold transactionByBlockHashAndIndex
  cases hload : loadHash api.client api.backend hash with
  | error err =>
    refine iff_of_false (fun h => ?_) fun h => ?_
    · cases Option.some.inj h
    · obtain ⟨⟨id, hid⟩, -⟩ := h
      cases hid
  | ok found =>
    rw [nativeBlockId_hash hload, and_iff_right ⟨found, rfl⟩]
    cases found with
    | none => exact iff_of_true rfl (hasIndex_none index)
    | some id =>
      rw [Option.map_some, ← transactionAt_eq_some_iff codec haligned]
      constructor
      · intro h
        obtain ⟨found, hfound, heq⟩ := Option.map_eq_some_iff.1 h
        rw [hfound, Except.ok.inj heq]
      · intro h
        dsimp only
        rw [h]
        rfl

/-- **Lookups by index.** By number, the transaction at the index is returned, if it exists, and no
transaction otherwise, exactly if there is no block or the index is one of the block; by hash, exactly
if besides the entry of the hash can be decoded. -/
theorem index_lookups_iff (haligned : api.Aligned) (index : Index) :
    (∀ number, transactionByBlockNumberAndIndex codec api number index =
          some (api.findTransaction codec (api.nativeBlockId (some number)) index) ↔
        api.HasIndex (api.nativeBlockId (some number)) index) ∧
      ∀ hash, transactionByBlockHashAndIndex codec api hash index =
          some (.ok (api.findTransaction codec (api.nativeBlockId (some (.hash hash false)))
            index)) ↔
        (∃ hashes, MappingDb.blockHashes api.backend hash = .ok hashes) ∧
          api.HasIndex (api.nativeBlockId (some (.hash hash false))) index :=
  ⟨fun number => byNumber_total_iff haligned number index,
    fun hash => byHash_total_iff haligned hash index⟩

/-! ## A node with one block -/

theorem readAt_eq_some {α W : Type} {st : State W} {value : Option α} {id : BlockId Unit} {a : α}
    (h : readAt st value id = some a) :
    value = some a ∧ ∀ {β : Type} (other : Option β), readAt st other id = other := by
  cases id with
  | hash _ => exact ⟨h, fun _ => rfl⟩
  | number n =>
    by_cases hn : n = st.blockNumber
    · exact ⟨(if_pos hn).symm.trans h, fun _ => if_pos hn⟩
    · exact absurd ((if_neg hn).symm.trans h).symm (Option.some_ne_none a)

/-- The statuses that `store_block` leaves behind are aligned with the transactions. -/
theorem soleBlockReader_aligned {W : Type} {cfg : Config W} {st : State W} (h : Reached cfg st)
    (hashing : Hashing) : (soleBlockReader hashing st).Aligned := by
  obtain ⟨block, receipts, statuses, hblock, -, hstatuses, hstored⟩ := Reached.storedBlock h
  intro id block' hread
  obtain ⟨hblock', hother⟩ := readAt_eq_some hread
  rw [hblock, Option.some.injEq] at hblock'
  rw [← hblock']
  exact ⟨statuses, (hother _).trans hstatuses, hstored.statuses_length⟩

theorem index_lookups_iff_threeCalls :
    transactionByBlockNumberAndIndex smallCodec (soleBlockReader numberHashing threeCallsState)
        .latest ⟨1⟩ =
      some ((soleBlockReader numberHashing threeCallsState).findTransaction smallCodec
        (some (.hash ())) ⟨1⟩) := by
  refine ((index_lookups_iff (soleBlockReader_aligned threeCallsState_reached numberHashing) ⟨1⟩).1
    .latest).2 ((hasIndex_some _ _).2 fun block hblock => ?_)
  have htransactions : block.transactions = [callWithNonce 0, callWithNonce 1] := by
    rw [← Option.some.inj hblock]
    rfl
  rw [htransactions]
  decide

/-- The genesis block has no transaction, and a request for its first one panics. -/
theorem genesis_index_panics :
    (soleBlockReader numberHashing countingGenesis).Aligned ∧
      Index.deserialize (.str "0x0") = some ⟨0⟩ ∧
      transactionByBlockNumberAndIndex smallCodec (soleBlockReader numberHashing countingGenesis)
        .earliest ⟨0⟩ = none ∧
      transactionByBlockHashAndIndex smallCodec (soleBlockReader numberHashing countingGenesis)
        0 ⟨0⟩ = none :=
  ⟨soleBlockReader_aligned countingGenesis_reached numberHashing, by decide, rfl, rfl⟩

end Shadows.Rpc
