import Shadows.Db.WriteLog
import Mathlib.Data.List.Nodup

/-!
# Proofs: `write_hashes` appends to the log

A successful `write_hashes` on a database that represents `log` gives one that represents `log` with
the commitment appended, and it leaves the syncing tips alone; writing the tips leaves the mapping
alone.
-/

namespace Shadows.Db

variable {Hash : Type}

/-! ## Last positions -/

theorem lastPosition_eq_none {t : H256} (txs : List H256) :
    ∀ i, lastPosition t i txs = none ↔ t ∉ txs := by
  induction txs with
  | nil => simp [lastPosition]
  | cons x rest ih =>
    intro i
    simp only [lastPosition, Option.or_eq_none_iff, ih, List.mem_cons, not_or]
    by_cases h : x = t <;> simp [h, Ne.symm]

/-- The last position is one where `t` stands, and `t` stands nowhere behind it. -/
theorem lastPosition_eq_some {t : H256} (txs : List H256) :
    ∀ i j, lastPosition t i txs = some j ↔
      ∃ k, j = i + k ∧ txs[k]? = some t ∧ ∀ m, k < m → txs[m]? ≠ some t := by
  induction txs with
  | nil => simp [lastPosition]
  | cons x rest ih =>
    intro i j
    rw [lastPosition]
    cases hr : lastPosition t (i + 1) rest with
    | some j' =>
      simp only [Option.some_or, Option.some.injEq]
      obtain ⟨k', hj', hk', hmax'⟩ := (ih _ _).1 hr
      constructor
      · rintro rfl
        refine ⟨k' + 1, by omega, by simpa using hk', fun m hm => ?_⟩
        obtain ⟨m, rfl⟩ : ∃ n, m = n + 1 := ⟨m - 1, by omega⟩
        simpa using hmax' m (by omega)
      · rintro ⟨k, rfl, hk, hmax⟩
        rcases lt_trichotomy k (k' + 1) with h | h | h
        · exact absurd (by simpa using hk') (hmax (k' + 1) h)
        · omega
        · obtain ⟨n, rfl⟩ : ∃ n, k = n + 1 := ⟨k - 1, by omega⟩
          exact absurd (by simpa using hk) (hmax' n (by omega))
    | none =>
      have hnot := (lastPosition_eq_none rest (i + 1)).1 hr
      have hrest : ∀ m, rest[m]? ≠ some t := fun m hm => hnot (List.mem_of_getElem? hm)
      simp only [Option.none_or]
      by_cases hx : x = t
      · simp only [hx, if_true, Option.some.injEq]
        constructor
        · rintro rfl
          refine ⟨0, rfl, rfl, fun m hm => ?_⟩
          obtain ⟨m, rfl⟩ : ∃ n, m = n + 1 := ⟨m - 1, by omega⟩
          simpa using hrest m
        · rintro ⟨k, rfl, hk, -⟩
          cases k with
          | zero => rfl
          | succ k => exact absurd (by simpa using hk) (hrest k)
      · simp only [hx, if_false, reduceCtorEq, false_iff]
        rintro ⟨k, rfl, hk, -⟩
        cases k with
        | zero => exact hx (by simpa using hk)
        | succ k => exact hrest k (by simpa using hk)

theorem lastPosition_of_nodup {t : H256} {txs : List H256} (hnd : txs.Nodup) {i : ℕ}
    (hi : txs[i]? = some t) : lastPosition t 0 txs = some i := by
  refine (lastPosition_eq_some txs 0 i).2 ⟨i, by omega, hi, fun m hm ht => ?_⟩
  have h1 := (List.getElem?_eq_some_iff.1 hi)
  have h2 := (List.getElem?_eq_some_iff.1 ht)
  obtain ⟨hi1, hi2⟩ := h1
  obtain ⟨hm1, hm2⟩ := h2
  have := (List.Nodup.getElem_inj_iff hnd).1 (hi2.trans hm2.symm)
  omega

/-! ## The loop of `write_hashes` -/

theorem metadataChanges_eq {db : Database Hash} {m : H256 → List (TransactionMetadata Hash)}
    (h : ∀ t, MappingDb.transactionMetadata db t = .ok (m t)) (c : MappingCommitment Hash)
    (txs : List H256) : ∀ i, MappingDb.metadataChanges db c i txs =
      .ok ((txs.zipIdx i).map fun p => .transaction p.1 (m p.1 ++ [c.entry p.2])) := by
  induction txs with
  | nil => intro i; rfl
  | cons t rest ih =>
    intro i
    simp [MappingDb.metadataChanges, h, ih, MappingCommitment.entry]

variable [DecidableEq Hash]

/-- Applying the changes of the loop: the entry for `t` comes from its last position, and the other
columns keep their contents. -/
theorem foldl_set_transaction {m : H256 → List (TransactionMetadata Hash)}
    (c : MappingCommitment Hash) (txs : List H256) : ∀ (i : ℕ) (db : Database Hash),
    ((txs.zipIdx i).map fun p => Change.transaction p.1 (m p.1 ++ [c.entry p.2])).foldl
      Database.set db =
      { db with
        transactionMapping := fun t =>
          ((lastPosition t i txs).map fun j => Raw.encoded (m t ++ [c.entry j])).or
            (db.transactionMapping t) } := by
  induction txs with
  | nil => intro i db; simp [lastPosition]
  | cons x rest ih =>
    intro i db
    simp only [List.zipIdx_cons, List.map_cons, List.foldl_cons, ih, Database.set]
    congr 1
    funext t
    rw [lastPosition]
    by_cases hx : x = t
    · subst hx
      cases lastPosition x (i + 1) rest <;> simp
    · have hx' : t ≠ x := fun h => hx h.symm
      cases lastPosition t (i + 1) rest <;> simp [hx, Function.update_of_ne hx']

/-! ## The readers after a write -/

theorem represents_empty : Represents [] (Database.empty : Database Hash) where
  isSynced := fun _ => rfl
  blockHashes := fun _ => rfl
  transactionMetadata := fun _ => rfl

theorem Represents.with_tips {log : List (MappingCommitment Hash)} {db : Database Hash}
    (h : Represents log db) (tips : Option (Raw (List Hash))) :
    Represents log { db with currentSyncingTips := tips } :=
  ⟨h.isSynced, h.blockHashes, h.transactionMetadata⟩

/-- A successful `write_hashes` appends its commitment to the log. -/
theorem Represents.writeHashes {log : List (MappingCommitment Hash)} {db : Database Hash}
    (h : Represents log db) (c : MappingCommitment Hash) :
    ∃ db', MappingDb.writeHashes (.ok ()) c db = (.ok (), db') ∧ Represents (log ++ [c]) db' ∧
      db'.currentSyncingTips = db.currentSyncingTips := by
  unfold MappingDb.writeHashes
  rw [h.blockHashes, metadataChanges_eq h.transactionMetadata]
  simp only [Database.commit, List.foldl_cons, List.foldl_append, List.foldl_nil]
  rw [foldl_set_transaction (m := fun t => log.flatMap (·.entries t))]
  refine ⟨_, rfl, ⟨fun b => ?_, fun e => ?_, fun t => ?_⟩, rfl⟩
  · simp only [Database.set, MappingDb.isSynced]
    by_cases hb : b = c.blockHash
    · simp [hb]
    · rw [Function.update_of_ne hb]
      simpa [hb, MappingDb.isSynced] using h.isSynced b
  · simp only [Database.set, MappingDb.blockHashes]
    by_cases he : e = c.ethereumBlockHash
    · simp [he]
    · rw [Function.update_of_ne he]
      have he' : ¬ c.ethereumBlockHash = e := fun h => he h.symm
      simpa [he', MappingDb.blockHashes] using h.blockHashes e
  · simp only [Database.set, MappingDb.transactionMetadata]
    cases hl : lastPosition t 0 c.ethereumTransactionHashes with
    | none => simpa [hl, MappingCommitment.entries, MappingDb.transactionMetadata] using
        h.transactionMetadata t
    | some j => simp [hl, MappingCommitment.entries]

end Shadows.Db
