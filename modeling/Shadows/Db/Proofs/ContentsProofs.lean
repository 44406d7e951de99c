import Shadows.Db.Proofs.WriteLogProofs
import Mathlib.Data.List.Pairwise

/-!
# Proofs: what the readers return

On a log whose commitments belong to different blocks, the two list-valued readers return each of
their entries once.
-/

namespace Shadows.Db

variable {Hash : Type}

namespace MappingCommitment

theorem mem_entries {t : H256} {c : MappingCommitment Hash} {m : TransactionMetadata Hash} :
    m ∈ c.entries t ↔ ∃ i, lastPosition t 0 c.ethereumTransactionHashes = some i ∧ m = c.entry i := by
  unfold entries
  rw [Option.mem_toList, Option.map_eq_some_iff]
  constructor
  · rintro ⟨i, hi, rfl⟩
    exact ⟨i, hi, rfl⟩
  · rintro ⟨i, hi, rfl⟩
    exact ⟨i, hi, rfl⟩

theorem entries_nodup (t : H256) (c : MappingCommitment Hash) : (c.entries t).Nodup := by
  unfold entries
  cases (lastPosition t 0 c.ethereumTransactionHashes).map c.entry with
  | none => exact List.nodup_nil
  | some m => exact List.nodup_singleton m

theorem blockHash_of_mem_entries {t : H256} {c : MappingCommitment Hash}
    {m : TransactionMetadata Hash} (hm : m ∈ c.entries t) : m.blockHash = c.blockHash := by
  obtain ⟨i, -, rfl⟩ := mem_entries.1 hm
  rfl

end MappingCommitment

variable {log : List (MappingCommitment Hash)}

theorem blockHashes_nodup [DecidableEq Hash] (hnd : (log.map (·.blockHash)).Nodup) (e : H256) :
    ((log.filter (·.ethereumBlockHash = e)).map (·.blockHash)).Nodup :=
  hnd.sublist (List.filter_sublist.map _)

theorem mem_blockHashes {e : H256} {b : Hash} :
    b ∈ (log.filter (·.ethereumBlockHash = e)).map (·.blockHash) ↔
      ∃ c ∈ log, c.ethereumBlockHash = e ∧ c.blockHash = b := by
  simp only [List.mem_map, List.mem_filter, decide_eq_true_eq, and_assoc]

theorem metadata_nodup (hnd : (log.map (·.blockHash)).Nodup) (t : H256) :
    (log.flatMap (·.entries t)).Nodup := by
  rw [List.nodup_flatMap]
  refine ⟨fun c _ => c.entries_nodup t, ?_⟩
  have hpair : log.Pairwise (fun c d => c.blockHash ≠ d.blockHash) := List.pairwise_map.1 hnd
  refine hpair.imp fun {c d} hne => ?_
  show List.Disjoint (c.entries t) (d.entries t)
  intro m hc hd
  have hcb := MappingCommitment.blockHash_of_mem_entries hc
  have hdb := MappingCommitment.blockHash_of_mem_entries hd
  exact hne (hcb.symm.trans hdb)

end Shadows.Db
