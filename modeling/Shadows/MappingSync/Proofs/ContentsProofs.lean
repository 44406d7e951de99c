import Shadows.MappingSync.Proofs.CompletenessProofs
import Shadows.Db.Proofs.ContentsProofs

/-!
# Proofs: what the mapping contains

The invariant of the runs says that the database represents the commitments of the written blocks,
each written once; the readers are evaluated on that log.
-/

namespace Shadows.MappingSync

open Db Consensus Foundations

variable {Hash : Type} [DecidableEq Hash] {hashing : Hashing} {chain : Chain Hash}

/-- **Contents of the mapping.** In every reachable state the readers return exactly what the written
blocks name, each entry once. -/
theorem mapping_contents {s : SyncState Hash} (hs : Reachable hashing chain NoInterrupt s)
    (hdistinct : ∀ b ∈ s.tree, (chain.hashes hashing b).transactionHashes.Nodup) :
    (∀ b, MappingDb.isSynced s.db b = .ok (decide (b ∈ s.written))) ∧
      (∀ e, ∃ l, MappingDb.blockHashes s.db e = .ok l ∧ l.Nodup ∧
        ∀ b, b ∈ l ↔ Synced s.db b ∧ (chain.hashes hashing b).blockHash = e) ∧
      ∀ t, ∃ l, MappingDb.transactionMetadata s.db t = .ok l ∧
        (∀ b i, Synced s.db b → (chain.hashes hashing b).transactionHashes[i]? = some t →
          l.count ⟨b, (chain.hashes hashing b).blockHash, UInt32.ofNat i⟩ = 1) ∧
        ∀ m ∈ l, ∃ b i, Synced s.db b ∧ (chain.hashes hashing b).transactionHashes[i]? = some t ∧
          m = ⟨b, (chain.hashes hashing b).blockHash, UInt32.ofNat i⟩ := by
  have h : Inv hashing chain s := inv_of_reachable (fun _ _ hn => hn.elim) hs
  have hnd : ((s.written.map (chain.commitment hashing)).map (·.blockHash)).Nodup := by
    rw [chain.map_blockHash_commitment]
    exact h.nodup
  refine ⟨h.isSynced_eq, fun e => ?_, fun t => ?_⟩
  · refine ⟨_, h.represents.blockHashes e, blockHashes_nodup hnd e, fun b => ?_⟩
    rw [mem_blockHashes, h.synced_iff]
    constructor
    · rintro ⟨c, hc, he, rfl⟩
      obtain ⟨b, hb, rfl⟩ := List.mem_map.1 hc
      exact ⟨hb, he⟩
    · rintro ⟨hb, he⟩
      exact ⟨chain.commitment hashing b, List.mem_map_of_mem hb, he, rfl⟩
  · refine ⟨_, h.represents.transactionMetadata t, fun b i hb hi => ?_, fun m hm => ?_⟩
    · have hbw := (h.synced_iff b).1 hb
      have hlast : lastPosition t 0 (chain.hashes hashing b).transactionHashes = some i :=
        lastPosition_of_nodup (hdistinct b (h.written_sub hbw)) hi
      apply List.count_eq_one_of_mem (metadata_nodup hnd t)
      rw [List.mem_flatMap]
      refine ⟨chain.commitment hashing b, List.mem_map_of_mem hbw, ?_⟩
      exact MappingCommitment.mem_entries.2 ⟨i, hlast, rfl⟩
    · obtain ⟨c, hc, hmc⟩ := List.mem_flatMap.1 hm
      obtain ⟨b, hb, rfl⟩ := List.mem_map.1 hc
      obtain ⟨i, hi, rfl⟩ := MappingCommitment.mem_entries.1 hmc
      obtain ⟨k, hk, hkt, -⟩ := (lastPosition_eq_some _ 0 i).1 hi
      rw [Nat.zero_add] at hk
      subst hk
      exact ⟨b, i, (h.synced_iff b).2 hb, hkt, rfl⟩

theorem mapping_contents_line :
    MappingDb.isSynced lineSynced.db 2 = .ok (decide (2 ∈ lineSynced.written)) ∧
      (∃ l, MappingDb.blockHashes lineSynced.db 2 = .ok l ∧ l.Nodup ∧
        ∀ b, b ∈ l ↔ Synced lineSynced.db b ∧ (lineChain.hashes numberHashing b).blockHash = 2) ∧
      ∃ l, MappingDb.transactionMetadata lineSynced.db 7 = .ok l ∧ l.count ⟨2, 2, 0⟩ = 1 := by
  have h := mapping_contents (lineSynced_reachable NoInterrupt) (by decide)
  obtain ⟨l, hl, hcount, -⟩ := h.2.2 7
  exact ⟨h.1 2, h.2.1 2, l, hl, hcount 2 0 rfl rfl⟩

end Shadows.MappingSync
