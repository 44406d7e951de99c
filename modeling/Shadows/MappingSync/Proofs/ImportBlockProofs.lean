import Shadows.Consensus.Proofs.OneLogProofs
import Shadows.MappingSync.Chain
import Shadows.MappingSync.ImportBlock

/-!
# Proofs: an imported block has its log

`import_block` and `sync_block` look for the log with different functions, which agree on every digest.
The seals that a consensus engine puts behind a digest carry no log.
-/

namespace Shadows.MappingSync

open Db Consensus

variable {Hash R : Type} {inner : BlockImportParams Hash → Except ConsensusError R}
  {block : BlockImportParams Hash}

theorem ensureLog_of_importBlock {r : R} (h : importBlock inner block = .ok r) :
    ensureLog block.header.digest = .ok () := by
  unfold importBlock at h
  split at h
  · cases h
  · assumption

/-- A header without a single log is refused, with the text of the error. -/
theorem importBlock_of_findLog_error {e : FindLogError} (h : findLog block.header.digest = .error e) :
    importBlock inner block = .error (.clientImport (ImportError.ofFindLogError e).text) := by
  unfold importBlock
  rw [ensureLog_eq, h]
  rfl

/-- The seals do not change the verdict: the stored header of an imported block has a log. -/
theorem ensureLog_postHeader {r : R} (h : importBlock inner block = .ok r) (hash : Hash)
    (hseals : ∀ item ∈ block.postDigests, ∃ engine data, item = .seal engine data) :
    ensureLog (block.postHeader hash).digest = .ok () := by
  have hensure := ensureLog_of_importBlock h
  rw [ensureLog_eq, findLog_eq] at hensure ⊢
  show (verdict (logs (block.header.digest ++ block.postDigests))).map _ = _
  rw [logs_append, logs_seals hseals, List.append_nil]
  exact hensure

variable [DecidableEq Hash] (hashing : Hashing)

theorem extractable_of_ensureLog {header : SubstrateHeader Hash}
    (h : ensureLog header.digest = .ok ()) : Extractable hashing header := by
  obtain ⟨log, hlog⟩ := (ensureLog_ok_iff _).1 h
  refine ⟨log, hlog, fun outcome db => ?_⟩
  unfold syncBlock
  rw [hlog]

/-- **One log for each header.** On every digest the four functions answer by the logs that its items
carry, and `sync_block` finds the hashes in every header that `import_block` has accepted, as it was
imported and as it is stored with its seals. -/
theorem one_log_per_header (inner : BlockImportParams Hash → Except ConsensusError R) :
    (∀ digest, OneLog digest) ∧
      ∀ block r, importBlock inner block = .ok r →
        Extractable hashing block.header ∧
          ∀ hash, (∀ item ∈ block.postDigests, ∃ engine data, item = .seal engine data) →
            Extractable hashing (block.postHeader hash) :=
  ⟨oneLog, fun _ _ h => ⟨extractable_of_ensureLog hashing (ensureLog_of_importBlock h),
    fun hash hseals => extractable_of_ensureLog hashing (ensureLog_postHeader h hash hseals)⟩⟩

/-- The block `2` of the line, with a seal, as an import that accepts everything takes it. -/
theorem one_log_per_header_line :
    Extractable numberHashing
      (BlockImportParams.postHeader ⟨lineChain.header 2, [.seal shadowsEngineId [1]]⟩ 2) :=
  ((one_log_per_header (R := Unit) numberHashing fun _ => .ok ()).2
    ⟨lineChain.header 2, [.seal shadowsEngineId [1]]⟩ () rfl).2 2 fun _ hitem =>
      ⟨_, _, List.mem_singleton.1 hitem⟩

end Shadows.MappingSync
