import Shadows.MappingSync.Chain

/-!
# `sync_blocks`

The worker calls `sync_one_block` in batches. The loop of a batch folds the calls with `||`, so that
it makes no further call once one of them has synced a block.
-/

namespace Shadows.MappingSync

open Db Consensus

variable {Hash : Type} [DecidableEq Hash]

/-- What one iteration of the loop meets: the answers of the client, and whether the commits
succeed. -/
structure Iteration (Hash : Type) where
  client : Client Hash
  commits : Commits

/-- The loop of `sync_blocks`, with one entry for each iteration that is left. -/
def syncBlocksLoop (hashing : Hashing) : List (Iteration Hash) → Bool → Database Hash →
    Except String Bool × Database Hash
  | [], syncedAny, db => (.ok syncedAny, db)
  | it :: its, syncedAny, db =>
    -- `synced_any || sync_one_block(..)?`
    if syncedAny then syncBlocksLoop hashing its true db
    else
      match syncOneBlock hashing it.client it.commits db with
      | (.error e, db) => (.error e, db)
      | (.ok synced, db) => syncBlocksLoop hashing its synced db

/-- `sync_blocks`; the limit is the number of iterations. -/
def syncBlocks (hashing : Hashing) (its : List (Iteration Hash)) (db : Database Hash) :
    Except String Bool × Database Hash :=
  syncBlocksLoop hashing its false db

/-! ## Call by call -/

/-- Calls of `sync_one_block` in succession, up to the first error: what they return, and the
database after them. -/
def syncOneByOne (hashing : Hashing) : List (Iteration Hash) → Database Hash →
    Except String (List Bool) × Database Hash
  | [], db => (.ok [], db)
  | it :: its, db =>
    match syncOneBlock hashing it.client it.commits db with
    | (.error e, db) => (.error e, db)
    | (.ok synced, db) =>
      let (results, db) := syncOneByOne hashing its db
      (results.map (synced :: ·), db)

/-- The batch does what the calls in succession do, and says whether one of them synced a block. -/
def BatchAgrees (hashing : Hashing) (its : List (Iteration Hash)) (db : Database Hash) : Prop :=
  syncBlocks hashing its db =
    ((syncOneByOne hashing its db).1.map fun results => decide (true ∈ results),
      (syncOneByOne hashing its db).2)

/-! ## What a call finds -/

/-- The tips that a call pops from, the last one first: the persisted ones, or the leaves. -/
def PopsFrom (client : Client Hash) (db : Database Hash) (stack : List Hash) : Prop :=
  ∃ tips, MetaDb.currentSyncingTips db = .ok tips ∧
    (if tips.isEmpty then client.leaves else .ok tips) = .ok stack

/-- The call finds nothing to sync, and can persist that there are no tips. -/
def Idle (it : Iteration Hash) (db : Database Hash) : Prop :=
  ∃ stack, PopsFrom it.client db stack ∧ (∀ b ∈ stack, Synced db b) ∧
    (stack = [] ∨ it.commits.tips = .ok ())

/-- What the genesis state, or the digest of a block, says about its Ethereum hashes. -/
def readCommitment (hashing : Hashing) (client : Client Hash) (header : SubstrateHeader Hash) :
    Option (MappingCommitment Hash) :=
  if header.number = 0 then
    match client.currentBlock header.hash with
    | .ok (some block) => some ⟨header.hash, hashing.headerHash block.header, []⟩
    | _ => none
  else
    match findLog header.digest with
    | .ok log => some ⟨header.hash, (log.intoHashes hashing).blockHash,
        (log.intoHashes hashing).transactionHashes⟩
    | .error _ => none

/-- The entries that `write_hashes` extends can be decoded. -/
def Extends (commitment : MappingCommitment Hash) (db : Database Hash) : Prop :=
  (∃ hashes, MappingDb.blockHashes db commitment.ethereumBlockHash = .ok hashes) ∧
    ∀ t ∈ commitment.ethereumTransactionHashes, ∃ metadata,
      MappingDb.transactionMetadata db t = .ok metadata

/-- The call pops a block that is not synced, and nothing keeps it from syncing it. -/
def SyncsBlock (hashing : Hashing) (it : Iteration Hash) (db : Database Hash) : Prop :=
  ∃ rest b dropped header commitment, PopsFrom it.client db (rest ++ b :: dropped) ∧
    (∀ x ∈ dropped, Synced db x) ∧ MappingDb.isSynced db b = .ok false ∧
    it.client.header b = .ok (some header) ∧
    readCommitment hashing it.client header = some commitment ∧ Extends commitment db ∧
    it.commits.hashes = .ok () ∧ it.commits.tips = .ok ()

/-- The tips that are left after a block of the header has been synced. -/
def tipsLeft (header : SubstrateHeader Hash) (tips : List Hash) : List Hash :=
  if header.number = 0 then tips else tips ++ [header.parentHash]

/-- The number of blocks mapped to an Ethereum block hash. -/
def mappedBlocks (db : Database Hash) (key : H256) : ℕ :=
  match MappingDb.blockHashes db key with
  | .ok hashes => hashes.length
  | .error _ => 0

/-- Calls that have one block to sync between them: those before it find nothing to sync, and once
it is synced no tips are left and every leaf is synced. -/
def OneToSync (hashing : Hashing) : List (Iteration Hash) → Database Hash → Prop
  | [], _ => True
  | it :: its, db =>
    let db' := (syncOneBlock hashing it.client it.commits db).2
    (Idle it db → OneToSync hashing its db') ∧
      (SyncsBlock hashing it db →
        ∀ it' ∈ its, MetaDb.currentSyncingTips db' = .ok [] ∧ Idle it' db')

/-! ## Two calls on three blocks -/

/-- Two iterations on the chain of three blocks, without errors. -/
def lineIterations : List (Iteration (Fin 3)) := [⟨lineClient, .succeed⟩, ⟨lineClient, .succeed⟩]

end Shadows.MappingSync
