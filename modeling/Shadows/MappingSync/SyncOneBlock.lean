import Shadows.Consensus.Digest
import Shadows.Db.MappingDb

/-!
# Mapping sync

`fc_mapping_sync`: the worker that writes, for every block of the chain, the Ethereum hashes found
in its digest into the mapping database, walking back from the leaves of the block tree.
-/

namespace Shadows.MappingSync

open Db Consensus

variable {Hash : Type} [DecidableEq Hash]

/-- The header of a Substrate block, together with its `hash()`. -/
structure SubstrateHeader (Hash : Type) where
  hash : Hash
  parentHash : Hash
  number : UInt32
  digest : Digest

/-- What the sync asks the client and the substrate backend for. -/
structure Client (Hash : Type) where
  /-- `substrate_backend.leaves()`. -/
  leaves : Except String (List Hash)
  /-- `substrate_backend.header(BlockId::Hash(hash))`. -/
  header : Hash → Except String (Option (SubstrateHeader Hash))
  /-- `client.runtime_api().current_block(&BlockId::Hash(hash))`. -/
  currentBlock : Hash → Except String (Option Block)

/-- Whether the two commits of a step succeed. -/
structure Commits where
  /-- The commit of `write_hashes`. -/
  hashes : Except String Unit
  /-- The commit of `write_current_syncing_tips`. -/
  tips : Except String Unit

/-- `format!("{:?}", e)` of a `FindLogError`. -/
def findLogErrorText : FindLogError → String
  | .notFound => "NotFound"
  | .multipleLogs => "MultipleLogs"

def syncBlock (hashing : Hashing) (outcome : Except String Unit) (header : SubstrateHeader Hash)
    (db : Database Hash) : Except String Unit × Database Hash :=
  match findLog header.digest with
  | .error e => (.error (findLogErrorText e), db)
  | .ok log =>
    let postHashes := log.intoHashes hashing
    MappingDb.writeHashes outcome
      ⟨header.hash, postHashes.blockHash, postHashes.transactionHashes⟩ db

def syncGenesisBlock (hashing : Hashing) (client : Client Hash) (outcome : Except String Unit)
    (header : SubstrateHeader Hash) (db : Database Hash) : Except String Unit × Database Hash :=
  match client.currentBlock header.hash with
  | .error e => (.error e, db)
  | .ok none => (.error "Ethereum genesis block not found", db)
  | .ok (some block) =>
    MappingDb.writeHashes outcome ⟨header.hash, hashing.headerHash block.header, []⟩ db

/-- The loop `while let Some(checking_tip) = current_syncing_tips.pop()`, the stack given from its
top: the first tip that is not synced, and what is left below it. -/
def popUnsynced (db : Database Hash) : List Hash → Except String (Option Hash × List Hash)
  | [] => .ok (none, [])
  | checkingTip :: below =>
    match MappingDb.isSynced db checkingTip with
    | .error e => .error e
    | .ok true => popUnsynced db below
    | .ok false => .ok (some checkingTip, below)

/-- What the first half of `sync_one_block` settles on. -/
inductive Selection (Hash : Type) where
  /-- There is neither a tip nor a leaf. -/
  | nothing
  /-- Every tip is synced. -/
  | exhausted
  /-- A tip to sync, and the tips left. -/
  | operate (operatingTip : Hash) (tips : List Hash)

/-- The first half of `sync_one_block`: the persisted tips, or the leaves if there are none, and the
last of them that is not synced. The end of the vector is the top of the stack. -/
def selectTip (client : Client Hash) (db : Database Hash) : Except String (Selection Hash) :=
  match MetaDb.currentSyncingTips db with
  | .error e => .error e
  | .ok tips =>
    match if tips.isEmpty then client.leaves else .ok tips with
    | .error e => .error e
    | .ok current =>
      if current.isEmpty then .ok .nothing
      else
        match popUnsynced db current.reverse with
        | .error e => .error e
        | .ok (none, _) => .ok .exhausted
        | .ok (some operatingTip, below) => .ok (.operate operatingTip below.reverse)

/-- The commits of `sync_one_block` once the operating tip is known: the mapping of the block, and
then the tips. -/
def operate (hashing : Hashing) (client : Client Hash) (commits : Commits) (operatingTip : Hash)
    (tips : List Hash) (db : Database Hash) : Except String Bool × Database Hash :=
  match client.header operatingTip with
  | .error e => (.error e, db)
  | .ok none => (.error "Header not found", db)
  | .ok (some operatingHeader) =>
    if operatingHeader.number = 0 then
      match syncGenesisBlock hashing client commits.hashes operatingHeader db with
      | (.error e, db) => (.error e, db)
      | (.ok (), db) =>
        match MetaDb.writeCurrentSyncingTips commits.tips tips db with
        | (.error e, db) => (.error e, db)
        | (.ok (), db) => (.ok true, db)
    else
      match syncBlock hashing commits.hashes operatingHeader db with
      | (.error e, db) => (.error e, db)
      | (.ok (), db) =>
        match MetaDb.writeCurrentSyncingTips commits.tips (tips ++ [operatingHeader.parentHash])
          db with
        | (.error e, db) => (.error e, db)
        | (.ok (), db) => (.ok true, db)

def syncOneBlock (hashing : Hashing) (client : Client Hash) (commits : Commits)
    (db : Database Hash) : Except String Bool × Database Hash :=
  match selectTip client db with
  | .error e => (.error e, db)
  | .ok .nothing => (.ok false, db)
  | .ok .exhausted =>
    match MetaDb.writeCurrentSyncingTips commits.tips [] db with
    | (.error e, db) => (.error e, db)
    | (.ok (), db) => (.ok false, db)
  | .ok (.operate operatingTip tips) => operate hashing client commits operatingTip tips db

end Shadows.MappingSync
