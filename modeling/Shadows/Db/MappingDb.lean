import Shadows.Primitives.Types

/-!
# The mapping database

`fc_db`: the column that holds the current syncing tips and the three mapping columns. A column maps
the value whose encoding is the key to the raw entry stored there. A `sp_database` transaction is a
list of changes, committed as a whole or not at all; whether a commit succeeds is up to the
database, so the writing functions take its outcome.
-/

namespace Shadows.Db

variable {Hash : Type} [DecidableEq Hash]

structure TransactionMetadata (Hash : Type) where
  blockHash : Hash
  ethereumBlockHash : H256
  ethereumIndex : UInt32
  deriving DecidableEq

structure MappingCommitment (Hash : Type) where
  blockHash : Hash
  ethereumBlockHash : H256
  ethereumTransactionHashes : List H256

/-- The columns of the database. -/
structure Database (Hash : Type) where
  /-- The entry `CURRENT_SYNCING_TIPS` of the column `META`. -/
  currentSyncingTips : Option (Raw (List Hash))
  /-- The column `BLOCK_MAPPING`. -/
  blockMapping : H256 → Option (Raw (List Hash))
  /-- The column `TRANSACTION_MAPPING`. -/
  transactionMapping : H256 → Option (Raw (List (TransactionMetadata Hash)))
  /-- The column `SYNCED_MAPPING`. -/
  syncedMapping : Hash → Option (Raw Bool)

def Database.empty : Database Hash where
  currentSyncingTips := none
  blockMapping := fun _ => none
  transactionMapping := fun _ => none
  syncedMapping := fun _ => none

/-- One `set` of a transaction. -/
inductive Change (Hash : Type) where
  | syncingTips (tips : List Hash)
  | block (key : H256) (hashes : List Hash)
  | transaction (key : H256) (metadata : List (TransactionMetadata Hash))
  | synced (key : Hash) (value : Bool)

namespace Database

def set (db : Database Hash) : Change Hash → Database Hash
  | .syncingTips tips => { db with currentSyncingTips := some (.encoded tips) }
  | .block key hashes =>
    { db with blockMapping := Function.update db.blockMapping key (some (.encoded hashes)) }
  | .transaction key metadata =>
    { db with
      transactionMapping := Function.update db.transactionMapping key (some (.encoded metadata)) }
  | .synced key value =>
    { db with syncedMapping := Function.update db.syncedMapping key (some (.encoded value)) }

/-- `Database::commit`: all changes in order if the database accepts them, else none of them. -/
def commit (outcome : Except String Unit) (changes : List (Change Hash)) (db : Database Hash) :
    Except String Unit × Database Hash :=
  match outcome with
  | .ok () => (.ok (), changes.foldl set db)
  | .error e => (.error e, db)

end Database

/-! ## `MetaDb` -/

namespace MetaDb

def currentSyncingTips (db : Database Hash) : Except String (List Hash) :=
  match db.currentSyncingTips with
  | some raw => raw.decode
  | none => .ok []

def writeCurrentSyncingTips (outcome : Except String Unit) (tips : List Hash)
    (db : Database Hash) : Except String Unit × Database Hash :=
  db.commit outcome [.syncingTips tips]

end MetaDb

/-! ## `MappingDb` -/

namespace MappingDb

def isSynced (db : Database Hash) (blockHash : Hash) : Except String Bool :=
  match db.syncedMapping blockHash with
  | some raw => raw.decode
  | none => .ok false

def blockHashes (db : Database Hash) (ethereumBlockHash : H256) : Except String (List Hash) :=
  match db.blockMapping ethereumBlockHash with
  | some raw => raw.decode
  | none => .ok []

def transactionMetadata (db : Database Hash) (ethereumTransactionHash : H256) :
    Except String (List (TransactionMetadata Hash)) :=
  match db.transactionMapping ethereumTransactionHash with
  | some raw => raw.decode
  | none => .ok []

/-- The loop of `write_hashes` over the transaction hashes from position `i` on. Every entry is read
from the database, not from the transaction being put together. -/
def metadataChanges (db : Database Hash) (commitment : MappingCommitment Hash) :
    ℕ → List H256 → Except String (List (Change Hash))
  | _, [] => .ok []
  | i, ethereumTransactionHash :: rest =>
    match transactionMetadata db ethereumTransactionHash with
    | .error e => .error e
    | .ok metadata =>
      match metadataChanges db commitment (i + 1) rest with
      | .error e => .error e
      | .ok changes =>
        .ok (.transaction ethereumTransactionHash
          (metadata ++ [⟨commitment.blockHash, commitment.ethereumBlockHash, UInt32.ofNat i⟩])
            :: changes)

def writeHashes (outcome : Except String Unit) (commitment : MappingCommitment Hash)
    (db : Database Hash) : Except String Unit × Database Hash :=
  match blockHashes db commitment.ethereumBlockHash with
  | .error e => (.error e, db)
  | .ok hashes =>
    match metadataChanges db commitment 0 commitment.ethereumTransactionHashes with
    | .error e => (.error e, db)
    | .ok changes =>
      db.commit outcome
        (.block commitment.ethereumBlockHash (hashes ++ [commitment.blockHash]) ::
          changes ++ [.synced commitment.blockHash true])

end MappingDb

end Shadows.Db
