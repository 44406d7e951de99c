import Shadows.MappingSync.SyncOneBlock

/-!
# Block import

`fc_consensus`: the block import of the node refuses a header without a single Ethereum log, and hands
everything else to the import inside it.
-/

namespace Shadows.MappingSync

open Db Consensus

/-- `fc_consensus::Error`, as far as `import_block` returns it. -/
inductive ImportError where
  | multipleRuntimeLogs
  | noRuntimeLog
  deriving DecidableEq

namespace ImportError

/-- `From<FindLogError>`. -/
def ofFindLogError : FindLogError → ImportError
  | .notFound => .noRuntimeLog
  | .multipleLogs => .multipleRuntimeLogs

/-- `to_string`. -/
def text : ImportError → String
  | .multipleRuntimeLogs => "Multiple runtime Ethereum blocks, rejecting!"
  | .noRuntimeLog => "Runtime Ethereum block not found, rejecting!"

end ImportError

/-- `sp_consensus::Error`: the case of the check, or what the import inside has failed with. -/
inductive ConsensusError where
  | clientImport (message : String)
  | inner (message : String)
  deriving DecidableEq

/-- `BlockImportParams`, as far as a digest is read from it: the header as the runtime has left it,
and the items that the consensus engine has put behind its digest. -/
structure BlockImportParams (Hash : Type) where
  header : SubstrateHeader Hash
  postDigests : Digest

variable {Hash R : Type}

/-- The header that the client stores, under its own hash. -/
def BlockImportParams.postHeader (block : BlockImportParams Hash) (hash : Hash) :
    SubstrateHeader Hash :=
  { block.header with hash := hash, digest := block.header.digest ++ block.postDigests }

def importBlock (inner : BlockImportParams Hash → Except ConsensusError R)
    (block : BlockImportParams Hash) : Except ConsensusError R :=
  match ensureLog block.header.digest with
  | .error e => .error (.clientImport (ImportError.ofFindLogError e).text)
  | .ok () => inner block

variable [DecidableEq Hash]

/-- `sync_block` finds a log in the header, and goes on to write its hashes. -/
def Extractable (hashing : Hashing) (header : SubstrateHeader Hash) : Prop :=
  ∃ log, findLog header.digest = .ok log ∧ ∀ outcome db,
    syncBlock hashing outcome header db = MappingDb.writeHashes outcome
      ⟨header.hash, (log.intoHashes hashing).blockHash, (log.intoHashes hashing).transactionHashes⟩
      db

end Shadows.MappingSync
