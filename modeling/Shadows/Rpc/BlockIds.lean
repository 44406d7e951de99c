import Shadows.Rpc.Receipts
import Shadows.Rpc.FilterPool

/-!
# Block parameters

The methods of the `eth` module take a block number or a tag, which `native_block_id` turns into an id
of the client.
-/

namespace Shadows.Rpc

open Db

variable {Hash : Type}

/-- `BlockId`. -/
inductive BlockId (Hash : Type) where
  | hash (hash : Hash)
  | number (number : UInt32)
  deriving DecidableEq

/-- What an `EthApi` looks blocks up in, if it takes their ids. -/
structure ChainApi (Hash : Type) where
  client : HeaderBackend Hash
  backend : Database Hash
  /-- `client.info().best_hash`. -/
  bestHash : Hash

namespace ChainApi

variable [DecidableEq Hash]

/-- `native_block_id`, which never fails: an error of `load_hash` is read as no block. -/
def nativeBlockId (chain : ChainApi Hash) (number : Option BlockNumber) : Option (BlockId Hash) :=
  match number.getD .latest with
  | .hash hash _ =>
    match loadHash chain.client chain.backend hash with
    | .ok id => id.map .hash
    | .error _ => none
  | .num number => some (.number (saturatedU32 number))
  | .latest => some (.hash chain.bestHash)
  | .earliest => some (.number 0)
  | .pending => none

end ChainApi

/-- What an `EthApi` reads blocks with, in the states of their ids. -/
structure BlockApi (Hash : Type) extends ChainApi Hash where
  onchainStorageSchema : BlockId Hash → EthereumStorageSchema
  overrides : EthereumStorageSchema → Option (BlockOverride (BlockId Hash))
  fallback : BlockOverride (BlockId Hash)

namespace BlockApi

/-- The override for the schema of a block. -/
def handler (api : BlockApi Hash) (id : BlockId Hash) : BlockOverride (BlockId Hash) :=
  (api.overrides (api.onchainStorageSchema id)).getD api.fallback

def currentBlock (api : BlockApi Hash) (id : BlockId Hash) : Option Block :=
  (api.handler id).currentBlock id

def currentTransactionStatuses (api : BlockApi Hash) (id : BlockId Hash) :
    Option (List TransactionStatus) :=
  (api.handler id).currentTransactionStatuses id

end BlockApi

/-! ## A node with one block -/

/-- What is read in the state of the block, and of no other. -/
def readAt {α W : Type} (st : Ethereum.State W) (value : Option α) : BlockId Unit → Option α
  | .hash () => value
  | .number n => if n = st.blockNumber then value else none

/-- The API of a node that has written the hashes of one block, which has left behind the state. -/
def soleBlockReader {W : Type} (hashing : Hashing) (st : Ethereum.State W) : BlockApi Unit where
  client := (soleBlockApi hashing st).client
  backend := (soleBlockApi hashing st).backend
  bestHash := ()
  onchainStorageSchema := fun _ => .undefined
  overrides := fun _ => none
  fallback :=
    { currentBlock := readAt st st.currentBlock
      currentReceipts := readAt st st.currentReceipts
      currentTransactionStatuses := readAt st st.currentTransactionStatuses }

end Shadows.Rpc
