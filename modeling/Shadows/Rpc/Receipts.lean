import Shadows.Rpc.Logs
import Shadows.Rpc.Lookup
import Shadows.Rpc.Overrides
import Shadows.Ethereum.BlockWeights
import Mathlib.Data.UInt

/-!
# Receipts of transactions

`transaction_receipt` looks the transaction up and puts its receipt together from the stored block,
statuses and receipts. It sums in 32 bits, which wrap around; the method has no result where it
panics.
-/

namespace Shadows

/-- `as_u32`, which panics if the value does not fit. -/
def U256.asU32 (a : U256) : Option UInt32 := if a.val < 2 ^ 32 then some (.ofNat a.val) else none

/-- `to_low_u64_be`. -/
def H256.toLowU64Be (h : H256) : UInt64 := .ofNat h.toNat

end Shadows

namespace Shadows.Rpc

open Db

/-- The `Receipt` of the RPC. -/
structure TransactionReceipt where
  transactionHash : Option H256
  transactionIndex : Option U256
  blockHash : Option H256
  «from» : Option H160
  «to» : Option H160
  blockNumber : Option U256
  cumulativeGasUsed : U256
  gasUsed : Option U256
  contractAddress : Option H160
  logs : List Log
  stateRoot : Option H256
  logsBloom : Bloom
  statusCode : Option UInt64
  deriving DecidableEq, Inhabited

section Build

variable (hashing : Hashing)

/-- `cumulative_gas`: every value is narrowed before it is added. -/
def cumulativeGas (cumulativeReceipts : List Receipt) : Option UInt32 :=
  (cumulativeReceipts.mapM fun r : Receipt => r.usedGas.asU32).map List.sum

/-- `pre_receipts_log_index`: the number of logs before the last of the receipts. -/
def preReceiptsLogIndex (cumulativeReceipts : List Receipt) : Option UInt32 :=
  if 0 < cumulativeReceipts.length then
    some ((cumulativeReceipts.take (cumulativeReceipts.length - 1)).map fun r : Receipt =>
      UInt32.ofNat r.logs.length).sum
  else none

/-- The log `i` of a receipt. -/
def receiptLog (block : Block) (status : TransactionStatus) (preReceiptsLogIndex : Option UInt32)
    (i : ℕ) (log : Shadows.Log) : Log where
  address := log.address
  topics := log.topics
  data := log.data
  blockHash := some (hashing.headerHash block.header)
  blockNumber := some block.header.number
  transactionHash := some status.transactionHash
  transactionIndex := some (.ofU32 status.transactionIndex)
  logIndex := some (.ofU32 (preReceiptsLogIndex.getD 0 + .ofNat i))
  transactionLogIndex := some (.ofU64 (.ofNat i))
  removed := false

/-- The answer of `transaction_receipt` from the data of the block. An index beyond the receipts or
the statuses panics. -/
def receiptBuild (block : Block) (statuses : List TransactionStatus) (receipts : List Receipt)
    (index : ℕ) : Option TransactionReceipt :=
  receipts[index]?.bind fun receipt =>
    statuses[index]?.bind fun status =>
      let cumulativeReceipts := receipts.take (status.transactionIndex + 1).toNat
      (cumulativeGas cumulativeReceipts).map fun cumulativeGas =>
        { transactionHash := some status.transactionHash
          transactionIndex := some (.ofU32 status.transactionIndex)
          blockHash := some (hashing.headerHash block.header)
          «from» := some status.from
          «to» := status.to
          blockNumber := some block.header.number
          cumulativeGasUsed := .ofU32 cumulativeGas
          gasUsed := some receipt.usedGas
          contractAddress := status.contractAddress
          logs := receipt.logs.mapIdx
            (receiptLog hashing block status (preReceiptsLogIndex cumulativeReceipts))
          stateRoot := none
          logsBloom := receipt.logsBloom
          statusCode := some receipt.stateRoot.toLowU64Be }

end Build

section Api

variable {Hash : Type}

/-- `StorageOverride`, as far as it reads Ethereum blocks. -/
structure BlockOverride (Hash : Type) where
  currentBlock : Hash → Option Block
  currentReceipts : Hash → Option (List Receipt)
  currentTransactionStatuses : Hash → Option (List TransactionStatus)

/-- What an `EthApi` looks transactions and blocks up in. -/
structure EthApi (Hash : Type) where
  client : HeaderBackend Hash
  backend : Database Hash
  onchainStorageSchema : Hash → EthereumStorageSchema
  overrides : EthereumStorageSchema → Option (BlockOverride Hash)
  fallback : BlockOverride Hash

namespace EthApi

/-- The override for the schema of a block. -/
def handler (api : EthApi Hash) (id : Hash) : BlockOverride Hash :=
  (api.overrides (api.onchainStorageSchema id)).getD api.fallback

/-- The second half of `transaction_receipt`, which reads the block `id`. -/
def receiptAt (api : EthApi Hash) (hashing : Hashing) (id : Hash) (index : ℕ) :
    Option (Option TransactionReceipt) :=
  match (api.handler id).currentBlock id, (api.handler id).currentTransactionStatuses id,
    (api.handler id).currentReceipts id with
  | some block, some statuses, some receipts =>
    (receiptBuild hashing block statuses receipts index).map some
  | _, _, _ => some none

variable [DecidableEq Hash]

def transactionReceipt (api : EthApi Hash) (hashing : Hashing) (hash : H256) :
    Option (Except RpcError (Option TransactionReceipt)) :=
  match locateTransaction api.client api.backend hash with
  | .error err => some (.error err)
  | .ok none => some (.ok none)
  | .ok (some (id, index)) => (api.receiptAt hashing id index.toNat).map .ok

/-- The handler of a block reads the block, its statuses and its receipts. -/
structure Reads (api : EthApi Hash) (id : Hash) (block : Block)
    (statuses : List TransactionStatus) (receipts : List Receipt) : Prop where
  currentBlock : (api.handler id).currentBlock id = some block
  currentTransactionStatuses : (api.handler id).currentTransactionStatuses id = some statuses
  currentReceipts : (api.handler id).currentReceipts id = some receipts

end EthApi

end Api

/-! ## Sums over receipts -/

/-- The gas that the receipts say has been used. -/
def gasOf (receipts : List Receipt) : ℕ := (receipts.map fun r => r.usedGas.val).sum

/-- The number of logs in the receipts. -/
def logsOf (receipts : List Receipt) : ℕ := (receipts.map fun r => r.logs.length).sum

/-- A block with its receipts and statuses, as `store_block` stores them. -/
structure StoredBlock (hashing : Hashing) (block : Block) (receipts : List Receipt)
    (statuses : List TransactionStatus) : Prop extends
    BlockAligned hashing block receipts statuses where
  gasUsed : block.header.gasUsed.val = gasOf receipts

/-! ## A node with one block -/

section SoleBlock

open Ethereum

/-- The API of a node that has written the hashes of one block, which has left behind the state. -/
def soleBlockApi {W : Type} (hashing : Hashing) (st : State W) : EthApi Unit where
  client :=
    { number := fun _ => .ok (some st.blockNumber)
      headerByNumber := fun n =>
        if n = st.blockNumber then .ok (some ⟨(), (), n, st.digest⟩) else .ok none }
  backend :=
    match st.currentBlock with
    | some block =>
      (MappingDb.writeHashes (.ok ()) ⟨(), hashing.headerHash block.header,
        block.transactions.map hashing.transactionHash⟩ Database.empty).2
    | none => Database.empty
  onchainStorageSchema := fun _ => .undefined
  overrides := fun _ => none
  fallback :=
    { currentBlock := fun _ => st.currentBlock
      currentReceipts := fun _ => st.currentReceipts
      currentTransactionStatuses := fun _ => st.currentTransactionStatuses }

/-- The state after a block with two calls, each of which has emitted a log. -/
def threeCallsState : State ℕ :=
  ((runBlock countingConfig threeCalls countingGenesis).map fun p => p.2).getD countingGenesis

/-- A call with the given nonce that uses up its gas limit. -/
def callWithGas (nonce gasLimit : U256) : Transaction :=
  { callWithNonce nonce with gasLimit := gasLimit }

/-- Two calls with three thousand million units of gas each, and one with five thousand million. -/
def heavyBlock : BlockInput ℕ :=
  ⟨[], 6, [.transact (callWithGas 0 3000000000), .transact (callWithGas 1 3000000000),
    .transact (callWithGas 2 5000000000)]⟩

def heavyState : State ℕ :=
  ((runBlock spendingConfig heavyBlock spendingGenesis).map fun p => p.2).getD spendingGenesis

end SoleBlock

end Shadows.Rpc
