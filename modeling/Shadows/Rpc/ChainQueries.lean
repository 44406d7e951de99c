import Shadows.Rpc.RuntimeChain

/-!
# Queries about the blocks of a chain

A client gets at a block by its hash or by its number, and at its transactions with the block or one by
one. From the parent hash in a block it can go on to the block before.
-/

namespace Shadows.Rpc

open Db MappingSync Ethereum

variable {Hash W : Type}

section Methods

variable [DecidableEq Hash] (codec : BlockCodec) (api : BlockApi Hash)

/-- `block_by_hash`, which has no result where it panics. -/
def blockByHash (hash : H256) (full : Bool) : Option (Except RpcError (Option (Rich RpcBlock))) :=
  match loadHash api.client api.backend hash with
  | .error err => some (.error (.internal err))
  | .ok none => some (.ok none)
  | .ok (some id) =>
    match api.currentBlock (.hash id), api.currentTransactionStatuses (.hash id) with
    | some block, some statuses =>
      (richBlockBuild codec block (statuses.map some) (some hash) full).map fun rich => .ok (some rich)
    | _, _ => some (.ok none)

/-- `U256::from` of a length. -/
def transactionCountOf (block : Block) : U256 := .ofU64 (.ofNat block.transactions.length)

def blockTransactionCountByHash (hash : H256) : Except RpcError (Option U256) :=
  match loadHash api.client api.backend hash with
  | .error err => .error (.internal err)
  | .ok none => .ok none
  | .ok (some id) => .ok ((api.currentBlock (.hash id)).map transactionCountOf)

/-- `block_transaction_count_by_number`, which does not fail, as `native_block_id` does not. -/
def blockTransactionCountByNumber (number : BlockNumber) : Option U256 :=
  (api.nativeBlockId (some number)).bind fun id => (api.currentBlock id).map transactionCountOf

/-- `block_number`. -/
def blockNumber (bestNumber : UInt32) : U256 := .ofU32 bestNumber

/-- A client that asks for a block by its hash, and then `k` times for the parent of the last block. -/
def walkBack : ℕ → H256 → Option (Except RpcError (Option (Rich RpcBlock)))
  | 0, hash => blockByHash codec api hash false
  | k + 1, hash =>
    match blockByHash codec api hash false with
    | some (.ok (some rich)) => walkBack k rich.inner.parentHash
    | answer => answer

end Methods

/-! ## What is read by number -/

/-- By number, the node reads the states of the blocks on the branch of its best block. -/
structure BlockApi.ReadsNumbers (api : BlockApi Hash) (chain : Chain Hash) (best : Hash)
    (state : Hash → State W) : Prop where
  currentBlock : ∀ b, chain.lineage.OnBranch best b →
    api.currentBlock (.number (chain.header b).number) = (state b).currentBlock
  currentTransactionStatuses : ∀ b, chain.lineage.OnBranch best b →
    api.currentTransactionStatuses (.number (chain.header b).number) =
      (state b).currentTransactionStatuses

/-- The transactions of a block, as they are shown one by one. -/
structure ShowsTransactions [DecidableEq Hash] (codec : BlockCodec) (api : BlockApi Hash) (hash : H256)
    (number : BlockNumber) (transactions : List RpcTransaction) : Prop where
  full : ∃ rich : Rich RpcBlock, blockByHash codec api hash true = some (.ok (some rich)) ∧
    blockByNumber codec api number true = some (some rich) ∧
    rich.inner.transactions = .full transactions
  hashes : ∃ rich : Rich RpcBlock, blockByHash codec api hash false = some (.ok (some rich)) ∧
    blockByNumber codec api number false = some (some rich) ∧
    rich.inner.transactions = .hashes (transactions.map RpcTransaction.hash)
  byHash : ∀ (index : Index) (transaction : RpcTransaction),
    transactions[index.value.toNat]? = some transaction →
      transactionByBlockHashAndIndex codec api hash index = some (.ok (some transaction))
  byNumber : ∀ (index : Index) (transaction : RpcTransaction),
    transactions[index.value.toNat]? = some transaction →
      transactionByBlockNumberAndIndex codec api number index = some (some transaction)
  countByHash : blockTransactionCountByHash api hash =
    .ok (some (.ofU64 (.ofNat transactions.length)))
  countByNumber : blockTransactionCountByNumber api number =
    some (.ofU64 (.ofNat transactions.length))

/-- A receipt tells the outcome of the transaction at a position of a block, which the runner has executed
for `source`. -/
structure ReceiptTells (cfg : Config W) (block : Block) (receipts : List Receipt) (i : ℕ)
    (transaction : Transaction) (source : H160) (outcome : Outcome) (answer : TransactionReceipt) :
    Prop where
  transactionHash : answer.transactionHash = some (cfg.hashing.transactionHash transaction)
  transactionIndex : answer.transactionIndex = some (.ofU32 (.ofNat i))
  blockHash : answer.blockHash = some (cfg.hashing.headerHash block.header)
  blockNumber : answer.blockNumber = some block.header.number
  signer : answer.from = some source
  target : answer.to = transaction.action.target
  created : answer.contractAddress = outcome.created
  gasUsed : answer.gasUsed = some outcome.usedGas
  cumulativeGasUsed : answer.cumulativeGasUsed.val = gasOf (receipts.take (i + 1))
  logs : answer.logs.map (fun log => Shadows.Log.mk log.address log.topics log.data) = outcome.logs
  statusCode : answer.statusCode = some (if outcome.exitReason = .succeed then 1 else 0)

end Shadows.Rpc
