import Shadows.Rpc.Filters
import Shadows.Ethereum.Blocks

/-!
# The logs of a block

`logs_build` answers queries for logs from the statuses of blocks, `SubscriptionResult::logs` pushes
the logs of a new block from its receipts. The counters of both wrap around at 32 bits.
-/

namespace Shadows.Rpc

/-- The logs that a walk has kept so far, and its counters. -/
structure LogWalk where
  ret : List Log
  blockLogIndex : UInt32
  transactionLogIndex : UInt32

namespace LogWalk

/-- A walk that has kept `ret`, at the start of a block. -/
def enterBlock (ret : List Log) : LogWalk := ⟨ret, 0, 0⟩

/-- The walk after a log, which it keeps as `log` if it is added. -/
def advance (walk : LogWalk) (add : Bool) (log : Log) : LogWalk where
  ret := if add then walk.ret ++ [log] else walk.ret
  blockLogIndex := walk.blockLogIndex + 1
  transactionLogIndex := walk.transactionLogIndex + 1

/-- The walk over the logs of a transaction, which are added if `add` says so, as `place` makes
them. -/
def visitTransaction (walk : LogWalk) (add : Log → Option Bool)
    (place : LogWalk → Shadows.Log → Log) (logs : List Shadows.Log) : Option LogWalk :=
  logs.foldlM (fun (walk : LogWalk) ethereumLog =>
    (add (Log.unplaced ethereumLog)).map fun add => walk.advance add (place walk ethereumLog))
    { walk with transactionLogIndex := 0 }

end LogWalk

section Query

/-- Whether `logs_build` adds a log: the filter is asked only for what it specifies. -/
def addToQuery (filter : Filter) (params : FilteredParams) (log : Log) : Option Bool :=
  match filter.address, filter.topics with
  | some _, some _ => andAlso (params.filterAddress log) (params.filterTopics log)
  | some _, none => params.filterAddress log
  | none, some _ => params.filterTopics log
  | none, none => some true

variable (hashing : Hashing)

/-- The log in the answer of a query, at the counters of the walk. -/
def queriedLog (block : Block) (status : TransactionStatus) (walk : LogWalk)
    (ethereumLog : Shadows.Log) : Log :=
  { Log.unplaced ethereumLog with
    blockHash := some (hashing.headerHash block.header)
    blockNumber := some block.header.number
    transactionHash := some status.transactionHash
    transactionIndex := some (.ofU32 status.transactionIndex)
    logIndex := some (.ofU32 walk.blockLogIndex)
    transactionLogIndex := some (.ofU32 walk.transactionLogIndex) }

/-- `logs_build` on one block, after the blocks before have given `ret`. -/
def logsBuildBlock (filter : Filter) (params : FilteredParams) (ret : List Log)
    (block : Block) (statuses : List TransactionStatus) : Option (List Log) :=
  (statuses.foldlM (fun (walk : LogWalk) (status : TransactionStatus) =>
    walk.visitTransaction (addToQuery filter params) (queriedLog hashing block status) status.logs)
    (LogWalk.enterBlock ret)).map LogWalk.ret

def logsBuild (filter : Filter) (blocksAndStatuses : List (Block × List TransactionStatus)) :
    Option (List Log) :=
  blocksAndStatuses.foldlM (fun ret (entry : Block × List TransactionStatus) =>
    logsBuildBlock hashing filter (FilteredParams.new (some filter)) ret entry.1 entry.2) []

end Query

section Subscription

variable (hashing : Hashing)

/-- `add_log`, on the log as it is matched. -/
def addLog (blockHash : H256) (log : Log) (block : Block) (params : FilteredParams) : Option Bool :=
  match params.filter with
  | none => some true
  | some _ =>
    andAlso (params.filterBlockRange block.header.number.saturatedU64)
      (andAlso (params.filterBlockHash blockHash)
        (andAlso (params.filterAddress log) (params.filterTopics log)))

/-- The log that is pushed to subscribers, at the counters of the walk. -/
def pushedLog (block : Block) (transactionHash : Option H256) (walk : LogWalk)
    (ethereumLog : Shadows.Log) : Log :=
  { Log.unplaced ethereumLog with
    blockHash := some (hashing.headerHash block.header)
    blockNumber := some block.header.number
    transactionHash := transactionHash
    transactionIndex := some (.ofU32 walk.blockLogIndex)
    logIndex := some (.ofU32 walk.blockLogIndex)
    transactionLogIndex := some (.ofU32 walk.transactionLogIndex) }

/-- The hash of the transaction of a receipt with logs; a receipt without a transaction panics. -/
def receiptTransactionHash (block : Block) (receiptIndex : ℕ) (receipt : Receipt) :
    Option (Option H256) :=
  if 0 < receipt.logs.length then
    block.transactions[receiptIndex]?.map fun transaction =>
      some (hashing.transactionHash transaction)
  else some none

/-- `SubscriptionResult::logs`. -/
def subscriptionLogs (block : Block) (receipts : List Receipt) (params : FilteredParams) :
    Option (List Log) :=
  (receipts.zipIdx.foldlM (fun (walk : LogWalk) (entry : Receipt × ℕ) =>
    (receiptTransactionHash hashing block entry.2 entry.1).bind fun transactionHash =>
      walk.visitTransaction (fun log => addLog (hashing.headerHash block.header) log block params)
        (pushedLog hashing block transactionHash) entry.1.logs)
    (LogWalk.enterBlock [])).map LogWalk.ret

end Subscription

/-! ## Positions -/

/-- The statuses and receipts of a block, as `store_block` stores them. -/
structure BlockAligned (hashing : Hashing) (block : Block) (receipts : List Receipt)
    (statuses : List TransactionStatus) : Prop where
  receipts_length : receipts.length = block.transactions.length
  statuses_length : statuses.length = block.transactions.length
  aligned : ∀ (i : ℕ) (transaction : Transaction) (status : TransactionStatus) (receipt : Receipt),
    block.transactions[i]? = some transaction → statuses[i]? = some status →
      receipts[i]? = some receipt →
        status.transactionIndex = UInt32.ofNat i ∧
        status.transactionHash = hashing.transactionHash transaction ∧
        status.logs = receipt.logs

/-- A log with its transaction, and its number in the block and in the transaction. -/
structure LogPosition where
  transactionIndex : ℕ
  logIndex : ℕ
  transactionLogIndex : ℕ
  log : Shadows.Log

/-- The logs of one transaction, the first with the numbers `k` and `j`. -/
def transactionPositions (i : ℕ) : ℕ → ℕ → List Shadows.Log → List LogPosition
  | _, _, [] => []
  | k, j, log :: logs => ⟨i, k, j, log⟩ :: transactionPositions i (k + 1) (j + 1) logs

/-- The logs of the transactions from `i` on, the first with the number `k`. -/
def positions : ℕ → ℕ → List (List Shadows.Log) → List LogPosition
  | _, _, [] => []
  | i, k, logs :: rest => transactionPositions i k 0 logs ++ positions (i + 1) (k + logs.length) rest

/-- The log at a position, with a transaction index. -/
def LogPosition.placed (hashing : Hashing) (block : Block) (transactionIndex : UInt32)
    (position : LogPosition) : Log :=
  { Log.unplaced position.log with
    blockHash := some (hashing.headerHash block.header)
    blockNumber := some block.header.number
    transactionHash := block.transactions[position.transactionIndex]?.map hashing.transactionHash
    transactionIndex := some (.ofU32 transactionIndex)
    logIndex := some (.ofU32 (.ofNat position.logIndex))
    transactionLogIndex := some (.ofU32 (.ofNat position.transactionLogIndex)) }

/-- The filter matches a log by address and topics. -/
def Accepts (filter : Filter) (ethereumLog : Shadows.Log) : Prop :=
  (FilteredParams.new (some filter)).filterAddress (Log.unplaced ethereumLog) = some true ∧
    (FilteredParams.new (some filter)).filterTopics (Log.unplaced ethereumLog) = some true

instance (filter : Filter) : DecidablePred (Accepts filter) :=
  fun _ => inferInstanceAs (Decidable (_ ∧ _))

/-- The positions of the logs that the filter matches. -/
def acceptedPositions (filter : Filter) (positions : List LogPosition) : List LogPosition :=
  positions.filter fun position => Accepts filter position.log

/-- The log at a position, as a query answers with it. -/
def queriedAt (hashing : Hashing) (block : Block) (statuses : List TransactionStatus)
    (position : LogPosition) : Log :=
  match statuses[position.transactionIndex]? with
  | some status => queriedLog hashing block status
      ⟨[], .ofNat position.logIndex, .ofNat position.transactionLogIndex⟩ position.log
  | none => Log.unplaced position.log

/-- The logs that a query finds in a block. -/
def blockLogs (hashing : Hashing) (filter : Filter) (block : Block)
    (statuses : List TransactionStatus) : List Log :=
  (acceptedPositions filter (positions 0 0 (statuses.map TransactionStatus.logs))).map
    (queriedAt hashing block statuses)

/-! ## Two logs -/

/-- A filter for all logs. -/
def anyLog : Filter := ⟨none, none, none, none, none⟩

def emptyLog : Shadows.Log := ⟨0, [], []⟩

def twoLogsTransaction : Transaction := ⟨0, 0, 0, .create, 0, [], ⟨0, 0, 0⟩⟩

/-- A block with one transaction. -/
def twoLogsBlock : Block := ⟨emptyHeader 1, [twoLogsTransaction], []⟩

/-- The receipt of a transaction that has emitted two logs. -/
def twoLogsReceipt : Receipt := ⟨1, 0, 0, [emptyLog, emptyLog]⟩

def twoLogsStatus : TransactionStatus := ⟨0, 0, 0, none, none, [emptyLog, emptyLog], 0⟩

end Shadows.Rpc
