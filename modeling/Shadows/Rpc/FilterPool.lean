import Shadows.Rpc.Logs
import Std.Data.TreeMap.Lemmas

/-!
# The filter pool

The filters that clients have installed, by id, and the methods that work on them. The methods run
under the lock of the pool; they have no result where they panic.
-/

namespace Shadows.Rpc

inductive FilterType where
  | block
  | pendingTransaction
  | log (filter : Filter)
  deriving DecidableEq

structure FilterPoolItem where
  lastPoll : BlockNumber
  filterType : FilterType
  atBlock : UInt64
  deriving DecidableEq

abbrev FilterPool := Std.TreeMap U256 FilterPoolItem

/-- The results of `filter_changes`. -/
inductive FilterChanges where
  | logs (logs : List Log)
  | hashes (hashes : List H256)
  | empty
  deriving DecidableEq

/-- The `internal_err`s of the filter methods, each with what its message is formatted from. -/
inductive FilterError where
  /-- `internal_err(format!("Filter pool is full (limit {:?}).", self.max_stored_filters))`. -/
  | poolFull (maxStoredFilters : ℕ)
  /-- `internal_err("Filter pool is not available.")`. -/
  | poolNotAvailable
  /-- `internal_err(format!("Filter id {:?} does not exist.", key))`. -/
  | notExist (key : U256)
  /-- `internal_err("Method not available.")`. -/
  | methodNotAvailable
  /-- `internal_err(format!("fetch runtime block failed: {:?}", err))`. -/
  | fetchBlockFailed (err : String)
  /-- `internal_err(format!("fetch runtime account basic failed: {:?}", err))`. -/
  | fetchAllFailed (err : String)
  deriving DecidableEq

/-- The runtime API at the blocks of the best chain, by number. -/
structure RuntimeApi where
  currentBlock : UInt32 → Except String (Option Block)
  currentAll : UInt32 →
    Except String (Option Block × Option (List Receipt) × Option (List TransactionStatus))

/-- `unique_saturated_into::<u32>`. -/
def saturatedU32 (n : UInt64) : UInt32 := .ofNat (min n.toNat (2 ^ 32 - 1))

def createFilter (maxStoredFilters : ℕ) (blockNumber : UInt64) (filterType : FilterType)
    (pool : FilterPool) : Option (Except FilterError U256 × FilterPool) :=
  if maxStoredFilters ≤ pool.size then some (.error (.poolFull maxStoredFilters), pool)
  else
    let lastKey := pool.keys.getLast?.getD 0
    (lastKey.checkedAdd 1).map fun key =>
      (.ok key, pool.insert key ⟨.num blockNumber, filterType, blockNumber⟩)

/-! ## Polling -/

section Polling

variable (hashing : Hashing) (api : RuntimeApi)

def fetchHash (ethereumHashes : List H256) (n : ℕ) : Except FilterError (List H256) :=
  match api.currentBlock (saturatedU32 (.ofNat n)) with
  | .error err => .error (.fetchBlockFailed err)
  | .ok (some block) => .ok (ethereumHashes ++ [hashing.headerHash block.header])
  | .ok none => .ok ethereumHashes

/-- The hashes of the blocks from `last` to below `next`. -/
def fetchHashes (last next : UInt64) : Except FilterError (List H256) :=
  (List.range' last.toNat (next.toNat - last.toNat)).foldlM (fetchHash hashing api) []

/-- The block and the statuses that a block has, if it has both. -/
def blockAndStatuses :
    Option Block × Option (List Receipt) × Option (List TransactionStatus) →
      List (Block × List TransactionStatus)
  | (some block, _, some statuses) => [(block, statuses)]
  | _ => []

def fetchStatuses (currentNumber : ℕ) :
    Except FilterError (List (Block × List TransactionStatus)) :=
  match api.currentAll (.ofNat currentNumber) with
  | .error err => .error (.fetchAllFailed err)
  | .ok all => .ok (blockAndStatuses all)

/-- The loop of `filter_changes` from the block `current_number` down to `from_number`. -/
def fetchDown (fromNumber : ℕ) : ℕ → Except FilterError (List (Block × List TransactionStatus))
  | 0 => if fromNumber ≤ 0 then fetchStatuses api 0 else .ok []
  | n + 1 =>
    if fromNumber ≤ n + 1 then
      (fetchStatuses api (n + 1)).bind fun entries =>
        (fetchDown fromNumber n).map fun rest => entries ++ rest
    else .ok []

/-- A bound of a filter, where it is a number. -/
def boundNumber (bound : Option BlockNumber) : Option UInt32 :=
  (bound.bind BlockNumber.toMinBlockNum).map saturatedU32

/-- The last block that a poll of a log filter looks at. -/
def currentNumber (filter : Filter) (bestNumber : UInt32) : UInt32 :=
  let currentNumber := (boundNumber filter.toBlock).getD bestNumber
  if bestNumber < currentNumber then bestNumber else currentNumber

/-- The first block that a poll of a log filter looks at. -/
def fromNumber (filter : Filter) (lastPoll : UInt64) : UInt32 :=
  max (saturatedU32 lastPoll) ((boundNumber filter.fromBlock).getD (saturatedU32 lastPoll))

/-- `filter_changes` under the lock, after it has read the best number as `blockNumber`; the best
number is now `bestNumber`. -/
def filterChanges (key : U256) (blockNumber : UInt64) (bestNumber : UInt32) (pool : FilterPool) :
    Option (Except FilterError FilterChanges × FilterPool) :=
  match pool[key]? with
  | none => some (.error (.notExist key), pool)
  | some poolItem =>
    let polled := pool.insert key { poolItem with lastPoll := .num (blockNumber + 1) }
    match poolItem.filterType with
    | .block =>
      poolItem.lastPoll.toMinBlockNum.map fun last =>
        match fetchHashes hashing api last (blockNumber + 1) with
        | .error err => (.error err, pool)
        | .ok ethereumHashes => (.ok (.hashes ethereumHashes), polled)
    | .log filter =>
      poolItem.lastPoll.toMinBlockNum.bind fun last =>
        match fetchDown api (fromNumber filter last).toNat
            (currentNumber filter bestNumber).toNat with
        | .error err => some (.error err, pool)
        | .ok entries => (logsBuild hashing filter entries).map fun logs => (.ok (.logs logs), polled)
    | .pendingTransaction => some (.error .methodNotAvailable, pool)

end Polling

/-! ## Removal -/

def uninstallFilter (key : U256) (pool : FilterPool) : Except FilterError Bool × FilterPool :=
  if key ∈ pool then (.ok true, pool.erase key) else (.error (.notExist key), pool)

/-- What `filter_pool_task` does at the import of a block. -/
def expireFilters (retainThreshold importedNumber : UInt64) (pool : FilterPool) : FilterPool :=
  let removeList := pool.toList.filterMap fun (k, v) =>
    let lifespanLimit := v.atBlock + retainThreshold
    if lifespanLimit ≤ importedNumber then some k else none
  removeList.foldl (fun pool key => pool.erase key) pool

end Shadows.Rpc
