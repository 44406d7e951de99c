import Shadows.Rpc.Receipts
import Shadows.Rpc.FilterRuns
import Shadows.Foundations.Loops

/-!
# Queries for logs

`logs` answers a filter, `filter_logs` the filter that is installed under an id. Both walk from the
last block of the range down to the first, while the best number is `bestNumber`. The methods have no
result where they panic or do not return.
-/

namespace Shadows.Rpc

open Foundations

/-- The `internal_err`s of the two methods, each with what its message is formatted from. -/
inductive LogsError where
  /-- `internal_err(format!("{:?}", err))`. -/
  | lookup (err : RpcError)
  | filter (err : FilterError)
  /-- `internal_err(format!("Filter id {:?} is not a Log filter.", key))`. -/
  | notLogFilter (key : U256)
  deriving DecidableEq

/-- `saturating_sub` of block numbers. -/
def saturatingSub (a b : UInt32) : UInt32 := .ofNat (a.toNat - b.toNat)

/-! ## The loop -/

/-- The variables of the loop. -/
structure RangeLoop where
  currentNumber : UInt32
  blocksAndStatuses : List (Block × List TransactionStatus)

section Loop

variable (api : RuntimeApi)

/-- The body of the loop before the number is decremented. -/
def visitBlock (blocksAndStatuses : List (Block × List TransactionStatus)) (currentNumber : UInt32) :
    Except FilterError (List (Block × List TransactionStatus)) :=
  match api.currentAll currentNumber with
  | .error err => .error (.fetchAllFailed err)
  | .ok all => .ok (blocksAndStatuses ++ blockAndStatuses all)

/-- One turn of `while current_number >= from_number`. -/
def rangeTurn (fromNumber : UInt32) (s : RangeLoop) :
    Turn RangeLoop (Except FilterError (List (Block × List TransactionStatus))) :=
  if fromNumber ≤ s.currentNumber then
    match visitBlock api s.blocksAndStatuses s.currentNumber with
    | .error err => .exit (.error err)
    | .ok blocksAndStatuses =>
      if s.currentNumber = 0 then .exit (.ok blocksAndStatuses)
      else .next ⟨saturatingSub s.currentNumber 1, blocksAndStatuses⟩
  else .exit (.ok s.blocksAndStatuses)

/-- The loop, with one turn for every block number. -/
def fetchRange (fromNumber currentNumber : UInt32) :
    Option (Except FilterError (List (Block × List TransactionStatus))) :=
  loop (rangeTurn api fromNumber) (2 ^ 32) ⟨currentNumber, []⟩

/-- The first block that a query looks at. -/
def rangeFrom (filter : Filter) (bestNumber : UInt32) : UInt32 :=
  (boundNumber filter.fromBlock).getD bestNumber

/-- The logs of the blocks in the range of a filter. -/
def queryRange (hashing : Hashing) (bestNumber : UInt32) (filter : Filter) :
    Option (Except LogsError (List Log)) :=
  (fetchRange api (rangeFrom filter bestNumber) (currentNumber filter bestNumber)).bind fun
    | .error err => some (.error (.filter err))
    | .ok blocksAndStatuses => (logsBuild hashing filter blocksAndStatuses).map .ok

end Loop

/-! ## The methods -/

/-- `EthApi::logs`. A block that is asked for by hash is looked up and read by its Substrate hash. -/
def EthApi.logs {Hash : Type} [DecidableEq Hash] (eth : EthApi Hash) (hashing : Hashing)
    (api : RuntimeApi)
    (currentAllAt : Hash →
      Except String (Option Block × Option (List Receipt) × Option (List TransactionStatus)))
    (bestNumber : UInt32) (filter : Filter) : Option (Except LogsError (List Log)) :=
  match filter.blockHash with
  | some hash =>
    match loadHash eth.client eth.backend hash with
    | .error err => some (.error (.lookup (.internal err)))
    | .ok none => some (.ok [])
    | .ok (some id) =>
      match currentAllAt id with
      | .error err => some (.error (.filter (.fetchAllFailed err)))
      | .ok all => (logsBuild hashing filter (blockAndStatuses all)).map .ok
  | none => queryRange api hashing bestNumber filter

/-- `filter_logs` under the lock of the pool. -/
def filterLogs (hashing : Hashing) (api : RuntimeApi) (key : U256) (bestNumber : UInt32)
    (pool : FilterPool) : Option (Except LogsError (List Log)) :=
  match pool[key]? with
  | none => some (.error (.filter (.notExist key)))
  | some poolItem =>
    match poolItem.filterType with
    | .log filter => queryRange api hashing bestNumber filter
    | _ => some (.error (.notLogFilter key))

/-! ## What a query is for -/

/-- The runtime API answers about every block of the chain up to `best`. -/
def RuntimeApi.Knows (api : RuntimeApi) (chain : GrowingChain) (best : UInt32) : Prop :=
  ∀ n ≤ best, api.currentAll n =
    .ok ((chain.blockAt n).block, (chain.blockAt n).receipts, (chain.blockAt n).statuses)

namespace Filter

/-- The first block of the range. Numbers saturate at 32 bits; without a number it is the best
block. -/
def lowest (filter : Filter) (best : UInt32) : ℕ :=
  match filter.fromBlock with
  | some (.num n) => min n.toNat (2 ^ 32 - 1)
  | _ => best.toNat

/-- The last block of the range, which is not above the best block. -/
def highest (filter : Filter) (best : UInt32) : ℕ :=
  match filter.toBlock with
  | some (.num n) => min n.toNat best.toNat
  | _ => best.toNat

end Filter

/-- The block numbers from `hi` down to `lo`. -/
def descending (lo hi : ℕ) : List UInt32 := ((List.range' lo (hi + 1 - lo)).map .ofNat).reverse

/-! ## The tag `Earliest` -/

/-- The number `0` in place of the tag. -/
def TagReplaced (bound bound' : Option BlockNumber) : Prop :=
  bound = some .earliest ∧ bound' = some (.num 0)

/-- The second filter is the first one with the tag replaced in one of its bounds, or in both. -/
structure Renumbered (filter filter' : Filter) : Prop where
  fromBlock : filter'.fromBlock = filter.fromBlock ∨
    TagReplaced filter.fromBlock filter'.fromBlock
  toBlock : filter'.toBlock = filter.toBlock ∨ TagReplaced filter.toBlock filter'.toBlock
  blockHash : filter'.blockHash = filter.blockHash
  address : filter'.address = filter.address
  topics : filter'.topics = filter.topics

/-- The pool with a log filter under an id. -/
def installLog (key : U256) (last atBlock : UInt64) (pool : FilterPool) (filter : Filter) :
    FilterPool :=
  pool.insert key ⟨.num last, .log filter, atBlock⟩

/-- Two filters get the same answers from `logs`, and, wherever they are installed, from `filter_logs`
and `filter_changes`, and the subscription tests their block ranges alike. -/
structure SameResults {Hash : Type} [DecidableEq Hash] (eth : EthApi Hash) (hashing : Hashing)
    (api : RuntimeApi)
    (currentAllAt : Hash →
      Except String (Option Block × Option (List Receipt) × Option (List TransactionStatus)))
    (best : UInt32) (filter filter' : Filter) : Prop where
  logs : eth.logs hashing api currentAllAt best filter =
    eth.logs hashing api currentAllAt best filter'
  filterLogs : ∀ key last atBlock pool,
    Rpc.filterLogs hashing api key best (installLog key last atBlock pool filter) =
      Rpc.filterLogs hashing api key best (installLog key last atBlock pool filter')
  filterChanges : ∀ key last atBlock blockNumber pool,
    (Rpc.filterChanges hashing api key blockNumber best
        (installLog key last atBlock pool filter)).map Prod.fst =
      (Rpc.filterChanges hashing api key blockNumber best
        (installLog key last atBlock pool filter')).map Prod.fst
  filterBlockRange : ∀ n, (FilteredParams.new (some filter)).filterBlockRange n =
    (FilteredParams.new (some filter')).filterBlockRange n

/-- The tag may be replaced: in `to_block` only next to a positive number in `from_block`, if the
filter matches no log from there on; in `from_block` if it matches no log below the best block. -/
structure TagIdle (hashing : Hashing) (chain : GrowingChain) (best : UInt32)
    (filter filter' : Filter) : Prop where
  toBlock : TagReplaced filter.toBlock filter'.toBlock →
    ∃ m, filter.fromBlock = some (.num m) ∧ 0 < m ∧
      ∀ n ≤ best, saturatedU32 m ≤ n → chainLogs hashing chain filter n = []
  fromBlock : TagReplaced filter.fromBlock filter'.fromBlock →
    ∀ n < best, (∀ last, boundNumber filter.toBlock = some last → n ≤ last) →
      chainLogs hashing chain filter n = []

end Shadows.Rpc
