import Shadows.Rpc.FilterPool
import Shadows.Foundations.Lifetimes
import Shadows.Foundations.Runs

/-!
# Runs of the filter methods

`create_filter` and `filter_changes` first read the best number and then, some time later, take the
lock of the pool and run. Between the two steps of a request blocks are imported and other requests
run, also for the same filter.
-/

namespace Shadows.Rpc

open Foundations

/-- What the runtime knows of a block. -/
structure ChainBlock where
  block : Option Block
  receipts : Option (List Receipt)
  statuses : Option (List TransactionStatus)

/-- The blocks of a chain that only extends, by number; the Ethereum block of a block has its
number. -/
structure GrowingChain where
  blockAt : UInt32 → ChainBlock
  number : ∀ n block, (blockAt n).block = some block → block.header.number = .ofU32 n

/-- The runtime API answers about the blocks up to `best`, or fails. -/
structure RuntimeApi.Serves (api : RuntimeApi) (chain : GrowingChain) (best : UInt32) : Prop where
  currentBlock : ∀ n ≤ best, (∃ err, api.currentBlock n = .error err) ∨
    api.currentBlock n = .ok (chain.blockAt n).block
  currentAll : ∀ n ≤ best, (∃ err, api.currentAll n = .error err) ∨
    api.currentAll n =
      .ok ((chain.blockAt n).block, (chain.blockAt n).receipts, (chain.blockAt n).statuses)

/-- A request that reads the best number before it takes the lock. -/
inductive Request where
  | createFilter (filterType : FilterType)
  | filterChanges (key : U256)
  deriving DecidableEq

/-- The configuration of a node, its chain, and the hashes it takes. -/
structure FilterConfig where
  hashing : Hashing
  chain : GrowingChain
  maxStoredFilters : ℕ
  retainThreshold : UInt64

structure Node where
  best : UInt32
  pool : FilterPool
  /-- A request has panicked with the lock held. -/
  poisoned : Bool
  /-- The requests that have read the best number, each with what it has read. -/
  inFlight : List (Request × UInt32)

namespace Node

variable {α : Type}

/-- A method under the lock; its response is missing if it panics. -/
def locked (node : Node) (method : FilterPool → Option (Except FilterError α × FilterPool)) :
    Option (Except FilterError α) × Node :=
  if node.poisoned then (some (.error .poolNotAvailable), node)
  else match method node.pool with
    | none => (none, { node with poisoned := true })
    | some (response, pool) => (some response, { node with pool := pool })

/-- The node without a request in flight. -/
def answered (node : Node) (request : Request) (sample : UInt32) : Node :=
  { node with inFlight := node.inFlight.erase (request, sample) }

/-- The second part of `create_filter`. -/
def finishCreate (cfg : FilterConfig) (filterType : FilterType) (sample : UInt32) (node : Node) :
    Option (Except FilterError U256) × Node :=
  (node.answered (.createFilter filterType) sample).locked
    (createFilter cfg.maxStoredFilters sample.toUInt64 filterType)

/-- The second part of `filter_changes`, which reads the best number again. -/
def finishPoll (cfg : FilterConfig) (api : RuntimeApi) (key : U256) (sample : UInt32)
    (node : Node) : Option (Except FilterError FilterChanges) × Node :=
  (node.answered (.filterChanges key) sample).locked
    (filterChanges cfg.hashing api key sample.toUInt64 node.best)

end Node

inductive Event where
  | imported
  | sampled (request : Request)
  | created (filterType : FilterType) (sample : UInt32)
      (response : Option (Except FilterError U256))
  | polled (key : U256) (sample : UInt32) (response : Option (Except FilterError FilterChanges))
  | uninstalled (key : U256) (response : Option (Except FilterError Bool))
  /-- The expiry task meets the import of a block with this number. -/
  | expired (importedNumber : UInt64)

/-- The steps of a node. A block that is imported may be a new best block or not, and the answers of
the runtime API may fail at one poll and not at the next. -/
inductive Step (cfg : FilterConfig) : Node → Event → Node → Prop where
  | imported (node : Node) (best : UInt32) (h : node.best ≤ best) :
      Step cfg node .imported { node with best := best }
  | sampled (node : Node) (request : Request) :
      Step cfg node (.sampled request)
        { node with inFlight := node.inFlight ++ [(request, node.best)] }
  | created (node node' : Node) (filterType : FilterType) (sample : UInt32)
      (response : Option (Except FilterError U256))
      (hflight : (.createFilter filterType, sample) ∈ node.inFlight)
      (hrun : node.finishCreate cfg filterType sample = (response, node')) :
      Step cfg node (.created filterType sample response) node'
  | polled (node node' : Node) (key : U256) (sample : UInt32) (api : RuntimeApi)
      (response : Option (Except FilterError FilterChanges))
      (hflight : (.filterChanges key, sample) ∈ node.inFlight)
      (hserves : api.Serves cfg.chain node.best)
      (hrun : node.finishPoll cfg api key sample = (response, node')) :
      Step cfg node (.polled key sample response) node'
  | uninstalled (node node' : Node) (key : U256) (response : Option (Except FilterError Bool))
      (hrun : node.locked (fun pool => some (uninstallFilter key pool)) = (response, node')) :
      Step cfg node (.uninstalled key response) node'
  | expired (node node' : Node) (importedNumber : UInt64)
      (response : Option (Except FilterError Unit))
      (hrun : node.locked (fun pool =>
        some (.ok (), expireFilters cfg.retainThreshold importedNumber pool)) =
          (response, node')) :
      Step cfg node (.expired importedNumber) node'

/-! ## What clients see of a run -/

/-- A successful poll: the best number read first, the best number under the lock, the answer. -/
structure Poll where
  sample : UInt32
  best : UInt32
  changes : FilterChanges

def Poll.hashes (poll : Poll) : List H256 :=
  match poll.changes with
  | .hashes hashes => hashes
  | _ => []

def Poll.logs (poll : Poll) : List Log :=
  match poll.changes with
  | .logs logs => logs
  | _ => []

/-- What a successful poll of the filter has read first, and its answer. -/
def Event.success (key : U256) : Event → Option (UInt32 × FilterChanges)
  | .polled key' sample (some (.ok changes)) => if key' = key then some (sample, changes) else none
  | _ => none

/-- The successful polls of a filter in a run. -/
def polls (key : U256) : Node → List (Event × Node) → List Poll
  | _, [] => []
  | node, (event, node') :: run =>
    match event.success key with
    | some (sample, changes) => ⟨sample, node.best, changes⟩ :: polls key node' run
    | none => polls key node' run

/-- The id that a successful `create_filter` returns. -/
def Event.createdId : Event → Option U256
  | .created _ _ (some (.ok key)) => some key
  | _ => none

/-- The ids that the successful calls of `create_filter` in a run return. -/
def createdIds (run : List (Event × Node)) : List U256 :=
  run.filterMap fun step => step.1.createdId

/-- A returned id is that of no filter in the pool. -/
def FreshId (node : Node) (event : Event) (_ : Node) : Prop :=
  ∀ key, event.createdId = some key → key ∉ node.pool

/-- Whenever a filter is created, the one that was created last, at first `latest`, is still in the
pool. -/
def LatestKept : Option U256 → Node → List (Event × Node) → Prop
  | _, _, [] => True
  | latest, node, (event, node') :: run =>
    match event.createdId with
    | some key => (∀ k ∈ latest, k ∈ node.pool) ∧ LatestKept (some key) node' run
    | none => LatestKept latest node' run

/-- The filter is in the pool. -/
def Installed (key : U256) (node : Node) : Prop := key ∈ node.pool

/-- The stored `last_poll` of a filter. -/
def cursor (key : U256) (node : Node) : Option UInt64 :=
  node.pool[key]?.bind fun item => item.lastPoll.toMinBlockNum

/-- A step does not move the stored `last_poll` back. -/
def CursorAdvances (key : U256) (node : Node) (_ : Event) (node' : Node) : Prop :=
  ∀ last last', cursor key node = some last → cursor key node' = some last' → last ≤ last'

/-- No poll of the filter starts while another one is in flight. -/
def OneAfterAnother (key : U256) (node : Node) (event : Event) (_ : Node) : Prop :=
  event = .sampled (.filterChanges key) → ∀ sample, (.filterChanges key, sample) ∉ node.inFlight

/-- The polls of the filter that are in flight. -/
def pollsInFlight (key : U256) (node : Node) : ℕ :=
  node.inFlight.countP fun entry => entry.1 = .filterChanges key

/-- At most one poll of the filter is in flight, and it has started since the best number was
`floor`. -/
structure Follows (key : U256) (floor : UInt32) (node : Node) : Prop where
  floor_le : floor ≤ node.best
  sampled : ∀ sample, (.filterChanges key, sample) ∈ node.inFlight →
    floor ≤ sample ∧ sample ≤ node.best
  single : pollsInFlight key node ≤ 1

/-- No request has read a number above the best one. -/
def SamplesCurrent (node : Node) : Prop := ∀ entry ∈ node.inFlight, entry.2 ≤ node.best

/-- A client has created a filter when the best number was `c`, and from `node` on polls it one poll
after the other, while it is neither uninstalled nor expired. -/
structure PolledInTurn (cfg : FilterConfig) (filterType : FilterType) (key : U256) (c : UInt32)
    (node : Node) (run : List (Event × Node)) : Prop where
  created : ∃ start before, start.inFlight = [] ∧
    IsRun (Step cfg) start (before ++ (.created filterType c (some (.ok key)), node) :: run)
  idle : pollsInFlight key node = 0
  oneAfterAnother : Each (OneAfterAnother key) node run
  installed : Always (Installed key) node run

/-- The hashes of the Ethereum blocks of the numbers from `first` to below `next`. -/
def chainHashes (hashing : Hashing) (chain : GrowingChain) (first next : ℕ) : List H256 :=
  (List.range' first (next - first)).filterMap fun n =>
    (chain.blockAt (.ofNat n)).block.map fun block => hashing.headerHash block.header

/-- The logs that a filter matches in a block. -/
def chainLogs (hashing : Hashing) (chain : GrowingChain) (filter : Filter) (n : UInt32) :
    List Log :=
  match (chain.blockAt n).block, (chain.blockAt n).statuses with
  | some block, some statuses => blockLogs hashing filter block statuses
  | _, _ => []

/-- What the answer to a successful poll has to be, for a filter that has last been polled at
`last`. -/
def Answers (cfg : FilterConfig) (last : UInt64) (poll : Poll) : FilterType → Prop
  | .block => poll.changes =
      .hashes (chainHashes cfg.hashing cfg.chain last.toNat (poll.sample.toNat + 1))
  | .log filter => ∃ logs, poll.changes = .logs logs ∧ ∀ log, log ∈ logs ↔
      ∃ n, fromNumber filter last ≤ n ∧ n ≤ currentNumber filter poll.best ∧
        log ∈ chainLogs cfg.hashing cfg.chain filter n
  | .pendingTransaction => False

/-- Successful polls, each after the one before, of a filter that has last been polled at `last`,
since the best number was `floor`. -/
def PollSeries (cfg : FilterConfig) (filterType : FilterType) : UInt64 → UInt32 → List Poll → Prop
  | _, _, [] => True
  | last, floor, poll :: rest =>
    floor ≤ poll.sample ∧ poll.sample ≤ poll.best ∧ Answers cfg last poll filterType ∧
      PollSeries cfg filterType (poll.sample.toUInt64 + 1) poll.best rest

/-- None of the blocks that were imported before a poll of a log filter took the lock, but after it
had read the best number, has a log that the filter matches. The largest block number counts as
imported late, since the cursor does not move past it. -/
def QuietBetween (cfg : FilterConfig) (filter : Filter) (poll : Poll) : Prop :=
  ∀ n : UInt32, poll.sample < n ∨ n = 4294967295 → n ≤ poll.best →
    (∀ first, boundNumber filter.fromBlock = some first → first ≤ n) →
      (∀ last, boundNumber filter.toBlock = some last → n ≤ last) →
        chainLogs cfg.hashing cfg.chain filter n = []

/-! ## The life of a filter -/

/-- The filter of an id, and the number for its lifespan. -/
def filterEntry (key : U256) (node : Node) : Option (FilterType × UInt64) :=
  node.pool[key]?.map fun item => (item.filterType, item.atBlock)

/-- What an event of a run does to the table of the filters: a filter that is created is put into it, an
uninstallation sweeps one out, the import of a block those whose lifespan is over, unless the lock is
poisoned. Everything else does nothing, the polls of a filter in particular. -/
def filterOp (cfg : FilterConfig) (node : Node) : Event → Option (TableOp U256 (FilterType × UInt64))
  | .created filterType sample (some (.ok key)) => some (.put key (filterType, sample.toUInt64))
  | .uninstalled key (some (.ok true)) => some (.sweep fun key' _ => decide (key' ≠ key))
  | .expired importedNumber =>
    if node.poisoned then none
    else some (.sweep fun _ entry => decide (importedNumber < entry.2 + cfg.retainThreshold))
  | _ => none

/-- What the events of a run do to the table of the filters. -/
def filterOps (cfg : FilterConfig) : Node → List (Event × Node) →
    List (TableOp U256 (FilterType × UInt64))
  | _, [] => []
  | node, (event, node') :: run => (filterOp cfg node event).toList ++ filterOps cfg node' run

/-! ## A node that is overtaken -/

/-- A chain on which every block has the same transaction with two logs. -/
def loggedChain : GrowingChain where
  blockAt := fun n =>
    ⟨some ⟨emptyHeader (.ofU32 n), [twoLogsTransaction], []⟩, some [twoLogsReceipt],
      some [twoLogsStatus]⟩
  number := by
    intro n block h
    rw [← Option.some.inj h]
    rfl

/-- A runtime API that never fails. -/
def GrowingChain.api (chain : GrowingChain) : RuntimeApi where
  currentBlock := fun n => .ok (chain.blockAt n).block
  currentAll := fun n =>
    .ok ((chain.blockAt n).block, (chain.blockAt n).receipts, (chain.blockAt n).statuses)

theorem GrowingChain.api_serves (chain : GrowingChain) (best : UInt32) :
    chain.api.Serves chain best where
  currentBlock := fun _ _ => .inr rfl
  currentAll := fun _ _ => .inr rfl

/-- The limits of the node's configuration. -/
def loggedConfig : FilterConfig := ⟨numberHashing, loggedChain, 500, 100⟩

def idleNode : Node := ⟨0, ∅, false, []⟩

/-- The first part of a request. -/
def Node.begin (node : Node) (request : Request) : Node :=
  { node with inFlight := node.inFlight ++ [(request, node.best)] }

/-- A client has created the filter `1` at block `0`. -/
def createdNode (filterType : FilterType) : Node :=
  ((idleNode.begin (.createFilter filterType)).finishCreate loggedConfig filterType 0).2

/-- A poll of the filter `1`, during which two blocks are imported. -/
def overtakenNode (filterType : FilterType) : Node :=
  { (createdNode filterType).begin (.filterChanges 1) with best := 2 }

def firstPoll (filterType : FilterType) : Option (Except FilterError FilterChanges) × Node :=
  (overtakenNode filterType).finishPoll loggedConfig loggedChain.api 1 0

/-- The next poll of the filter. -/
def secondPoll (filterType : FilterType) : Option (Except FilterError FilterChanges) × Node :=
  ((firstPoll filterType).2.begin (.filterChanges 1)).finishPoll loggedConfig loggedChain.api 1 2

def twoPolls (filterType : FilterType) : List (Event × Node) :=
  [(.sampled (.filterChanges 1), (createdNode filterType).begin (.filterChanges 1)),
    (.imported, overtakenNode filterType),
    (.polled 1 0 (firstPoll filterType).1, (firstPoll filterType).2),
    (.sampled (.filterChanges 1), (firstPoll filterType).2.begin (.filterChanges 1)),
    (.polled 1 2 (secondPoll filterType).1, (secondPoll filterType).2)]

/-- Two polls of the filter `1` in flight, the first of which has read `0` and the second `2`. -/
def overlappedNode : Node := (overtakenNode .block).begin (.filterChanges 1)

/-- The second of them takes the lock first. -/
def laterPoll : Option (Except FilterError FilterChanges) × Node :=
  overlappedNode.finishPoll loggedConfig loggedChain.api 1 2

def earlierPoll : Option (Except FilterError FilterChanges) × Node :=
  laterPoll.2.finishPoll loggedConfig loggedChain.api 1 0

def overlappingPolls : List (Event × Node) :=
  [(.sampled (.filterChanges 1), (createdNode .block).begin (.filterChanges 1)),
    (.imported, overtakenNode .block), (.sampled (.filterChanges 1), overlappedNode),
    (.polled 1 2 laterPoll.1, laterPoll.2), (.polled 1 0 earlierPoll.1, earlierPoll.2)]

/-- The client uninstalls the filter `1`. -/
def uninstalledNode : Node := { createdNode .block with pool := (createdNode .block).pool.erase 1 }

def recreatedNode : Node :=
  ((uninstalledNode.begin (.createFilter .block)).finishCreate loggedConfig .block 0).2

/-- A filter is created and uninstalled, and another one is created. -/
def recreatingRun : List (Event × Node) :=
  [(.sampled (.createFilter .block), idleNode.begin (.createFilter .block)),
    (.created .block 0 (some (.ok 1)), createdNode .block),
    (.uninstalled 1 (some (.ok true)), uninstalledNode),
    (.sampled (.createFilter .block), uninstalledNode.begin (.createFilter .block)),
    (.created .block 0 (some (.ok 1)), recreatedNode)]

/-- The node behind the import of a block. -/
def expiredNode (importedNumber : UInt64) (node : Node) : Node :=
  { node with pool := expireFilters loggedConfig.retainThreshold importedNumber node.pool }

/-- The filter `1` of block `0` outlives the block `99`, but not the block `100`. -/
def expiringRun : List (Event × Node) :=
  [(.sampled (.createFilter .block), idleNode.begin (.createFilter .block)),
    (.created .block 0 (some (.ok 1)), createdNode .block),
    (.expired 99, expiredNode 99 (createdNode .block)),
    (.expired 100, expiredNode 100 (expiredNode 99 (createdNode .block)))]

end Shadows.Rpc
