import Shadows.Ethereum.Chains
import Shadows.Rpc.Logs
import Shadows.Rpc.RichBlocks

/-!
# Subscriptions

`subscribe` turns the notifications of the client into a stream of results for one subscriber. The streams
of heads, logs and the sync status look at imported blocks that are a new best block, the one of pending
transactions at changes of the storage of `Pending`. A stream that panics has no result.
-/

namespace Shadows.Rpc

open Ethereum

/-- `Kind`. -/
inductive SubscriptionKind where
  | newHeads
  | logs
  | newPendingTransactions
  | syncing
  deriving DecidableEq

/-- `Params`. -/
inductive SubscriptionParams where
  | none
  | logs (filter : Filter)

/-- `pubsub::Result`. -/
inductive PubSubResult where
  | header (header : Rich RpcHeader)
  | log (log : Log)
  | transactionHash (hash : H256)
  | syncState (syncing : Bool)

/-- The notification of an imported block, with what the runtime API answers about the block and whether
the node is syncing, both when the notification is handled. -/
structure ImportNotification where
  isNewBest : Bool
  currentBlock : Except String (Option Block)
  currentReceipts : Except String (Option (List Receipt))
  isMajorSyncing : Bool

/-- A change of a storage item, in the storage of a child if it has a key, and the value that it has now,
the encoding of `Pending`. -/
structure StorageChange where
  childKey : Option Bytes
  value : Option (Raw Entries)

/-- What the client notifies of: imported blocks, and changes of the item `Pending`. -/
inductive ClientEvent where
  | imported (notification : ImportNotification)
  | pendingChanged (changes : List StorageChange)

/-- A subscription; `previous_syncing` is a variable of its closure. -/
structure Subscription where
  kind : SubscriptionKind
  params : FilteredParams
  previousSyncing : Bool

section Streams

variable (codec : BlockCodec)

def receiveHeads (notification : ImportNotification) : List PubSubResult :=
  if notification.isNewBest then
    match notification.currentBlock with
    | .ok (some block) => [.header (newHeads codec block)]
    | _ => []
  else []

def receiveLogs (params : FilteredParams) (notification : ImportNotification) :
    Option (List PubSubResult) :=
  if notification.isNewBest then
    match notification.currentReceipts, notification.currentBlock with
    | .ok (some receipts), .ok (some block) =>
      (subscriptionLogs codec.hashing block receipts params).map fun logs => logs.map .log
    | _, _ => some []
  else some []

/-- The transactions of the changes; a value that does not decode panics. -/
def pendingTransactions (changes : List StorageChange) : Option (List Transaction) :=
  let storage := changes.filterMap fun change =>
    if change.childKey.isNone then some change.value else none
  storage.foldlM (fun transactions change =>
    match change with
    | none => some transactions
    | some data =>
      match data.decode with
      | .error _ => none
      | .ok storage => some (transactions ++ storage.map fun x => x.1)) []

def receivePending (changes : List StorageChange) : Option (List PubSubResult) :=
  (pendingTransactions changes).map fun transactions =>
    transactions.map fun transaction =>
      .transactionHash (codec.hashing.transactionHash transaction)

/-- The new status, if it has changed. -/
def receiveSyncing (previousSyncing : Bool) (notification : ImportNotification) : Option Bool :=
  if notification.isNewBest ∧ previousSyncing ≠ notification.isMajorSyncing then
    some notification.isMajorSyncing
  else none

/-- What a subscription sends at an event. -/
def Subscription.receive (subscription : Subscription) :
    ClientEvent → Option (List PubSubResult × Subscription)
  | .imported notification =>
    match subscription.kind with
    | .newHeads => some (receiveHeads codec notification, subscription)
    | .logs =>
      (receiveLogs codec subscription.params notification).map fun results => (results, subscription)
    | .newPendingTransactions => some ([], subscription)
    | .syncing =>
      match receiveSyncing subscription.previousSyncing notification with
      | some syncing => some ([.syncState syncing], { subscription with previousSyncing := syncing })
      | none => some ([], subscription)
  | .pendingChanged changes =>
    match subscription.kind with
    | .newPendingTransactions =>
      (receivePending codec changes).map fun results => (results, subscription)
    | _ => some ([], subscription)

/-- Everything that a subscription sends. -/
def Subscription.run (subscription : Subscription) : List ClientEvent → Option (List PubSubResult)
  | [] => some []
  | event :: events =>
    (subscription.receive codec event).bind fun (results, subscription) =>
      (subscription.run events).map fun rest => results ++ rest

end Streams

/-- `subscribe`, while the node is syncing or not. -/
def subscribe (kind : SubscriptionKind) (params : Option SubscriptionParams)
    (isMajorSyncing : Bool) : Subscription where
  kind := kind
  params := match params with
    | some (.logs filter) => .new (some filter)
    | _ => .default
  previousSyncing := isMajorSyncing

/-! ## A chain that is imported -/

/-- What the runtime API answers about a new best block. -/
def ClientEvent.best : ClientEvent →
    Option (Except String (Option Block) × Except String (Option (List Receipt)))
  | .imported notification =>
    if notification.isNewBest then some (notification.currentBlock, notification.currentReceipts)
    else none
  | .pendingChanged _ => none

def ClientEvent.changes : ClientEvent → Option (List StorageChange)
  | .imported _ => none
  | .pendingChanged changes => some changes

/-- Whether the node is syncing at the import of a new best block. -/
def ClientEvent.syncing : ClientEvent → Option Bool
  | .imported notification =>
    if notification.isNewBest then some notification.isMajorSyncing else none
  | .pendingChanged _ => none

/-- The change of `Pending` in a block: it is killed, and put if the block executes a transaction. -/
def pendingChange : Entries → StorageChange
  | [] => ⟨none, none⟩
  | entry :: entries => ⟨none, some (.encoded (entry :: entries))⟩

variable {W : Type}

/-- The new best blocks of the events are those that have led to the states, and the changes of `Pending`
are those of all imported blocks, the best ones or not. The two kinds of events come in any order. -/
structure Notified (states imported : List (State W)) (events : List ClientEvent) : Prop where
  best : events.filterMap ClientEvent.best =
    states.map fun st => (.ok st.currentBlock, .ok st.currentReceipts)
  changes : events.filterMap ClientEvent.changes = imported.map fun st => [pendingChange st.pending]

/-- The logs of a block that the filter accepts, with their places in the block. -/
def acceptedLogs (hashing : Hashing) (filter : Filter) (stored : Block × List Receipt) : List Log :=
  (acceptedPositions filter (positions 0 0 (stored.2.map Receipt.logs))).map fun position =>
    position.placed hashing stored.1 (.ofNat position.transactionIndex)

/-- The log with its number in the block for the index of its transaction. -/
def Log.numbered (log : Log) : Log := { log with transactionIndex := log.logIndex }

/-- What the subscribers get of a chain on top of the block `parent`, whose blocks are stored with their
receipts: linked and numbered heads, and their logs. A log has its place in every field but the index of
its transaction. The transactions are those of all imported blocks. -/
structure Subscribed (codec : BlockCodec) (filter : Filter) (parent : Block) (number : UInt32)
    (stored imported : List (Block × List Receipt)) (events : List ClientEvent) : Prop where
  linked : List.IsChain (fun block block' : Block =>
    block'.header.parentHash = codec.hashing.headerHash block.header)
      (parent :: stored.map fun entry => entry.1)
  numbered : ∀ (i : ℕ) (entry : Block × List Receipt), stored[i]? = some entry →
    entry.1.header.number = .ofU32 (number + 1 + .ofNat i)
  heads : ∀ params syncing, (subscribe .newHeads params syncing).run codec events =
    some (stored.map fun entry => .header (newHeads codec entry.1))
  pending : ∀ params syncing, (subscribe .newPendingTransactions params syncing).run codec events =
    some ((imported.flatMap fun entry => entry.1.transactions).map fun transaction =>
      .transactionHash (codec.hashing.transactionHash transaction))
  logs : ∀ syncing, (subscribe .logs (some (.logs filter)) syncing).run codec events =
    some ((stored.flatMap (acceptedLogs codec.hashing filter)).map fun log => .log log.numbered)

/-! ## Two blocks -/

/-- The block with three calls, and an empty one. -/
def callsThenNone : List (BlockInput ℕ) := [threeCalls, ⟨[], 12, []⟩]

def callsThenNoneStates : List (State ℕ) :=
  (chainStates countingConfig callsThenNone countingGenesis).getD []

/-- The state after a block on top of the genesis block with one call only. -/
def oneCallState : State ℕ :=
  ((runBlock countingConfig ⟨[], 6, [.transact (callWithNonce 0)]⟩ countingGenesis).map
    fun p => p.2).getD countingGenesis

/-- The import of a block that is a new best block, or is not. -/
def importEvents (isNewBest : Bool) (st : State ℕ) : List ClientEvent :=
  [.pendingChanged [pendingChange st.pending],
    .imported ⟨isNewBest, .ok st.currentBlock, .ok st.currentReceipts, false⟩]

/-- The import of the two blocks, after that of the block with one call, which becomes a fork. -/
def forkEvents : List ClientEvent :=
  importEvents false oneCallState ++ callsThenNoneStates.flatMap (importEvents true)

end Shadows.Rpc
