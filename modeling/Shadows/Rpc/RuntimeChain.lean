import Shadows.Ethereum.Records
import Shadows.Rpc.IndexLookups
import Shadows.Rpc.PendingTransactions

/-!
# Blocks of the runtime, as clients see them

The runtime executes the transactions of a block and stores the Ethereum block, the node imports it, the
mapping sync writes its hashes into the mapping database, and the RPC methods read it back. A
`RuntimeChain` is a chain together with what the runtime has left behind at each of its blocks.
-/

namespace Shadows.Rpc

open Db MappingSync Consensus Ethereum

variable {Hash W : Type}

/-- The runtime makes a block without a pre-log on top of a state, and accepts the transactions; the
header has its digest, with the seals of the consensus engine. -/
structure Makes (cfg : Config W) (before : State W) (header : SubstrateHeader Hash)
    (accepted : List Transaction) (after : State W) : Prop where
  run : ∃ input, NoPreLog input.digest ∧ runBlock cfg input before = some (accepted, after)
  digest : ∃ seals : Digest, (∀ item ∈ seals, ∃ engine data, item = .seal engine data) ∧
    header.digest = after.digest ++ seals

/-- What the runtime has left behind at the blocks of a tree: each is made on top of the state of its
parent. -/
structure RuntimeChain (cfg : Config W) (chain : Chain Hash) (tree : Finset Hash) where
  state : Hash → State W
  accepted : Hash → List Transaction
  genesis : ∃ world timestamp,
    storeBlock cfg false (genesisState world timestamp) = some (state chain.genesis)
  genesisBlock : (state chain.genesis).currentBlock = some chain.genesisBlock
  accepted_genesis : accepted chain.genesis = []
  child : ∀ b ∈ tree, b ≠ chain.genesis →
    Makes cfg (state (chain.parent b)) (chain.header b) (accepted b) (state b)

/-- When the runtime has made a block, the runner has been given its `i`-th accepted transaction, of `source`,
on the state `before`, and has returned `outcome` and the state `after`. -/
def RuntimeChain.Executes {cfg : Config W} {chain : Chain Hash} {tree : Finset Hash}
    (rc : RuntimeChain cfg chain tree) (b : Hash) (i : ℕ) (transaction : Transaction) (source : H160)
    (before : W) (outcome : Outcome) (after : W) : Prop :=
  ∃ input, runBlock cfg input (rc.state (chain.parent b)) = some (rc.accepted b, rc.state b) ∧
    ExecutedAt cfg input.extrinsics (rc.state (chain.parent b)).world i transaction source before outcome
      after

/-- The node reads at every block of the tree what the runtime has stored there. -/
structure BlockApi.ReadsStates (api : BlockApi Hash) (tree : Finset Hash) (state : Hash → State W) :
    Prop where
  currentBlock : ∀ b ∈ tree, (api.handler (.hash b)).currentBlock (.hash b) = (state b).currentBlock
  currentReceipts : ∀ b ∈ tree,
    (api.handler (.hash b)).currentReceipts (.hash b) = (state b).currentReceipts
  currentTransactionStatuses : ∀ b ∈ tree,
    (api.handler (.hash b)).currentTransactionStatuses (.hash b) =
      (state b).currentTransactionStatuses

/-- What the API reads blocks with, if it takes their hashes only. -/
def BlockApi.toEthApi (api : BlockApi Hash) : EthApi Hash where
  client := api.client
  backend := api.backend
  onchainStorageSchema := fun b => api.onchainStorageSchema (.hash b)
  overrides := fun schema => (api.overrides schema).map fun handler =>
    ⟨fun b => handler.currentBlock (.hash b), fun b => handler.currentReceipts (.hash b),
      fun b => handler.currentTransactionStatuses (.hash b)⟩
  fallback := ⟨fun b => api.fallback.currentBlock (.hash b),
    fun b => api.fallback.currentReceipts (.hash b),
    fun b => api.fallback.currentTransactionStatuses (.hash b)⟩

section Lookup

variable [DecidableEq Hash] (codec : BlockCodec) (api : BlockApi Hash)
  (pendingTransactions : Option PendingTransactions)

/-- A transaction that is not in the mapping may be pending; there may be no table, or it may be locked
for good. -/
def pendingAnswer (hash : H256) : Option RpcTransaction :=
  pendingTransactions.bind fun locked => locked[hash]?.map PendingTransaction.transaction

/-- `transaction_by_hash`, which has no result where it panics. -/
def transactionByHash (hash : H256) : Option (Except RpcError (Option RpcTransaction)) :=
  match loadTransactions api.backend hash with
  | .error err => some (.error (.internal err))
  | .ok none => some (.ok (pendingAnswer pendingTransactions hash))
  | .ok (some (blockHash, index)) =>
    match loadHash api.client api.backend blockHash with
    | .error err => some (.error (.internal err))
    | .ok none => some (.ok none)
    | .ok (some id) => (transactionAt codec api (.hash id) ⟨index.toUInt64⟩).map .ok

end Lookup

/-! ## A node that serves the chain -/

/-- A node on a runtime chain: its mapping sync has met no errors, its client follows the branch of `best`,
and it reads the states of its blocks. Ethereum blocks have no collisions, the transactions of a block
have different hashes, and a block has fewer than `2 ^ 32` of them, as the runtime counts them. -/
structure ServesNode [DecidableEq Hash] {cfg : Config W} {chain : Chain Hash} (s : SyncState Hash)
    (best : Hash) (api : BlockApi Hash) (rc : RuntimeChain cfg chain s.tree) : Prop where
  reachable : Reachable cfg.hashing chain NoInterrupt s
  best_mem : best ∈ s.tree
  client : api.client.Serves chain s.tree best
  backend : api.backend = s.db
  reads : api.ReadsStates s.tree rc.state
  collisionFree : ∀ b ∈ s.tree, ∀ c ∈ s.tree, ∀ block block',
    (rc.state b).currentBlock = some block → (rc.state c).currentBlock = some block' →
      cfg.hashing.headerHash block.header = cfg.hashing.headerHash block'.header → block = block'
  distinct : ∀ b ∈ s.tree, ((rc.accepted b).map cfg.hashing.transactionHash).Nodup
  count : ∀ b ∈ s.tree, (rc.accepted b).length < 2 ^ 32

/-! ## What clients can be told -/

/-- The RPC module and the runtime call the same third-party functions. -/
structure BlockCodec.Matches (codec : BlockCodec) (cfg : Config W) : Prop where
  hashing : codec.hashing = cfg.hashing
  messageHash : codec.messageHash = cfg.messageHash
  standardV : codec.standardV = cfg.standardV
  recover : codec.secp256k1EcdsaRecover = cfg.secp256k1EcdsaRecover
  keccak256 : codec.keccak256 = cfg.keccak256

/-- The transaction once it is in a block, from what is shown of it while it is pending: it is the same
up to its place and the contract it has created. -/
def RpcTransaction.mined (pending : RpcTransaction) (blockHash : H256) (blockNumber index : U256)
    (creates : Option H160) : RpcTransaction :=
  { pending with
    blockHash := some blockHash
    blockNumber := some blockNumber
    transactionIndex := some index
    creates := creates }

/-- The block, one of those that are synced, is the only one of them that has accepted a transaction with
this hash. -/
structure OnlyIn [DecidableEq Hash] (hashing : Hashing) (db : Database Hash)
    (accepted : Hash → List Transaction) (hash : H256) (b : Hash) : Prop where
  synced : Synced db b
  mem : hash ∈ (accepted b).map hashing.transactionHash
  only : ∀ c, Synced db c → hash ∈ (accepted c).map hashing.transactionHash → c = b

/-! ## The line -/

section Line

/-- The input of a block of the line: the last one calls a contract. -/
def lineInput (b : Fin 3) : BlockInput ℕ :=
  ⟨[], 0, if b = 2 then [.transact (callWithNonce 7)] else []⟩

/-- The state that `store_block` makes of a genesis state in which the nonce is `7`. -/
def lineGenesis : State ℕ := (storeBlock countingConfig false (genesisState 7 0)).getD (genesisState 7 0)

/-- The state after one more block. -/
def lineNext (b : Fin 3) (st : State ℕ) : State ℕ :=
  ((runBlock countingConfig (lineInput b) st).map fun p => p.2).getD st

def lineStates (b : Fin 3) : State ℕ :=
  match b with
  | 0 => lineGenesis
  | 1 => lineNext 1 lineGenesis
  | 2 => lineNext 2 (lineNext 1 lineGenesis)

theorem lineStates_makes (b : Fin 3) (hb : b ≠ 0) :
    Makes countingConfig (lineStates (b - 1)) (lineChain.header b)
      (if b = 2 then [callWithNonce 7] else []) (lineStates b) := by
  match b with
  | 1 => exact ⟨⟨lineInput 1, fun _ => nofun, rfl⟩, [], fun _ h => absurd h List.not_mem_nil, rfl⟩
  | 2 => exact ⟨⟨lineInput 2, fun _ => nofun, rfl⟩, [], fun _ h => absurd h List.not_mem_nil, rfl⟩

def lineRuntimeChain (tree : Finset (Fin 3)) : RuntimeChain countingConfig lineChain tree where
  state := lineStates
  accepted := fun b => if b = 2 then [callWithNonce 7] else []
  genesis := ⟨7, 0, rfl⟩
  genesisBlock := rfl
  accepted_genesis := rfl
  child := fun b _ hb => lineStates_makes b hb

/-- What is read in the state of a block of the line, by its hash or its number. -/
def lineRead {α : Type} (value : State ℕ → Option α) : BlockId (Fin 3) → Option α
  | .hash b => value (lineStates b)
  | .number n => if h : n.toNat < 3 then value (lineStates ⟨n.toNat, h⟩) else none

/-- A node on the line with a mapping database. -/
def lineNodeApi (db : Database (Fin 3)) : BlockApi (Fin 3) where
  client := lineHeaders
  backend := db
  bestHash := 2
  onchainStorageSchema := fun _ => .undefined
  overrides := fun _ => none
  fallback :=
    { currentBlock := lineRead State.currentBlock
      currentReceipts := lineRead State.currentReceipts
      currentTransactionStatuses := lineRead State.currentTransactionStatuses }

/-- All blocks of the line are synced. -/
def lineAllSynced : SyncState (Fin 3) :=
  (lineSynced.sync numberHashing lineClient .succeed).sync numberHashing lineClient .succeed

theorem lineAllSynced_reachable : Reachable numberHashing lineChain NoInterrupt lineAllSynced :=
  ((lineSynced_reachable NoInterrupt).tail (.sync _ lineClient lineClient_serves)).tail
    (.sync _ lineClient lineClient_serves)

/-- A client has sent a transaction, and the pool has taken it. -/
def lineSubmission : List (PendingEvent × PendingState) :=
  [(.submit (callWithNonce 9), ⟨2, ∅, [(callWithNonce 9, 2)]⟩),
    (.answered (callWithNonce 9) 2 (.ok ()) (.ok 9),
      ⟨2, (submitted smallCodec (callWithNonce 9) 2 (.ok ()) ∅).2, []⟩)]

end Line

end Shadows.Rpc
