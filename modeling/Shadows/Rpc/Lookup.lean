import Shadows.Ethereum.Blocks
import Shadows.MappingSync.Chain

/-!
# Looking up blocks and transactions by Ethereum hash

The lookups of the `eth` RPC module. The mapping database may know several Substrate blocks for one
Ethereum hash; a block counts as canonical if the client's header at its number has its hash.
-/

namespace Shadows.Rpc

open Db MappingSync Foundations Consensus Ethereum

variable {Hash : Type}

/-- What the lookups ask the client for. -/
structure HeaderBackend (Hash : Type) where
  /-- `client.number(hash)`. -/
  number : Hash → Except String (Option UInt32)
  /-- `client.header(BlockId::Number(number))`. -/
  headerByNumber : UInt32 → Except String (Option (SubstrateHeader Hash))

/-- The `internal_err`s of the lookups, each with what its message is formatted from. -/
inductive RpcError where
  /-- `internal_err(format!("fetch aux store failed: {:?}", err))`. -/
  | fetchAuxStoreFailed (err : String)
  /-- `internal_err(format!("{:?}", err))`. -/
  | internal (err : RpcError)
  deriving DecidableEq

variable [DecidableEq Hash]

def isCanon (client : HeaderBackend Hash) (targetHash : Hash) : Bool :=
  match client.number targetHash with
  | .ok (some number) =>
    match client.headerByNumber number with
    | .ok (some header) => header.hash = targetHash
    | _ => false
  | _ => false

def loadHash (client : HeaderBackend Hash) (db : Database Hash) (hash : H256) :
    Except RpcError (Option Hash) :=
  match MappingDb.blockHashes db hash with
  | .error err => .error (.fetchAuxStoreFailed err)
  | .ok hashes =>
    match hashes.filter (isCanon client) with
    | [out] => .ok (some out)
    | _ => .ok none

def loadTransactions (db : Database Hash) (transactionHash : H256) :
    Except RpcError (Option (H256 × UInt32)) :=
  match MappingDb.transactionMetadata db transactionHash with
  | .error err => .error (.fetchAuxStoreFailed err)
  | .ok [metadata] => .ok (some (metadata.ethereumBlockHash, metadata.ethereumIndex))
  | .ok _ => .ok none

/-- The first half of `transaction_by_hash` and `transaction_receipt`: the block and the index that
the transaction, its status and its receipt are then read from. -/
def locateTransaction (client : HeaderBackend Hash) (db : Database Hash) (hash : H256) :
    Except RpcError (Option (Hash × UInt32)) :=
  match loadTransactions db hash with
  | .error err => .error (.internal err)
  | .ok none => .ok none
  | .ok (some (blockHash, index)) =>
    match loadHash client db blockHash with
    | .error err => .error (.internal err)
    | .ok none => .ok none
    | .ok (some id) => .ok (some (id, index))

/-! ## Chains seen through the lookups -/

/-- The client of a node whose best block is `best`: it knows the number of every block of the tree,
and by number it knows the blocks of the branch of `best`. -/
structure HeaderBackend.Serves (client : HeaderBackend Hash) (chain : Chain Hash)
    (tree : Finset Hash) (best : Hash) : Prop where
  number : ∀ b ∈ tree, client.number b = .ok (some (chain.header b).number)
  canonical : ∀ b, chain.lineage.OnBranch best b →
    client.headerByNumber (chain.header b).number = .ok (some (chain.header b))
  onBranch : ∀ n header, client.headerByNumber n = .ok (some header) →
    ∃ b, chain.lineage.OnBranch best b ∧ header = chain.header b

/-- The mapping database after one `write_hashes` for each of the blocks, in order. -/
def mappingOf (hashing : Hashing) (chain : Chain Hash) (blocks : List Hash) : Database Hash :=
  blocks.foldl (fun db b => (MappingDb.writeHashes (.ok ()) (chain.commitment hashing b) db).2)
    Database.empty

/-- `header` is the Ethereum header of a block: `store_block` has put it together at the number of
the block, and the digest of the block is what it left behind, with the seals of the consensus
engine. The block of the genesis state has no digest of its own. -/
def EthereumHeader {W : Type} (cfg : Config W) (chain : Chain Hash) (b : Hash) (header : Header) :
    Prop :=
  ∃ (mid st : State W) (block : Block), mid.blockNumber = (chain.header b).number ∧
    storeBlock cfg (decide (b ≠ chain.genesis)) mid = some st ∧ st.currentBlock = some block ∧
    block.header = header ∧
    if b = chain.genesis then chain.genesisBlock = block
    else ensureLog st.digest = .ok () ∧ ∃ seals : Digest,
      (∀ item ∈ seals, ∃ engine data, item = .seal engine data) ∧
        (chain.header b).digest = st.digest ++ seals

/-! ## A line -/

/-- The client of a node whose best block is `2` of the line. -/
def lineHeaders : HeaderBackend (Fin 3) where
  number := fun b => .ok (some (lineChain.header b).number)
  headerByNumber := fun n =>
    if h : n.toNat < 3 then .ok (some (lineChain.header ⟨n.toNat, h⟩)) else .ok none

theorem lineChain_onBranch (b : Fin 3) : lineChain.lineage.OnBranch 2 b :=
  ⟨2 - b.val, Nat.sub_le 2 b.val, by revert b; decide⟩

theorem lineHeaders_serves : lineHeaders.Serves lineChain {2, 1, 0} 2 where
  number := fun _ _ => rfl
  canonical := by
    intro b hb
    clear hb
    match b with
    | 0 => rfl
    | 1 => rfl
    | 2 => rfl
  onBranch := by
    intro n header hheader
    simp only [lineHeaders] at hheader
    split_ifs at hheader with h
    · rw [Except.ok.injEq, Option.some.injEq] at hheader
      exact ⟨_, lineChain_onBranch _, hheader.symm⟩
    · cases hheader

/-! ## A fork -/

/-- Genesis `0` with its children `1` and `2`, which contain the same transaction. Block `1` contains
another one. -/
def forkChain : Chain (Fin 3) where
  genesis := 0
  header := fun b => ⟨b, 0, if b = 0 then 0 else 1,
    postDigest (BitVec.ofNat 256 b.val) (if b = 1 then [7, 8] else [7])⟩
  genesisBlock := ⟨emptyHeader 0, [], []⟩
  header_hash := fun _ => rfl
  genesis_number := rfl

def forkClient : HeaderBackend (Fin 3) where
  number := fun b => .ok (some (forkChain.header b).number)
  headerByNumber := fun n =>
    if n = 0 then .ok (some (forkChain.header 0))
    else if n = 1 then .ok (some (forkChain.header 1))
    else .ok none

theorem forkChain_isTree : forkChain.lineage.IsTree {0, 1, 2} where
  root_mem := by decide
  parent_mem := by decide
  depth_parent := by decide

theorem forkChain_onBranch (b : Fin 3) : forkChain.lineage.OnBranch 1 b ↔ b = 0 ∨ b = 1 := by
  constructor
  · rintro ⟨k, hk, rfl⟩
    have hk' : k ≤ 1 := hk
    obtain rfl | rfl : k = 0 ∨ k = 1 := by omega
    · exact Or.inr rfl
    · exact Or.inl rfl
  · rintro (rfl | rfl)
    · exact ⟨1, by decide, rfl⟩
    · exact ⟨0, by decide, rfl⟩

theorem forkClient_serves (tree : Finset (Fin 3)) : forkClient.Serves forkChain tree 1 where
  number := fun _ _ => rfl
  canonical := by
    intro b hb
    rcases (forkChain_onBranch b).1 hb with rfl | rfl <;> rfl
  onBranch := by
    intro n header hheader
    simp only [forkClient] at hheader
    split_ifs at hheader with h0 h1
    · rw [Except.ok.injEq, Option.some.injEq] at hheader
      exact ⟨0, (forkChain_onBranch 0).2 (Or.inl rfl), hheader.symm⟩
    · rw [Except.ok.injEq, Option.some.injEq] at hheader
      exact ⟨1, (forkChain_onBranch 1).2 (Or.inr rfl), hheader.symm⟩
    · cases hheader

/-- Hashes that tell apart the blocks of the fork, which have the same number. -/
def forkConfig : Config ℕ :=
  { countingConfig with
    hashing := { numberHashing with
      headerHash := fun h => BitVec.ofNat 256 (h.number.val + h.timestamp.toNat) } }

/-- The state that `store_block` makes the Ethereum block of a block of the fork from. -/
def forkBody (b : Fin 3) : State ℕ :=
  { genesisState 0 (if b = 2 then 1 else 0) with
    blockNumber := (forkChain.header b).number
    pending := (if b = 0 then [] else if b = 1 then [7, 8] else [7]).map fun nonce =>
      (callWithNonce nonce, ⟨BitVec.ofNat 256 nonce.val, 0, 0, none, none, [], 0⟩, ⟨1, 0, 0, []⟩) }

def forkHeader (b : Fin 3) : Header := (buildBlock forkConfig (forkBody b) 0).header

theorem forkChain_ethereumHeader (b : Fin 3) : EthereumHeader forkConfig forkChain b (forkHeader b) := by
  have hnone : ∀ item ∈ ([] : Digest), ∃ engine data, item = .seal engine data :=
    fun _ h => absurd h List.not_mem_nil
  match b with
  | 0 => exact ⟨forkBody 0, _, _, rfl, rfl, rfl, rfl, rfl⟩
  | 1 => exact ⟨forkBody 1, _, _, rfl, rfl, rfl, rfl, rfl, [], hnone, rfl⟩
  | 2 => exact ⟨forkBody 2, _, _, rfl, rfl, rfl, rfl, rfl, [], hnone, rfl⟩

end Shadows.Rpc
