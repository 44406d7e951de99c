import Shadows.Foundations.BackwardWalk
import Shadows.MappingSync.SyncOneBlock
import Shadows.Db.WriteLog

/-!
# Runs of the mapping sync

A `Chain` fixes the header of every possible block. The blocks imported so far form a tree of its
lineage; a run interleaves imports with calls of `sync_one_block`. A call meets no error if the
client serves the tree and both commits succeed, and it is interrupted if the process stops, or the
second commit fails, between the two commits.
-/

namespace Shadows.MappingSync

open Db Consensus Foundations

/-- The headers of all possible blocks and the Ethereum block of the genesis state. A block is
identified by the hash of its header. -/
structure Chain (Hash : Type) where
  genesis : Hash
  header : Hash → SubstrateHeader Hash
  genesisBlock : Block
  header_hash : ∀ b, (header b).hash = b
  genesis_number : (header genesis).number = 0

namespace Chain

variable {Hash : Type} (chain : Chain Hash)

def parent (b : Hash) : Hash := (chain.header b).parentHash

def lineage : Lineage Hash where
  root := chain.genesis
  parent := chain.parent
  depth := fun b => (chain.header b).number.toNat
  depth_root := by rw [chain.genesis_number]; rfl

variable [DecidableEq Hash]

/-- The Ethereum hashes that the digest of a block, or the genesis state, names. -/
def hashes (hashing : Hashing) (b : Hash) : Hashes :=
  if b = chain.genesis then ⟨hashing.headerHash chain.genesisBlock.header, []⟩
  else match findLog (chain.header b).digest with
    | .ok log => log.intoHashes hashing
    | .error _ => ⟨0, []⟩

def commitment (hashing : Hashing) (b : Hash) : MappingCommitment Hash :=
  ⟨b, (chain.hashes hashing b).blockHash, (chain.hashes hashing b).transactionHashes⟩

theorem map_blockHash_commitment (hashing : Hashing) (blocks : List Hash) :
    (blocks.map (chain.commitment hashing)).map (·.blockHash) = blocks := by
  rw [List.map_map]
  exact List.map_id blocks

end Chain

variable {Hash : Type}

/-- The client knows the blocks of the tree: `leaves()` gives its childless blocks, in some order,
and every block of the tree has its header. -/
structure Client.Serves (client : Client Hash) (chain : Chain Hash) (tree : Finset Hash) :
    Prop where
  leaves : ∃ ls, client.leaves = .ok ls ∧ ∀ b, b ∈ ls ↔ chain.lineage.IsLeaf tree b
  header : ∀ b ∈ tree, client.header b = .ok (some (chain.header b))
  currentBlock : client.currentBlock chain.genesis = .ok (some chain.genesisBlock)

def Commits.succeed : Commits := ⟨.ok (), .ok ()⟩

/-- The mapping of the block is committed and the tips are not: the commit of the tips fails, or the
process stops before it. -/
def Commits.interrupted (e : String) : Commits := ⟨.ok (), .error e⟩

/-- The state of a run: the imported blocks, the database, and, for the record, the blocks written
to the mapping in the order they were written. -/
structure SyncState (Hash : Type) where
  tree : Finset Hash
  db : Database Hash
  written : List Hash

variable [DecidableEq Hash]

namespace SyncState

/-- Nothing but the genesis block is imported and nothing is written. -/
def init (chain : Chain Hash) : SyncState Hash := ⟨{chain.genesis}, Database.empty, []⟩

def sync (hashing : Hashing) (client : Client Hash) (commits : Commits) (s : SyncState Hash) :
    SyncState Hash where
  tree := s.tree
  db := (syncOneBlock hashing client commits s.db).2
  written := match selectTip client s.db with
    | .ok (.operate operatingTip _) => s.written ++ [operatingTip]
    | _ => s.written

end SyncState

/-- The steps of a run; `mayInterrupt` says which calls may be interrupted. -/
inductive Step (hashing : Hashing) (chain : Chain Hash)
    (mayInterrupt : Database Hash → Client Hash → Prop) :
    SyncState Hash → SyncState Hash → Prop where
  /-- A block whose parent is known is imported; the import has checked its digest. -/
  | import (s : SyncState Hash) (b : Hash) (hparent : chain.parent b ∈ s.tree)
      (hnumber : (chain.header b).number.toNat = (chain.header (chain.parent b)).number.toNat + 1)
      (hlog : ensureLog (chain.header b).digest = .ok ()) :
      Step hashing chain mayInterrupt s { s with tree := insert b s.tree }
  /-- A call of `sync_one_block` that meets no error. -/
  | sync (s : SyncState Hash) (client : Client Hash) (hclient : client.Serves chain s.tree) :
      Step hashing chain mayInterrupt s (s.sync hashing client .succeed)
  /-- A call of `sync_one_block` that is interrupted between its two commits. -/
  | interrupt (s : SyncState Hash) (client : Client Hash) (e : String)
      (hclient : client.Serves chain s.tree) (hmay : mayInterrupt s.db client) :
      Step hashing chain mayInterrupt s (s.sync hashing client (.interrupted e))

/-- The states of the runs from an empty database. -/
def Reachable (hashing : Hashing) (chain : Chain Hash)
    (mayInterrupt : Database Hash → Client Hash → Prop) (s : SyncState Hash) : Prop :=
  Relation.ReflTransGen (Step hashing chain mayInterrupt) (SyncState.init chain) s

def NoInterrupt (_ : Database Hash) (_ : Client Hash) : Prop := False

/-- `is_synced` answers true. -/
def Synced (db : Database Hash) (b : Hash) : Prop := MappingDb.isSynced db b = .ok true

/-- The parent of every synced block other than genesis is synced or among the persisted tips. -/
def ParentsCovered (chain : Chain Hash) (db : Database Hash) : Prop :=
  ∀ b, Synced db b → b ≠ chain.genesis → Synced db (chain.parent b) ∨
    ∃ tips, MetaDb.currentSyncingTips db = .ok tips ∧ chain.parent b ∈ tips

/-- The state before an interrupted call is harmless: the block the call goes for, which is the last
one on the stack that is not synced (the persisted tips, or the leaves if there are none), is the
genesis block or has a parent that is synced or persisted already. -/
def ParentKept (chain : Chain Hash) (db : Database Hash) (client : Client Hash) : Prop :=
  ∀ tips leaves rest b dropped, MetaDb.currentSyncingTips db = .ok tips → client.leaves = .ok leaves →
    (if tips.isEmpty then leaves else tips) = rest ++ b :: dropped → (∀ x ∈ dropped, Synced db x) →
    ¬ Synced db b → b = chain.genesis ∨ Synced db (chain.parent b) ∨ chain.parent b ∈ tips

/-- The blocks of the tree that `is_synced` denies. -/
def unsynced (s : SyncState Hash) : Finset Hash :=
  s.tree.filter fun b => MappingDb.isSynced s.db b = .ok false

/-- The database after `k` calls of `sync_one_block` that meet no error. -/
def afterCalls (hashing : Hashing) (clients : ℕ → Client Hash) (db : Database Hash) :
    ℕ → Database Hash
  | 0 => db
  | k + 1 => (syncOneBlock hashing (clients k) .succeed (afterCalls hashing clients db k)).2

def callResult (hashing : Hashing) (clients : ℕ → Client Hash) (db : Database Hash) (k : ℕ) :
    Except String Bool :=
  (syncOneBlock hashing (clients k) .succeed (afterCalls hashing clients db k)).1

/-! ## A chain of three blocks -/

/-- The digest of a block whose post log names the hash `e` and the transactions `txs`. -/
def postDigest (e : H256) (txs : List H256) : Digest :=
  [.consensus shadowsEngineId (.encoded (.hashes ⟨e, txs⟩))]

/-- There are blocks, which their literals need. -/
instance threeBlocks : NeZero 3 := ⟨Nat.succ_ne_zero 2⟩

/-- Genesis `0` with its child `1` and grandchild `2`, which contains a transaction. -/
def lineChain : Chain (Fin 3) where
  genesis := 0
  header := fun b => ⟨b, b - 1, UInt32.ofNat b.val,
    postDigest (BitVec.ofNat 256 b.val) (if b = 2 then [7] else [])⟩
  genesisBlock := ⟨emptyHeader 0, [], []⟩
  header_hash := fun _ => rfl
  genesis_number := rfl

def lineClient : Client (Fin 3) where
  leaves := .ok [2]
  header := fun b => .ok (some (lineChain.header b))
  currentBlock := fun _ => .ok (some lineChain.genesisBlock)

theorem lineClient_serves : lineClient.Serves lineChain {2, 1, 0} where
  leaves := ⟨[2], rfl, by decide⟩
  header := fun _ _ => rfl
  currentBlock := rfl

/-- All three blocks are imported and nothing is written. -/
def lineState : SyncState (Fin 3) := ⟨{2, 1, 0}, Database.empty, []⟩

theorem lineState_reachable (mayInterrupt : Database (Fin 3) → Client (Fin 3) → Prop) :
    Reachable numberHashing lineChain mayInterrupt lineState := by
  have h1 : Step numberHashing lineChain mayInterrupt (SyncState.init lineChain)
      ⟨{1, 0}, Database.empty, []⟩ :=
    .import (SyncState.init lineChain) 1 (by decide) (by decide) (by decide)
  have h2 : Step numberHashing lineChain mayInterrupt ⟨{1, 0}, Database.empty, []⟩ lineState :=
    .import ⟨{1, 0}, Database.empty, []⟩ 2 (by decide) (by decide) (by decide)
  exact (Relation.ReflTransGen.single h1).tail h2

/-- The state after a first call that meets no error. -/
def lineSynced : SyncState (Fin 3) := lineState.sync numberHashing lineClient .succeed

theorem lineSynced_reachable (mayInterrupt : Database (Fin 3) → Client (Fin 3) → Prop) :
    Reachable numberHashing lineChain mayInterrupt lineSynced :=
  (lineState_reachable mayInterrupt).tail (.sync lineState lineClient lineClient_serves)

end Shadows.MappingSync
