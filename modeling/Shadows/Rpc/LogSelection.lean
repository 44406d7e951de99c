import Shadows.Rpc.LogQueries

/-!
# The blocks of a query and the order of its logs

`logs` looks at the block that `block_hash` names, if there is one, and else at a range of blocks;
`filter_logs` and `filter_changes` always look at a range. Here is said which blocks these are, and
which order of the logs is that of the chain.
-/

namespace Shadows.Rpc

open Foundations

section Selection

variable {Hash : Type} [DecidableEq Hash] (eth : EthApi Hash)

/-- The blocks that the lookups take for canonical are those of the chain up to `best`, and the state
of such a block is read alike by its hash and by its number. -/
def EthApi.ReadsAlike
    (currentAllAt : Hash →
      Except String (Option Block × Option (List Receipt) × Option (List TransactionStatus)))
    (chain : GrowingChain) (best : UInt32) : Prop :=
  ∀ id n, isCanon eth.client id = true → eth.client.number id = .ok (some n) → n ≤ best ∧
    currentAllAt id =
      .ok ((chain.blockAt n).block, (chain.blockAt n).receipts, (chain.blockAt n).statuses)

/-- An Ethereum hash names the block `n`. -/
def EthApi.Names (hash : H256) (n : UInt32) : Prop :=
  ∃ id, loadHash eth.client eth.backend hash = .ok (some id) ∧ eth.client.number id = .ok (some n)

/-- The block `n` is in the range of a filter. -/
def Filter.InRange (filter : Filter) (best n : UInt32) : Prop :=
  filter.lowest best ≤ n.toNat ∧ n.toNat ≤ filter.highest best

/-- The hash can be looked up, and a block that is only named by it, or only in the range of the
filter, has no log that the filter matches. -/
structure EthApi.SelectsAlike (hashing : Hashing) (chain : GrowingChain) (best : UInt32)
    (filter : Filter) (hash : H256) : Prop where
  readable : ∃ hashes, Db.MappingDb.blockHashes eth.backend hash = .ok hashes
  unmatched : ∀ n, ¬ (eth.Names hash n ↔ filter.InRange best n) →
    chainLogs hashing chain filter n = []

end Selection

/-! ## The order of the chain -/

/-- A log is before another one: in an earlier block, or in the same one with a smaller index. -/
def Log.Before (a b : Log) : Prop :=
  ∃ m ∈ a.blockNumber, ∃ n ∈ b.blockNumber,
    m < n ∨ m = n ∧ ∃ i ∈ a.logIndex, ∃ j ∈ b.logIndex, i < j

instance : DecidableRel Log.Before := fun a b =>
  inferInstanceAs (Decidable (∃ m ∈ a.blockNumber, ∃ n ∈ b.blockNumber, _))

/-- The logs are in the order of the chain. -/
abbrev InChainOrder (logs : List Log) : Prop := logs.Pairwise Log.Before

/-- The logs of a block that the filter matches have ascending numbers, although these wrap around
at 32 bits. -/
def NumberedInOrder (filter : Filter) (statuses : List TransactionStatus) : Prop :=
  (acceptedPositions filter (positions 0 0 (statuses.map TransactionStatus.logs))).Pairwise
    fun p q => UInt32.ofNat p.logIndex < UInt32.ofNat q.logIndex

def ChainBlock.NumberedInOrder (filter : Filter) (b : ChainBlock) : Prop :=
  ∀ block ∈ b.block, ∀ statuses ∈ b.statuses, Rpc.NumberedInOrder filter statuses

/-- All logs that the filter matches in the blocks from `lo` to `hi` are in one of them, and there
they have ascending numbers. -/
structure InOneBlock (hashing : Hashing) (chain : GrowingChain) (filter : Filter) (lo hi : ℕ) :
    Prop where
  single : ∀ m ∈ descending lo hi, ∀ n ∈ descending lo hi,
    chainLogs hashing chain filter m ≠ [] → chainLogs hashing chain filter n ≠ [] → m = n
  numbered : ∀ n ∈ descending lo hi, (chain.blockAt n).NumberedInOrder filter

/-! ## A node with the blocks `0`, `1` and `2` -/

/-- The hash of a Substrate block is its number. -/
def loggedEth : EthApi UInt32 where
  client :=
    { number := fun id => .ok (if id ≤ 2 then some id else none)
      headerByNumber := fun n => .ok (if n ≤ 2 then some ⟨n, n - 1, n, []⟩ else none) }
  backend :=
    (Db.MappingDb.writeHashes (.ok ()) ⟨1, 1, [0]⟩ Db.Database.empty).2
  onchainStorageSchema := fun _ => .undefined
  overrides := fun _ => none
  fallback :=
    { currentBlock := fun id => (loggedChain.blockAt id).block
      currentReceipts := fun id => (loggedChain.blockAt id).receipts
      currentTransactionStatuses := fun id => (loggedChain.blockAt id).statuses }

/-- A filter for the logs of the block `1`. -/
def secondBlock : Filter := { anyLog with blockHash := some 1 }

/-- A filter that names the block `1` and has a range with no other block. -/
def secondBlockOnly : Filter :=
  { secondBlock with fromBlock := some (.num 1), toBlock := some (.num 1) }

/-- A filter for all logs from the block `0` on. -/
def fromGenesis : Filter := { anyLog with fromBlock := some (.num 0) }

end Shadows.Rpc
