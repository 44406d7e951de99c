import Shadows.Db.MappingDb
import Mathlib.Data.List.Basic

/-!
# The mapping database as a log of commitments

Seen from outside, the mapping columns are a view of the list of the commitments written so far, in
order: `Represents log db` says that the three readers answer from `log`.
-/

namespace Shadows.Db

variable {Hash : Type} [DecidableEq Hash]

/-- The last position of `t` in a list whose first element has position `i`. A `write_hashes` that
meets a transaction hash twice keeps only the entry for its last position. -/
def lastPosition (t : H256) : ℕ → List H256 → Option ℕ
  | _, [] => none
  | i, x :: rest => (lastPosition t (i + 1) rest).or (if x = t then some i else none)

namespace MappingCommitment

/-- The entry for the transaction hash `t` at position `i` of a commitment. -/
def entry (c : MappingCommitment Hash) (i : ℕ) : TransactionMetadata Hash :=
  ⟨c.blockHash, c.ethereumBlockHash, UInt32.ofNat i⟩

/-- The entries a commitment adds under the transaction hash `t`: at most one. -/
def entries (t : H256) (c : MappingCommitment Hash) : List (TransactionMetadata Hash) :=
  ((lastPosition t 0 c.ethereumTransactionHashes).map c.entry).toList

end MappingCommitment

/-- The readers of `db` answer from the log of commitments `log`. -/
structure Represents (log : List (MappingCommitment Hash)) (db : Database Hash) : Prop where
  isSynced : ∀ b, MappingDb.isSynced db b = .ok (decide (b ∈ log.map (·.blockHash)))
  blockHashes : ∀ e, MappingDb.blockHashes db e =
    .ok ((log.filter (·.ethereumBlockHash = e)).map (·.blockHash))
  transactionMetadata : ∀ t, MappingDb.transactionMetadata db t = .ok (log.flatMap (·.entries t))

end Shadows.Db
