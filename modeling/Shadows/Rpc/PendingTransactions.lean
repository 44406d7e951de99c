import Shadows.Foundations.Lifetimes
import Shadows.Foundations.Runs
import Shadows.Rpc.ExecutionFailure
import Shadows.Rpc.RichBlocks
import Std.Data.HashMap.Lemmas

/-!
# Pending transactions

A transaction that a client has sent is shown as pending from the time the transaction pool has taken it.
`pending_transaction_task` removes it when a block contains it, or when it has been there for too long.
-/

namespace Shadows.Rpc

open Consensus Foundations

structure PendingTransaction where
  transaction : RpcTransaction
  atBlock : UInt64
  deriving DecidableEq

/-- `PendingTransactions`, under its lock. -/
abbrev PendingTransactions := Std.HashMap H256 PendingTransaction

section Methods

variable (codec : BlockCodec)

/-- `PendingTransaction::new`, from the number that `send_transaction` has read before it submits the
transaction to the pool. -/
def PendingTransaction.new (transaction : Transaction) (number : UInt32) : PendingTransaction where
  transaction := transactionBuild codec transaction none none
  atBlock := number.toUInt64

/-- What `send_transaction` and `send_raw_transaction` do when the pool has answered: their response. -/
def submitted (transaction : Transaction) (number : UInt32) (answer : Except String Unit)
    (pending : PendingTransactions) : Except RpcFailure H256 × PendingTransactions :=
  let transactionHash := codec.hashing.transactionHash transaction
  match answer with
  | .ok () => (.ok transactionHash, pending.insert transactionHash (.new codec transaction number))
  | .error err => (.error (internalErr ("submit transaction to pool failed: " ++ err)), pending)

/-- The hashes of a block, as far as its digest says. -/
def postHashes (digest : Digest) : Option Hashes :=
  (findLog digest).toOption.map fun log => log.intoHashes codec.hashing

/-- What `pending_transaction_task` does at the notification of a block. -/
def retainPending (retainThreshold : UInt64) (digest : Digest) (number : UInt32)
    (pending : PendingTransactions) : PendingTransactions :=
  let pending := match postHashes codec digest with
    | some postHashes => pending.filter fun k _ => !postHashes.transactionHashes.contains k
    | none => pending
  let importedNumber := number.toUInt64
  pending.filter fun _ v =>
    let lifespanLimit := v.atBlock + retainThreshold
    lifespanLimit > importedNumber

end Methods

/-! ## Runs -/

/-- The best number of a node, its pending transactions, and the transactions that it has submitted to the
pool, each with the number that it has read before. -/
structure PendingState where
  bestNumber : UInt32
  pending : PendingTransactions
  inFlight : List (Transaction × UInt32)

def PendingState.init (bestNumber : UInt32) : PendingState := ⟨bestNumber, ∅, []⟩

inductive PendingEvent where
  /-- There is a new best block. -/
  | best (number : UInt32)
  /-- The task gets the notification of an imported block. -/
  | notified (digest : Digest) (number : UInt32)
  /-- A request reads the best number and submits a transaction. -/
  | submit (transaction : Transaction)
  /-- The pool answers. -/
  | answered (transaction : Transaction) (number : UInt32) (answer : Except String Unit)
      (response : Except RpcFailure H256)

/-- The steps of a node, in any order. The pool may answer a request after blocks have been imported, also
after one that contains the transaction. -/
inductive PendingStep (codec : BlockCodec) (retainThreshold : UInt64) :
    PendingState → PendingEvent → PendingState → Prop
  | best (s : PendingState) (number : UInt32) :
      PendingStep codec retainThreshold s (.best number) { s with bestNumber := number }
  | notified (s : PendingState) (digest : Digest) (number : UInt32) :
      PendingStep codec retainThreshold s (.notified digest number)
        { s with pending := retainPending codec retainThreshold digest number s.pending }
  | submit (s : PendingState) (transaction : Transaction) :
      PendingStep codec retainThreshold s (.submit transaction)
        { s with inFlight := s.inFlight ++ [(transaction, s.bestNumber)] }
  | answered (s : PendingState) (transaction : Transaction) (number : UInt32)
      (answer : Except String Unit) (hflight : (transaction, number) ∈ s.inFlight) :
      PendingStep codec retainThreshold s
        (.answered transaction number answer (submitted codec transaction number answer s.pending).1)
        { s with
          pending := (submitted codec transaction number answer s.pending).2
          inFlight := s.inFlight.erase (transaction, number) }

/-! ## How long a transaction is pending -/

section Lifetime

variable (codec : BlockCodec) (retainThreshold : UInt64)

/-- The pool has taken a transaction with this hash. -/
def PendingEvent.Takes (hash : H256) : PendingEvent → Prop
  | .answered transaction _ (.ok ()) _ => codec.hashing.transactionHash transaction = hash
  | _ => False

/-- The block of the notification contains the transaction, or the lifespan from the block `number` is
over. -/
def PendingEvent.Ends (hash : H256) (number : UInt32) : PendingEvent → Prop
  | .notified digest imported =>
    (∃ hashes, postHashes codec digest = some hashes ∧ hash ∈ hashes.transactionHashes) ∨
      number.toNat + retainThreshold.toNat ≤ imported.toNat
  | _ => False

/-- The pool takes the transaction of the entry in the run, and then no other one with the hash and no
notification ends its stay. -/
def StaysPending (hash : H256) (entry : PendingTransaction)
    (run : List (PendingEvent × PendingState)) : Prop :=
  ∃ before transaction number response s after,
    run = before ++ (.answered transaction number (.ok ()) response, s) :: after ∧
      codec.hashing.transactionHash transaction = hash ∧ entry = .new codec transaction number ∧
        ∀ step ∈ after, ¬ step.1.Takes codec hash ∧ ¬ step.1.Ends codec retainThreshold hash number

end Lifetime

end Shadows.Rpc
