import Shadows.MappingSync.SyncBlocks

/-!
# The worker of the mapping sync

`MappingSyncWorker` is a stream that is polled when a block has been imported and when its delay has run
out. A poll runs a batch of calls, and remembers whether the batch has synced a block.
-/

namespace Shadows.MappingSync

open Db Consensus Foundations

/-- `LIMIT`. -/
def batchLimit : ℕ := 8

/-- `MappingSyncWorker`, as far as a poll changes it. Of the inner delay it is kept whether there is
one. -/
structure MappingSyncWorker where
  innerDelay : Bool
  haveNext : Bool
  deriving DecidableEq

def MappingSyncWorker.new : MappingSyncWorker := ⟨false, true⟩

/-- `Poll<Option<()>>`. -/
inductive Poll where
  | pending
  | ready (item : Option Unit)
  deriving DecidableEq

/-- What a poll meets: the notifications in the stream, whether the stream has ended behind them,
whether the delay has run out, and the iterations of the batch. -/
structure PollInput (Hash : Type) where
  notifications : ℕ
  ended : Bool
  elapsed : Bool
  batch : List (Iteration Hash)

/-- The loop over the notifications: whether there has been one, unless the stream has ended. -/
def drainNotifications (ended : Bool) : ℕ → Bool → Option Bool
  | 0, fire => if ended then none else some fire
  | n + 1, _ => drainNotifications ended n true

variable {Hash : Type} [DecidableEq Hash]

/-- `poll_next`: its answer, the worker and the database after it. -/
def pollNext (hashing : Hashing) (input : PollInput Hash) (worker : MappingSyncWorker)
    (db : Database Hash) : Poll × MappingSyncWorker × Database Hash :=
  match drainNotifications input.ended input.notifications false with
  | none => (.ready none, worker, db)
  | some notified =>
    -- without a delay, `get_or_insert_with` puts a new one
    if notified || input.elapsed || worker.haveNext then
      match syncBlocks hashing input.batch db with
      | (.ok haveNext, db) => (.ready (some ()), ⟨false, haveNext⟩, db)
      | (.error _, db) => (.ready (some ()), ⟨false, false⟩, db)
    else (.pending, ⟨true, worker.haveNext⟩, db)

/-! ## A node with its worker -/

/-- The blocks that have been imported, the database, the worker, and the notifications that wait for
it. -/
structure NodeState (Hash : Type) where
  tree : Finset Hash
  db : Database Hash
  worker : MappingSyncWorker
  notifications : ℕ

/-- A new node, which has imported the genesis block only. -/
def NodeState.init (chain : Chain Hash) : NodeState Hash :=
  ⟨{chain.genesis}, Database.empty, .new, 0⟩

/-- A block that the node may import: its parent is known, and the import has checked its digest. -/
structure Importable (chain : Chain Hash) (tree : Finset Hash) (b : Hash) : Prop where
  parent_mem : chain.parent b ∈ tree
  number_parent : (chain.header b).number.toNat = (chain.header (chain.parent b)).number.toNat + 1
  logged : ensureLog (chain.header b).digest = .ok ()

section Runs

variable (hashing : Hashing) (chain : Chain Hash)

-- whether the client notifies of the import of a block
variable (notifies : Hash → Bool)

/-- What happens while a batch runs on the blocks `tree`: blocks are imported between its calls, so that
they are `tree'` in the end, and `n` notifications have been sent. Every call of the batch meets a client
that serves the blocks that there are, and no error. -/
inductive BatchRun : Finset Hash → List (Iteration Hash) → ℕ → Finset Hash → Prop
  | done (tree : Finset Hash) : BatchRun tree [] 0 tree
  | import {tree tree' : Finset Hash} {batch : List (Iteration Hash)} {n : ℕ} (b : Hash)
      (hb : Importable chain tree b) (hrest : BatchRun (insert b tree) batch n tree') :
      BatchRun tree batch (n + (notifies b).toNat) tree'
  | call {tree tree' : Finset Hash} {batch : List (Iteration Hash)} {n : ℕ} (client : Client Hash)
      (hclient : client.Serves chain tree) (hrest : BatchRun tree batch n tree') :
      BatchRun tree (⟨client, .succeed⟩ :: batch) n tree'

/-- The steps of a node, without errors. -/
inductive NodeStep : NodeState Hash → NodeState Hash → Prop
  | import (s : NodeState Hash) (b : Hash) (hb : Importable chain s.tree b) :
      NodeStep s
        { s with tree := insert b s.tree, notifications := s.notifications + (notifies b).toNat }
  /-- The worker is polled, and meanwhile blocks are imported. -/
  | poll (s : NodeState Hash) (elapsed : Bool) (batch : List (Iteration Hash)) (n : ℕ)
      (tree : Finset Hash) (hlimit : batch.length = batchLimit)
      (hrun : BatchRun chain notifies s.tree batch n tree) :
      NodeStep s
        { tree := tree
          db := (pollNext hashing ⟨s.notifications, false, elapsed, batch⟩ s.worker s.db).2.2
          worker := (pollNext hashing ⟨s.notifications, false, elapsed, batch⟩ s.worker s.db).2.1
          notifications := n }

/-- The states of the runs of a node. -/
def NodeReachable (s : NodeState Hash) : Prop :=
  Relation.ReflTransGen (NodeStep hashing chain notifies) (NodeState.init chain) s

end Runs

/-! ## Poll by poll -/

/-- The worker and the database after some polls. -/
def afterPolls (hashing : Hashing) (inputs : ℕ → PollInput Hash) (worker : MappingSyncWorker)
    (db : Database Hash) : ℕ → MappingSyncWorker × Database Hash
  | 0 => (worker, db)
  | k + 1 => (pollNext hashing (inputs k) (afterPolls hashing inputs worker db k).1
      (afterPolls hashing inputs worker db k).2).2

def pollAnswer (hashing : Hashing) (inputs : ℕ → PollInput Hash) (worker : MappingSyncWorker)
    (db : Database Hash) (k : ℕ) : Poll :=
  (pollNext hashing (inputs k) (afterPolls hashing inputs worker db k).1
    (afterPolls hashing inputs worker db k).2).1

/-- The blocks of a tree that `is_synced` denies. -/
def unsyncedIn (tree : Finset Hash) (db : Database Hash) : Finset Hash :=
  tree.filter fun b => MappingDb.isSynced db b = .ok false

/-- Polls of a node on which nothing is imported any more: each meets clients that serve its blocks and
no errors, and none but the first finds notifications. -/
structure QuietPolls (chain : Chain Hash) (s : NodeState Hash) (inputs : ℕ → PollInput Hash) : Prop where
  notifications : ∀ k, (inputs k).notifications = if k = 0 then s.notifications else 0
  running : ∀ k, (inputs k).ended = false
  limit : ∀ k, (inputs k).batch.length = batchLimit
  served : ∀ k, ∀ it ∈ (inputs k).batch, it.client.Serves chain s.tree ∧ it.commits = .succeed

/-- Something makes the poll fire: a notification, the delay, or a batch that had something to do. -/
def Fires (s : NodeState Hash) (input : PollInput Hash) : Prop :=
  0 < s.notifications ∨ input.elapsed = true ∨ s.worker.haveNext = true

/-! ## The node on the chain of three blocks -/

/-- All three blocks are imported, with `n` notifications, and nobody has polled the worker. -/
def lineNode (n : ℕ) : NodeState (Fin 3) := ⟨{2, 1, 0}, Database.empty, .new, n⟩

/-- Polls on these blocks before the delay runs out, without any notification. -/
def lineInputs (_k : ℕ) : PollInput (Fin 3) :=
  ⟨0, false, false, List.replicate batchLimit ⟨lineClient, .succeed⟩⟩

end Shadows.MappingSync
