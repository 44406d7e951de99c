import Shadows.Rpc.ChainQueries
import Shadows.Rpc.LogQueries

/-!
# Logs from execution to clients

The logs that the executor has emitted in a block are in its receipts. A query by hash or by numbers reads
them where the runtime has stored them.
-/

namespace Shadows.Rpc

open MappingSync Ethereum

variable {Hash W : Type}

/-- The logs of the receipts of a block that the filter matches, with their places. -/
def executedLogs (cfg : Config W) (filter : Filter) (st : State W) : List Log :=
  match st.currentBlock with
  | some block =>
    (acceptedPositions filter (positions 0 0 (st.pending.map fun entry => entry.2.2.logs))).map
      fun position => position.placed cfg.hashing block (.ofNat position.transactionIndex)
  | none => []

/-- `current_all` at a state. -/
def currentAllOf (st : State W) :
    Option Block × Option (List Receipt) × Option (List TransactionStatus) :=
  (st.currentBlock, st.currentReceipts, st.currentTransactionStatuses)

/-- By number, the runtime API answers with the states of the blocks on the branch of the best block. -/
def RuntimeApi.ReadsBranch (api : RuntimeApi) (chain : Chain Hash) (best : Hash)
    (state : Hash → State W) : Prop :=
  ∀ b, chain.lineage.OnBranch best b →
    api.currentAll (chain.header b).number = .ok (currentAllOf (state b))

/-! ## The line -/

/-- The API reads the blocks of the line. -/
def lineRuntimeApi : RuntimeApi where
  currentBlock := fun n => .ok (lineRead State.currentBlock (.number n))
  currentAll := fun n =>
    if h : n.toNat < 3 then .ok (currentAllOf (lineStates ⟨n.toNat, h⟩))
    else .error "unknown block"

end Shadows.Rpc
