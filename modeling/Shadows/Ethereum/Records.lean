import Shadows.Ethereum.Blocks

/-!
# What a block records of its transactions

A transaction that has been executed is recorded three times, by the status and the receipt of its entry
of `Pending`, which the Ethereum block is stored with, and by an event. They tell what the runner has
returned for it.
-/

namespace Shadows

/-- The account that a transaction calls. -/
def TransactionAction.target : TransactionAction → Option H160
  | .call target => some target
  | .create => none

end Shadows

namespace Shadows.Ethereum

variable {W : Type}

/-! ## One transaction -/

/-- What the runner returns for a transaction: the exit reason, the contract of a creation, the gas used and
the logs. -/
structure Outcome where
  exitReason : ExitReason
  created : Option H160
  usedGas : U256
  logs : List Shadows.Log

/-- The runner is given a transaction of `source` and returns an error or an outcome. -/
inductive Ran (cfg : Config W) (source : H160) (transaction : Transaction) (world : W) :
    Except EvmError Outcome → W → Prop where
  | call (target : H160) (result : Except EvmError (ExecutionInfo Bytes)) (world' : W)
      (haction : transaction.action = .call target)
      (h : cfg.runner.call source target transaction.input transaction.value
        transaction.gasLimit.lowU64 (some transaction.gasPrice) (some transaction.nonce) world =
          some (result, world')) :
      Ran cfg source transaction world
        (result.map fun info => ⟨info.exitReason, none, info.usedGas, info.logs⟩) world'
  | create (result : Except EvmError (ExecutionInfo H160)) (world' : W)
      (haction : transaction.action = .create)
      (h : cfg.runner.create source transaction.input transaction.value transaction.gasLimit.lowU64
        (some transaction.gasPrice) (some transaction.nonce) world = some (result, world')) :
      Ran cfg source transaction world
        (result.map fun info => ⟨info.exitReason, some info.value, info.usedGas, info.logs⟩) world'

/-- The entry and the event of a transaction of `source` tell its outcome. The event of a call names the
zero address, and not the target. -/
structure Recorded (cfg : Config W) (source : H160) (outcome : Outcome)
    (entry : Transaction × TransactionStatus × Receipt) (event : Event) : Prop where
  signer : entry.2.1.from = source
  target : entry.2.1.to = entry.1.action.target
  created : entry.2.1.contractAddress = outcome.created
  transactionHash : entry.2.1.transactionHash = cfg.hashing.transactionHash entry.1
  statusLogs : entry.2.1.logs = outcome.logs
  logs : entry.2.2.logs = outcome.logs
  usedGas : entry.2.2.usedGas = outcome.usedGas
  stateRoot : entry.2.2.stateRoot = if outcome.exitReason = .succeed then 1 else 0
  executed : event = .executed source (outcome.created.getD 0) (cfg.hashing.transactionHash entry.1)
    outcome.exitReason

/-! ## A block -/

/-- The extrinsics of a block, one after the other, on the state of the other pallets, with the entries and
the events of the transactions among them for which the runner has returned an outcome. -/
inductive Executed (cfg : Config W) : List (Extrinsic W) → W →
    List (Transaction × TransactionStatus × Receipt) → List Event → W → Prop where
  | nil (world : W) : Executed cfg [] world [] [] world
  | other {effect : W → W} {rest : List (Extrinsic W)} {world world' : W}
      {entries : List (Transaction × TransactionStatus × Receipt)} {events : List Event}
      (h : Executed cfg rest (effect world) entries events world') :
      Executed cfg (.other effect :: rest) world entries events world'
  | unsigned {transaction : Transaction} {rest : List (Extrinsic W)} {world world' : W}
      {entries : List (Transaction × TransactionStatus × Receipt)} {events : List Event}
      (hsigner : recoverSigner cfg transaction = none)
      (h : Executed cfg rest world entries events world') :
      Executed cfg (.transact transaction :: rest) world entries events world'
  | failed {transaction : Transaction} {rest : List (Extrinsic W)} {world mid world' : W}
      {entries : List (Transaction × TransactionStatus × Receipt)} {events : List Event} {source : H160}
      {e : EvmError} (hsigner : recoverSigner cfg transaction = some source)
      (hran : Ran cfg source transaction world (.error e) mid)
      (h : Executed cfg rest mid entries events world') :
      Executed cfg (.transact transaction :: rest) world entries events world'
  | executed {transaction : Transaction} {status : TransactionStatus} {receipt : Receipt} {event : Event}
      {rest : List (Extrinsic W)} {world mid world' : W}
      {entries : List (Transaction × TransactionStatus × Receipt)} {events : List Event} {source : H160}
      {outcome : Outcome} (hsigner : recoverSigner cfg transaction = some source)
      (hran : Ran cfg source transaction world (.ok outcome) mid)
      (hrecorded : Recorded cfg source outcome (transaction, status, receipt) event)
      (h : Executed cfg rest mid entries events world') :
      Executed cfg (.transact transaction :: rest) world ((transaction, status, receipt) :: entries)
        (event :: events) world'

/-- Behind the extrinsics by which `i` transactions have been executed, the runner is given the next one, of
`source`, on the state `before`, and returns `outcome` and the state `after`. -/
structure ExecutedAt (cfg : Config W) (extrinsics : List (Extrinsic W)) (world : W) (i : ℕ)
    (transaction : Transaction) (source : H160) (before : W) (outcome : Outcome) (after : W) : Prop where
  behind : ∃ earlier later entries events, extrinsics = earlier ++ .transact transaction :: later ∧
    entries.length = i ∧ Executed cfg earlier world entries events before
  signer : recoverSigner cfg transaction = some source
  ran : Ran cfg source transaction before (.ok outcome) after

/-- What is stored of a block whose accepted transactions are `accepted`: the entries of `Pending`, taken
apart, at their positions. -/
structure BlockRecords (accepted : List Transaction) (st : State W) : Prop where
  transactions : st.pending.map (fun entry => entry.1) = accepted
  currentBlock : st.currentBlock.map Block.transactions = some accepted
  statuses : st.currentTransactionStatuses = some (st.pending.map fun entry => entry.2.1)
  receipts : st.currentReceipts = some (st.pending.map fun entry => entry.2.2)
  index : ∀ (i : ℕ) (entry : Transaction × TransactionStatus × Receipt), st.pending[i]? = some entry →
    entry.2.1.transactionIndex = .ofNat i

end Shadows.Ethereum
