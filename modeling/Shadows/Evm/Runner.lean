import Shadows.Evm.StackState

/-!
# The runner of `pallet_evm`

A transaction is paid for in advance, executed, refunded for the gas it has not used, and then the
accounts it has deleted are removed. The executor belongs to the `evm` crate: an `Executor` stands
for what it does to the stack state and what it returns.
-/

namespace Shadows.Evm

open Foundations

structure Vicinity where
  gasPrice : U256
  origin : H160

/-- A run of the executor: its calls on the stack state, which are well nested, and its results. -/
structure ExecutorRun (R : Type) where
  trace : Trace EnterArgs StackOp
  exitReason : ExitReason
  value : R
  usedGas : UInt64
  /-- `fee`, from the gas price. -/
  fee : U256 → U256

/-- `StackExecutor` with the configuration and the precompiles of the runtime. What it does depends
on the storage that it starts on. -/
structure Executor (S M : Type) where
  /-- `StackSubstateMetadata::new`, from the gas limit. -/
  newMetadata : UInt64 → M
  metadataOps : MetadataOps M
  /-- `transact_call`, from caller, address, value, data and gas limit. -/
  transactCall : H160 → H160 → U256 → Bytes → UInt64 → Vicinity → World S → ExecutorRun Bytes
  /-- `transact_create`, from caller, value, init code and gas limit. -/
  transactCreate : H160 → U256 → Bytes → UInt64 → Vicinity → World S → ExecutorRun Unit
  /-- `create_address` with `CreateScheme::Legacy`. -/
  createAddress : H160 → World S → H160

variable {S AccountId M : Type} (cfg : Config S AccountId)

/-! ## Fees -/

/-- `EVMCurrencyAdapter::withdraw_fee`; the result is what has been withdrawn. -/
def withdrawFee (who : H160) (fee : U256) (world : World S) :
    Except EvmError (Option ℕ × World S) :=
  match cfg.system.withdraw (cfg.intoAccountId who) fee.lowU128 world.system with
  | none => .error .balanceLow
  | some (imbalance, system) => .ok (some imbalance, { world with system := system })

def correctAndDepositFee (who : H160) (correctedFee : U256) (alreadyWithdrawn : Option ℕ)
    (world : World S) : Except EvmError Unit × World S :=
  match alreadyWithdrawn with
  | none => (.ok (), world)
  | some paid =>
    let refundAmount := paid - correctedFee.lowU128
    let (refundImbalance, system) :=
      (cfg.system.depositIntoExisting (cfg.intoAccountId who) refundAmount world.system).getD
        (0, world.system)
    -- `paid.offset(refund_imbalance)`
    if refundImbalance ≤ paid then
      (.ok (), { world with system := cfg.system.onUnbalanced (paid - refundImbalance) system })
    else
      (.error .balanceLow,
        { world with system := cfg.system.dropPositive (refundImbalance - paid) system })

/-! ## Execution -/

/-- `Runner::execute` up to the deduction of the fee: the gas price, what has been withdrawn, and
the world after that. -/
def prepare (source : H160) (value : U256) (gasLimit : UInt64) (gasPrice nonce : Option U256)
    (world : World S) : Except EvmError (U256 × Option ℕ × World S) :=
  -- the gas price check is skipped when performing a gas estimation
  if gasPrice.any fun gasPrice => gasPrice < cfg.minGasPrice world then .error .gasPriceTooLow
  else
    let gasPrice := gasPrice.getD 0
    match gasPrice.checkedMul (.ofU64 gasLimit) with
    | none => .error .feeOverflow
    | some totalFee =>
      match value.checkedAdd totalFee with
      | none => .error .paymentOverflow
      | some totalPayment =>
        let sourceAccount := accountBasic cfg world source
        if sourceAccount.balance < totalPayment then .error .balanceLow
        else if nonce.any fun nonce => sourceAccount.nonce ≠ nonce then .error .invalidNonce
        else
          match withdrawFee cfg source totalFee world with
          | .error e => .error e
          | .ok (fee, world) => .ok (gasPrice, fee, world)

/-- Remove the deleted accounts, in the order of the `BTreeSet`. -/
def removeDeleted (deletes : Finset H160) (world : World S) : World S :=
  (deletes.sort (· ≤ ·)).foldl (fun world address => removeAccount cfg address world) world

def depositLogs (logs : List Shadows.Log) (world : World S) : World S :=
  { world with events := world.events ++ logs.map Event.log }

/-- `Runner::execute`; `f` is the EVM operation. -/
def execute {R : Type} (exec : Executor S M) (source : H160) (value : U256) (gasLimit : UInt64)
    (gasPrice nonce : Option U256) (f : Vicinity → World S → ExecutorRun R) (world : World S) :
    Option (Except EvmError (ExecutionInfo R) × World S) :=
  match prepare cfg source value gasLimit gasPrice nonce world with
  | .error e => some (.error e, world)
  | .ok (gasPrice, fee, world) =>
    let run := f ⟨gasPrice, source⟩ world
    match stackCalls cfg exec.metadataOps run.trace.calls
        (.new (exec.newMetadata gasLimit) ⟨world, []⟩) with
    | none => none
    | some (_, st) =>
      match correctAndDepositFee cfg source (run.fee gasPrice) fee st.storage.current with
      | (.error e, world) => some (.error e, world)
      | (.ok (), world) =>
        let substate := st.substate.frame
        some (.ok ⟨run.exitReason, run.value, .ofU64 run.usedGas, substate.logs⟩,
          depositLogs substate.logs (removeDeleted cfg substate.deletes world))

def call (exec : Executor S M) (source target : H160) (input : Bytes) (value : U256)
    (gasLimit : UInt64) (gasPrice nonce : Option U256) (world : World S) :
    Option (Except EvmError (ExecutionInfo Bytes) × World S) :=
  execute cfg exec source value gasLimit gasPrice nonce
    (exec.transactCall source target value input gasLimit) world

/-- The operation of `Runner::create`: the address is computed before the execution. -/
def createOperation (exec : Executor S M) (source : H160) (init : Bytes) (value : U256)
    (gasLimit : UInt64) (vicinity : Vicinity) (world : World S) : ExecutorRun H160 :=
  let address := exec.createAddress source world
  let run := exec.transactCreate source value init gasLimit vicinity world
  ⟨run.trace, run.exitReason, address, run.usedGas, run.fee⟩

def create (exec : Executor S M) (source : H160) (init : Bytes) (value : U256) (gasLimit : UInt64)
    (gasPrice nonce : Option U256) (world : World S) :
    Option (Except EvmError (ExecutionInfo H160) × World S) :=
  execute cfg exec source value gasLimit gasPrice nonce
    (createOperation exec source init value gasLimit) world

/-- What an execution returns that has been paid for: exit reason, value and gas of the run of its operation,
and the logs that the run leaves in the substate. -/
def Returns {R : Type} (exec : Executor S M) (source : H160) (value : U256) (gasLimit : UInt64)
    (gasPrice nonce : Option U256) (f : Vicinity → World S → ExecutorRun R) (world : World S)
    (info : ExecutionInfo R) : Prop :=
  ∃ price fee paid rs st,
    prepare cfg source value gasLimit gasPrice nonce world = .ok (price, fee, paid) ∧
    stackCalls cfg exec.metadataOps (f ⟨price, source⟩ paid).trace.calls
      (.new (exec.newMetadata gasLimit) ⟨paid, []⟩) = some (rs, st) ∧
    info = ⟨(f ⟨price, source⟩ paid).exitReason, (f ⟨price, source⟩ paid).value,
      .ofU64 (f ⟨price, source⟩ paid).usedGas, st.substate.frame.logs⟩

end Shadows.Evm
