import Shadows.Evm.Laws

/-!
# Execution without a journal

What a transaction amounts to: the operations that survive are applied to the storage one after the
other, the accounts that they delete are removed, and the logs that they emit are deposited. No frame is
opened and no state saved, so that nothing can panic.
-/

namespace Shadows.Evm

open Foundations

variable {S AccountId R M : Type}

namespace StackOp

/-- The log that an operation emits. -/
def emitted : StackOp → Option Shadows.Log
  | .log address topics data => some ⟨address, topics, data⟩
  | _ => none

/-- The account that an operation deletes. -/
def deletion : StackOp → Option H160
  | .setDeleted address => some address
  | _ => none

end StackOp

variable (cfg : Config S AccountId)

/-- Apply operations to the storage, in order. -/
def applyOps (ops : List StackOp) (world : World S) : World S :=
  ops.foldl (fun world o => o.applyWorld cfg world) world

/-- `Runner::execute` on the surviving operations of the run. -/
def flatExecute (source : H160) (value : U256) (gasLimit : UInt64) (gasPrice nonce : Option U256)
    (f : Vicinity → World S → ExecutorRun R) (world : World S) :
    Except EvmError (ExecutionInfo R) × World S :=
  match prepare cfg source value gasLimit gasPrice nonce world with
  | .error e => (.error e, world)
  | .ok (gasPrice, fee, world) =>
    let run := f ⟨gasPrice, source⟩ world
    let ops := run.trace.survivors
    match correctAndDepositFee cfg source (run.fee gasPrice) fee (applyOps cfg ops world) with
    | (.error e, world) => (.error e, world)
    | (.ok (), world) =>
      let logs := ops.filterMap StackOp.emitted
      (.ok ⟨run.exitReason, run.value, .ofU64 run.usedGas, logs⟩,
        depositLogs logs (removeDeleted cfg (ops.filterMap StackOp.deletion).toFinset world))

/-- The exits of a run succeed, on whatever it starts. -/
def ExitsSucceed (exec : Executor S M) (gasLimit : UInt64) (f : Vicinity → World S → ExecutorRun R) :
    Prop :=
  ∀ vicinity world rs st, stackCalls cfg exec.metadataOps (f vicinity world).trace.calls
    (.new (exec.newMetadata gasLimit) ⟨world, []⟩) = some (rs, st) → ∀ r ∈ rs, r = .ok ()

/-! ## Canonical storage -/

/-- Nothing is stored that would be read the same without being stored: no value is zero, and no code
is empty. -/
structure Canonical (world : World S) : Prop where
  nonzero : ∀ address index, world.accountStorages address index ≠ some 0
  nonempty : ∀ address, world.accountCodes address ≠ some []

end Shadows.Evm
