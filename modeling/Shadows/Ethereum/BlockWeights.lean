import Shadows.Ethereum.Blocks

/-!
# Blocks under a weight limit

`frame_system` admits an extrinsic only if its declared weight fits into what is left of the limit of
its dispatch class, and takes the weight that has not been used back after the dispatch. With the
mapping of the runtime one unit of gas is one unit of weight.
-/

namespace Shadows.Ethereum

/-- `WEIGHT_PER_SECOND`. -/
def weightPerSecond : ℕ := 1000000000000

/-- The weight of a block, `2 * WEIGHT_PER_SECOND`. -/
def maximumBlockWeight : ℕ := 2 * weightPerSecond

/-- The share of normal dispatches, `NORMAL_DISPATCH_RATIO`, in percent. -/
def normalDispatchRatio : ℕ := 75

/-- The limit of normal dispatches in `BlockWeights::with_sensible_defaults`. -/
def normalMaxTotal : ℕ := maximumBlockWeight * normalDispatchRatio / 100

/-- `u32::max_value()`, the `BlockGasLimit` of the runtime. -/
def runtimeBlockGasLimit : U256 := .ofU32 4294967295

variable {W : Type} (cfg : Config W)

/-- The weight that `transact` declares. -/
def declaredWeight (transaction : Transaction) : UInt64 :=
  cfg.gasToWeight transaction.gasLimit.saturatedU64

/-- The weight that a dispatch is charged: the actual weight of a success, the declared one else. -/
def chargedWeight (declared : UInt64) : Except DispatchError UInt64 → ℕ
  | .ok actual => min actual.toNat declared.toNat
  | .error _ => declared.toNat

/-- Every transaction fits into the rest of the limit when it is dispatched. Whatever else consumes
weight leaves less. -/
def Admitted (limit : ℕ) : ℕ → List (Extrinsic W) → State W → Prop
  | _, [], _ => True
  | consumed, .other effect :: rest, st =>
    Admitted limit consumed rest { st with world := effect st.world }
  | consumed, .transact transaction :: rest, st =>
    consumed + (declaredWeight cfg transaction).toNat ≤ limit ∧
      match doTransact cfg transaction st with
      | none => True
      | some (r, st) =>
        Admitted limit (consumed + chargedWeight (declaredWeight cfg transaction) r) rest st

/-- The states after the blocks of a run whose transactions are all admitted. -/
inductive Dispatched (limit : ℕ) : State W → Prop where
  | genesis (world : W) (timestamp : UInt64) (st : State W)
      (hstore : storeBlock cfg false (genesisState world timestamp) = some st) : Dispatched limit st
  | block (st st' : State W) (input : BlockInput W) (accepted : List Transaction)
      (hst : Dispatched limit st)
      (hadmitted : ∀ start, onInitialize cfg (initializeBlock input st) = some start →
        Admitted cfg limit 0 input.extrinsics start)
      (hrun : runBlock cfg input st = some (accepted, st')) : Dispatched limit st'

/-- The configuration of the runtime, as far as it is about gas. -/
structure RuntimeGas : Prop where
  gasToWeight : ∀ gas, cfg.gasToWeight gas = gas
  blockGasLimit : ∀ world, cfg.blockGasLimit world = runtimeBlockGasLimit

/-- The executor charges a transaction at most its gas limit. -/
structure UsesAtMostLimit (runner : Runner W) : Prop where
  call : ∀ source target input value gasLimit gasPrice nonce world info world',
    runner.call source target input value gasLimit gasPrice nonce world = some (.ok info, world') →
      info.usedGas.val ≤ gasLimit.toNat
  create : ∀ source init value gasLimit gasPrice nonce world info world',
    runner.create source init value gasLimit gasPrice nonce world = some (.ok info, world') →
      info.usedGas.val ≤ gasLimit.toNat

/-! ## Spending it all -/

/-- A runner that uses up the gas of every call. -/
def spendingRunner : Runner ℕ where
  call := fun _ _ _ _ gasLimit _ _ w => some (.ok ⟨.succeed, [], .ofU64 gasLimit, []⟩, w)
  create := fun _ _ _ _ _ _ w => some (.error .balanceLow, w)

def spendingConfig : Config ℕ := { countingConfig with runner := spendingRunner }

def spendingGenesis : State ℕ :=
  { genesisState 0 0 with
    currentBlock := some (buildBlock spendingConfig (genesisState 0 0) 0)
    currentReceipts := some []
    currentTransactionStatuses := some [] }

/-- A call with a gas limit of three thousand million. -/
def expensiveCall : Transaction := { callWithNonce 0 with gasLimit := 3000000000 }

def expensiveBlock : BlockInput ℕ := ⟨[], 6, [.transact expensiveCall, .transact expensiveCall]⟩

def expensiveState : State ℕ :=
  ((runBlock spendingConfig expensiveBlock spendingGenesis).map fun p => p.2).getD spendingGenesis

end Shadows.Ethereum
