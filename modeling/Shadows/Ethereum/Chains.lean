import Shadows.Ethereum.Histories
import Shadows.Evm.Fees
import Shadows.Evm.Flat

/-!
# Chains of blocks

A chain is what comes of a list of block inputs, one block after the other, with a pre-log or without.
The two pallets run it together; what the transactions of its blocks cost, and the same chain on a runner
without a journal.
-/

namespace Shadows.Ethereum

open Consensus

/-- The entries of `Pending` when a block is finalised, one for each transaction it has executed. -/
abbrev Entries := List (Transaction × TransactionStatus × Receipt)

section Blocks

variable {W : Type} (cfg : Config W)

/-- The blocks of a chain, each with its entries of `Pending`, and the state after the last one. -/
def runBlocks : List (BlockInput W) → State W → Option (List Entries × State W)
  | [], st => some ([], st)
  | input :: rest, st =>
    (runBlock cfg input st).bind fun (_, st) =>
      (runBlocks rest st).map fun (blocks, st') => (st.pending :: blocks, st')

/-- The states after the blocks of a chain. -/
def chainStates : List (BlockInput W) → State W → Option (List (State W))
  | [], _ => some []
  | input :: rest, st =>
    (runBlock cfg input st).bind fun (_, st) => (chainStates rest st).map fun states => st :: states

/-- What the other extrinsics of a chain do to the state of the other pallets has a property. -/
def OthersSatisfy (P : (W → W) → Prop) (inputs : List (BlockInput W)) : Prop :=
  ∀ input ∈ inputs, ∀ effect, .other effect ∈ input.extrinsics → P effect

end Blocks

variable {S AccountId M R : Type}

/-! ## Gas and fees -/

/-- The gas meter of a run: it uses at most the limit, and the fee is the price of what it has used,
where that fits. -/
structure Metered (gasLimit : UInt64) (run : Evm.ExecutorRun R) : Prop where
  usedGas : run.usedGas ≤ gasLimit
  fee : ∀ price : U256, price.val * run.usedGas.toNat < 2 ^ 256 →
    (run.fee price).val = price.val * run.usedGas.toNat

/-- `StackExecutor::used_gas` and `StackExecutor::fee`. -/
structure MeterLaws (exec : Evm.Executor S M) : Prop where
  call : ∀ source target value input gasLimit vicinity world,
    Metered gasLimit (exec.transactCall source target value input gasLimit vicinity world)
  create : ∀ source value init gasLimit vicinity world,
    Metered gasLimit (exec.transactCreate source value init gasLimit vicinity world)

/-- What a transaction has cost: the gas that its receipt shows, or all of its gas limit. -/
def Cost (entry : Transaction × TransactionStatus × Receipt) (charged : ℕ) : Prop :=
  entry.2.2.usedGas.val ≤ entry.1.gasLimit.lowU64.toNat ∧
    (charged = entry.1.gasPrice.val * entry.2.2.usedGas.val ∨
      charged = entry.1.gasPrice.val * entry.1.gasLimit.lowU64.toNat)

/-- An effect on the other pallets that only moves balances. -/
def KeepsTotal (totalBalance : S → AccountId → ℕ) (effect : Evm.World S → Evm.World S) : Prop :=
  ∀ world total, Foundations.SumsTo (totalBalance world.system) total →
    Foundations.SumsTo (totalBalance (effect world).system) total

/-! ## The flat runner -/

/-- The runner that executes transactions without a journal. -/
def flatRunner (evm : Evm.Config S AccountId) (exec : Evm.Executor S M) : Runner (Evm.World S) where
  call := fun source target input value gasLimit gasPrice nonce world =>
    some (Evm.flatExecute evm source value gasLimit gasPrice nonce
      (exec.transactCall source target value input gasLimit) world)
  create := fun source init value gasLimit gasPrice nonce world =>
    some (Evm.flatExecute evm source value gasLimit gasPrice nonce
      (Evm.createOperation exec source init value gasLimit) world)

/-- `pallet_ethereum` on the flat runner. -/
def Runtime.flat (rt : Runtime S AccountId M) : Config (Evm.World S) :=
  { rt.ethereum with runner := flatRunner rt.evm rt.executor }

/-- The exits of every run of the executor succeed. -/
structure ExitLaws (evm : Evm.Config S AccountId) (exec : Evm.Executor S M) : Prop where
  call : ∀ source target value input gasLimit, Evm.ExitsSucceed evm exec gasLimit
    (exec.transactCall source target value input gasLimit)
  create : ∀ source value init gasLimit, Evm.ExitsSucceed evm exec gasLimit
    (exec.transactCreate source value init gasLimit)

/-! ## A runtime on the till -/

/-- Two units of gas, or as much as there is. -/
def tillGas (gasLimit : UInt64) : UInt64 := if 2 ≤ gasLimit then 2 else gasLimit

/-- An executor of which every call moves `3` from the account `7` to the account `8`, emits a log and
uses two units of gas, or as much as there is. -/
def tillMeter : Evm.Executor Evm.Purses Unit :=
  { Evm.tillExecutor with
    transactCall := fun _ _ _ _ gasLimit _ _ =>
      ⟨.op (.transfer 7 8 3) (.op (.log 8 [] []) .nil), .succeed, [], tillGas gasLimit,
        fun price => price * .ofU64 (tillGas gasLimit)⟩ }

/-- Both pallets on the till; the account `7` signs everything. -/
def tillRuntime : Runtime Evm.Purses H160 Unit where
  evm := Evm.tillConfig
  executor := tillMeter
  ethereum :=
    { hashing := numberHashing
      runner := stackRunner Evm.tillConfig tillMeter
      messageHash := countingConfig.messageHash
      standardV := countingConfig.standardV
      secp256k1EcdsaRecover := fun _ _ => some []
      keccak256 := fun _ => 7
      bloomBits := countingConfig.bloomBits
      findAuthor := fun _ _ => none
      stateRoot := fun _ => 0
      blockGasLimit := fun _ => 4294967295
      gasToWeight := id }
  runner_eq := rfl

/-- A block with one transaction, with a gas limit of five units. -/
def tillBlock : BlockInput (Evm.World Evm.Purses) :=
  ⟨[], 6, [.transact { callWithNonce 0 with gasLimit := 5 }]⟩

/-- This block, and an empty one. -/
def tillBlocks : List (BlockInput (Evm.World Evm.Purses)) := [tillBlock, ⟨[], 12, []⟩]

theorem tillBlock_others {effect : Evm.World Evm.Purses → Evm.World Evm.Purses} :
    .other effect ∉ tillBlock.extrinsics :=
  fun h => nomatch List.mem_singleton.1 h

theorem tillBlocks_others (P : (Evm.World Evm.Purses → Evm.World Evm.Purses) → Prop) :
    OthersSatisfy P tillBlocks := by
  intro input hinput effect heffect
  rcases List.mem_pair.1 hinput with rfl | rfl
  · exact absurd heffect tillBlock_others
  · exact absurd heffect List.not_mem_nil

/-- A block with a call, another with the same nonce, and an extrinsic that does nothing. -/
def ledgerBlocks : List (BlockInput (Evm.World Evm.Ledger)) :=
  [⟨[], 6, [.transact (callWithNonce 0), .transact (callWithNonce 0), .other id]⟩]

end Shadows.Ethereum
