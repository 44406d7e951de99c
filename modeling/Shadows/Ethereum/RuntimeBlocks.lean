import Shadows.Ethereum.Blocks
import Shadows.Evm.Dispatch
import Shadows.Ethereum.Histories

/-!
# Blocks of the runtime

The extrinsics of the runtime are Ethereum transactions, calls of `pallet_evm` and those of other pallets.
An account acts for the address of its first twenty bytes, and an address has an account by a hash.
-/

namespace Shadows.Ethereum

open Consensus Foundations

variable {S M : Type}

/-- What happens in the blocks of the runtime: extrinsics, with what those of other pallets do, and the
beginning and the end of a block. -/
inductive RuntimeAction (S : Type) where
  | onInitialize (digest : Digest) (timestamp : UInt64)
  | transact (transaction : Transaction)
  | dispatch (origin : Evm.Origin Evm.AccountId32) (c : Evm.PalletCall)
  | other (effect : Evm.World S → Evm.World S)
  | onFinalize

/-- `pallet_evm` as the runtime configures it: `CallOrigin` and `WithdrawOrigin` are
`EnsureAddressTruncated`. -/
def Runtime.pallet (rt : Runtime S Evm.AccountId32 M) (create2 : Evm.Create2 S) :
    Evm.Pallet S Evm.AccountId32 M where
  config := rt.evm
  executor := rt.executor
  create2 := create2
  callOrigin := fun address origin => (Evm.ensureAddressTruncated address origin).map fun _ => ()
  withdrawOrigin := Evm.ensureAddressTruncated
  gasToWeight := rt.ethereum.gasToWeight

section Steps

variable (rt : Runtime S Evm.AccountId32 M) (create2 : Evm.Create2 S)

/-- The effect of an action; what panics has none. -/
def runtimeAct : RuntimeAction S → State (Evm.World S) → Option (State (Evm.World S))
  | .onInitialize digest timestamp, st =>
    Ethereum.onInitialize rt.ethereum (initializeBlock ⟨digest, timestamp, []⟩ st)
  | .transact transaction, st => (doTransact rt.ethereum transaction st).map fun out => out.2
  | .dispatch origin c, st =>
    (Evm.dispatch (rt.pallet create2) origin st.world c).map fun (_, _, world) =>
      { st with world := world }
  | .other effect, st => some { st with world := effect st.world }
  | .onFinalize, st => Ethereum.onFinalize rt.ethereum st

def RuntimeStep (st : State (Evm.World S)) (a : RuntimeAction S) (st' : State (Evm.World S)) : Prop :=
  runtimeAct rt create2 a st = some st'

/-- The free balance of the account of an address. -/
def balanceOf (address : H160) (world : Evm.World S) : ℕ :=
  Evm.freeOf rt.evm world (rt.evm.intoAccountId address)

/-- The action is accepted from the address: a transaction that was signed for it, or a call that acts for
it, signed by an account of which it is the first twenty bytes. -/
def RuntimeAction.Authorized (address : H160) (st : State (Evm.World S)) : RuntimeAction S → Prop
  | .transact transaction => recoverSigner rt.ethereum transaction = some address ∧
    ∃ weight st', doTransact rt.ethereum transaction st = some (.ok weight, st')
  | .dispatch origin c => ∃ who, origin = .signed who ∧ c.address = address ∧
    Evm.truncated who = address.asBytes
  | _ => False

/-- The run of a transaction, or of a call that is allowed, creates a contract at the address. -/
def RuntimeAction.Creates (address : H160) (st : State (Evm.World S)) : RuntimeAction S → Prop
  | .transact transaction => TransactCreates rt address transaction st
  | .dispatch origin c => Evm.Allows (rt.pallet create2) origin c ∧
    c.Creates (rt.pallet create2) address st.world
  | _ => False

/-- What an extrinsic of another pallet does neither takes from the address nor gives it code. -/
def RuntimeAction.Spares (address : H160) (st : State (Evm.World S)) : RuntimeAction S → Prop
  | .other effect => balanceOf rt address st.world ≤ balanceOf rt address (effect st.world) ∧
    (Evm.Codeless address st.world → Evm.Codeless address (effect st.world))
  | _ => True

end Steps

/-! ## Wallets -/

/-- The free balances of Substrate accounts. -/
abbrev Wallets := Evm.AccountId32 → ℕ

/-- A currency that knows no limits but the balances. -/
def walletSystem : Evm.System Wallets Evm.AccountId32 where
  accountNonce := fun _ _ => 0
  incAccountNonce := fun _ s => s
  incConsumers := fun _ s => s
  decConsumers := fun _ s => s
  freeBalance := fun s who => s who
  withdraw := fun who amount s =>
    if s who < amount then none else some (amount, Function.update s who (s who - amount))
  depositIntoExisting := fun who amount s => some (amount, Function.update s who (s who + amount))
  depositCreating := fun who amount s => Function.update s who (s who + amount)
  transfer := fun source target amount s =>
    if s source < amount then none
    else
      let s := Function.update s source (s source - amount)
      some (Function.update s target (s target + amount))
  onUnbalanced := fun _ s => s
  dropPositive := fun _ s => s

/-- The number that the bytes are in big-endian order, in place of a hash. -/
def numberHash (data : Bytes) : H256 := .ofNat 256 (fromBigEndian data)

def walletConfig : Evm.Config Wallets Evm.AccountId32 where
  system := walletSystem
  intoAccountId := Evm.hashedAddressMapping numberHash
  minGasPrice := fun _ => 0

def walletCreate2 : Evm.Create2 Wallets where
  transactCreate2 := fun _ _ _ _ _ _ _ => ⟨.nil, .succeed, (), 0, fun _ => 0⟩
  createAddress := fun _ _ _ _ => 1
  keccak256 := numberHash

/-- Both pallets on the wallets, with an executor that runs code. -/
def walletRuntime : Runtime Wallets Evm.AccountId32 Unit where
  evm := walletConfig
  executor := Evm.codeExecutor walletConfig
  ethereum :=
    { hashing := numberHashing
      runner := stackRunner walletConfig (Evm.codeExecutor walletConfig)
      messageHash := countingConfig.messageHash
      standardV := countingConfig.standardV
      secp256k1EcdsaRecover := fun _ _ => some []
      keccak256 := fun _ => 7
      bloomBits := countingConfig.bloomBits
      findAuthor := fun _ _ => none
      stateRoot := fun _ => 0
      blockGasLimit := fun _ => 4294967295
      gasToWeight := id }
  runner_eq := rfl

/-- The Substrate account that acts for an address, with zeros after it. -/
def keyOf (address : H160) : Evm.AccountId32 := address.setWidth 256 <<< 96

/-- A call of the contract at the address `9` from the address `8`. -/
def contractCall : RuntimeAction Wallets :=
  .dispatch (.signed (keyOf 8)) (.call 8 9 [] 0 21000 0 none)

/-- A withdrawal of `3` from the address `256`, by the account of some address. -/
def withdrawal (signer : H160) : RuntimeAction Wallets :=
  .dispatch (.signed (keyOf signer)) (.withdraw 256 3)

/-- Every account has the free balance `10`, and the contract at the address `9` pays `3` to the address `5`
whenever it is called. -/
def tenEach : Evm.World Wallets where
  system := fun _ => 10
  accountCodes := Function.update (fun _ => none) 9 (some [5, 3])
  accountStorages := fun _ _ => none
  events := []

end Shadows.Ethereum
