import Shadows.Ethereum.Blocks
import Shadows.Evm.Ledger

/-!
# Histories of transactions and balance movements

The two pallets together: `do_transact` executes transactions with the runner of `pallet_evm`, and
between them balances move and blocks end and begin. The steps that keep an account are those that
do not take back its nonce.
-/

namespace Shadows.Ethereum

open Consensus

variable {S AccountId M : Type}

/-- `pallet_evm::runner::stack::Runner` as the runner of this pallet. -/
def stackRunner (evm : Evm.Config S AccountId) (exec : Evm.Executor S M) :
    Runner (Evm.World S) where
  call := Evm.call evm exec
  create := Evm.create evm exec

structure Runtime (S AccountId M : Type) where
  evm : Evm.Config S AccountId
  executor : Evm.Executor S M
  ethereum : Config (Evm.World S)
  runner_eq : ethereum.runner = stackRunner evm executor

/-- What happens between and in blocks: transactions, movements of balances, and the end of a block
with the beginning of the next. -/
inductive Action (AccountId : Type) where
  | transact (transaction : Transaction)
  | transfer (source target : AccountId) (amount : ℕ)
  | withdraw (who : AccountId) (amount : ℕ)
  | deposit (who : AccountId) (amount : ℕ)
  | nextBlock (digest : Digest) (timestamp : UInt64)

def withSystem (s : S) (st : State (Evm.World S)) : State (Evm.World S) :=
  { st with world := { st.world with system := s } }

variable (rt : Runtime S AccountId M)

/-- The effect of an action. A balance that cannot be moved stays, and so does the state of a call
that fails; what panics has no effect at all. -/
def act : Action AccountId → State (Evm.World S) → Option (State (Evm.World S))
  | .transact transaction, st => (doTransact rt.ethereum transaction st).map fun p => p.2
  | .transfer source target amount, st =>
    match rt.evm.system.transfer source target amount st.world.system with
    | none => some st
    | some s => some (withSystem s st)
  | .withdraw who amount, st =>
    match rt.evm.system.withdraw who amount st.world.system with
    | none => some st
    | some (_, s) => some (withSystem s st)
  | .deposit who amount, st =>
    some (withSystem (rt.evm.system.depositCreating who amount st.world.system) st)
  | .nextBlock digest timestamp, st =>
    (onFinalize rt.ethereum st).bind fun st =>
      onInitialize rt.ethereum (initializeBlock ⟨digest, timestamp, []⟩ st)

def Step (st st' : State (Evm.World S)) : Prop := ∃ a, act rt a st = some st'

/-- A transaction is accepted in a state, and after some steps once more. -/
def AcceptedTwice (transaction : Transaction) (st : State (Evm.World S)) : Prop :=
  ∃ st₁ st₂ st₃ weight weight',
    doTransact rt.ethereum transaction st = some (.ok weight, st₁) ∧
      Relation.ReflTransGen (Step rt) st₁ st₂ ∧
      doTransact rt.ethereum transaction st₂ = some (.ok weight', st₃)

/-- Replay protection: a transaction that has been accepted is not accepted again. -/
def ReplayProtected : Prop := ∀ transaction st, ¬ AcceptedTwice rt transaction st

/-! ## Keeping an account -/

def intrinsicCost (callCost createCost : Bytes → ℕ) (transaction : Transaction) : ℕ :=
  match transaction.action with
  | .call _ => callCost transaction.input
  | .create => createCost transaction.input

variable (hold : Evm.Holdings S AccountId) (who : AccountId)

/-- A transaction keeps an account, whoever has signed it. -/
def TransactKeeps (transaction : Transaction) (st : State (Evm.World S)) : Prop :=
  ∀ source, recoverSigner rt.ethereum transaction = some source →
    match transaction.action with
    | .call target =>
      Evm.ExecuteKeeps rt.evm hold who source transaction.value transaction.gasLimit.lowU64
        (some transaction.gasPrice) (some transaction.nonce)
        (rt.executor.transactCall source target transaction.value transaction.input
          transaction.gasLimit.lowU64) st.world
    | .create =>
      Evm.ExecuteKeeps rt.evm hold who source transaction.value transaction.gasLimit.lowU64
        (some transaction.gasPrice) (some transaction.nonce)
        (Evm.createOperation rt.executor source transaction.input transaction.value
          transaction.gasLimit.lowU64) st.world

def Action.Keeps (st : State (Evm.World S)) : Action AccountId → Prop
  | .transact transaction => TransactKeeps rt hold who transaction st
  | .transfer source target amount =>
    Evm.TransferKeeps rt.evm hold who source target amount st.world.system
  | .withdraw source amount => Evm.WithdrawKeeps rt.evm hold who source amount st.world.system
  | .deposit _ _ => True
  | .nextBlock _ _ => True

def KeepingStep (st st' : State (Evm.World S)) : Prop :=
  ∃ a : Action AccountId, a.Keeps rt hold who st ∧ act rt a st = some st'

/-! ## Creating a contract at an address -/

/-- The run of a transaction creates a contract at the address, whoever has signed it. -/
def TransactCreates (address : H160) (transaction : Transaction) (st : State (Evm.World S)) : Prop :=
  ∃ source, recoverSigner rt.ethereum transaction = some source ∧
    match transaction.action with
    | .call target =>
      Evm.ExecuteCreates rt.evm address source transaction.value transaction.gasLimit.lowU64
        (some transaction.gasPrice) (some transaction.nonce)
        (rt.executor.transactCall source target transaction.value transaction.input
          transaction.gasLimit.lowU64) st.world
    | .create =>
      Evm.ExecuteCreates rt.evm address source transaction.value transaction.gasLimit.lowU64
        (some transaction.gasPrice) (some transaction.nonce)
        (Evm.createOperation rt.executor source transaction.input transaction.value
          transaction.gasLimit.lowU64) st.world

def Action.Creates (address : H160) (st : State (Evm.World S)) : Action AccountId → Prop
  | .transact transaction => TransactCreates rt address transaction st
  | _ => False

/-- A step that keeps the account of an address and creates no contract there, with its action. -/
def KeptStep (address : H160) (st : State (Evm.World S)) (a : Action AccountId)
    (st' : State (Evm.World S)) : Prop :=
  a.Keeps rt hold (rt.evm.intoAccountId address) st ∧ ¬ a.Creates rt address st ∧ act rt a st = some st'

/-! ## Nonces that are used up -/

/-- The executor starts on a transaction: the gas limit covers the intrinsic cost, and the sender has the
value of a creation. -/
def Starts (callCost createCost : Bytes → ℕ) (transaction : Transaction) (source : H160)
    (world : Evm.World S) : Prop :=
  intrinsicCost callCost createCost transaction ≤ transaction.gasLimit.lowU64.toNat ∧
    (transaction.action = .create → transaction.value ≤ (Evm.accountBasic rt.evm world source).balance)

instance (callCost createCost : Bytes → ℕ) (transaction : Transaction) (source : H160)
    (world : Evm.World S) : Decidable (Starts rt callCost createCost transaction source world) :=
  inferInstanceAs (Decidable (_ ∧ _))

/-- The transaction was signed for the address, and the executor starts on it when the fee is paid. -/
def UsesNonce (callCost createCost : Bytes → ℕ) (address : H160) (transaction : Transaction)
    (st : State (Evm.World S)) : Prop :=
  recoverSigner rt.ethereum transaction = some address ∧
    match Evm.prepare rt.evm address transaction.value transaction.gasLimit.lowU64
      (some transaction.gasPrice) (some transaction.nonce) st.world with
    | .error _ => False
    | .ok (_, _, paid) => Starts rt callCost createCost transaction address paid

instance (callCost createCost : Bytes → ℕ) (address : H160) (transaction : Transaction)
    (st : State (Evm.World S)) : Decidable (UsesNonce rt callCost createCost address transaction st) :=
  haveI : Decidable (match Evm.prepare rt.evm address transaction.value transaction.gasLimit.lowU64
      (some transaction.gasPrice) (some transaction.nonce) st.world with
    | .error _ => False
    | .ok (_, _, paid) => Starts rt callCost createCost transaction address paid) :=
    match Evm.prepare rt.evm address transaction.value transaction.gasLimit.lowU64
      (some transaction.gasPrice) (some transaction.nonce) st.world with
    | .error _ => isFalse id
    | .ok (_, _, paid) => inferInstanceAs (Decidable (Starts rt callCost createCost transaction address paid))
  inferInstanceAs (Decidable (_ ∧ _))

/-- The nonce of the address that an action uses up: that of an accepted transaction. -/
def usedNonce (callCost createCost : Bytes → ℕ) (address : H160) (st : State (Evm.World S)) :
    Action AccountId → Option ℕ
  | .transact transaction =>
    if UsesNonce rt callCost createCost address transaction st then
      match doTransact rt.ethereum transaction st with
      | some (.ok _, _) => some transaction.nonce.val
      | _ => none
    else none
  | _ => none

/-! ## A runtime on the ledger -/

/-- Both pallets on the ledger, with small hashes and a single signer. -/
def ledgerRuntime : Runtime Evm.Ledger H160 Unit where
  evm := Evm.ledgerConfig
  executor := Evm.ledgerExecutor
  ethereum :=
    { hashing := numberHashing
      runner := stackRunner Evm.ledgerConfig Evm.ledgerExecutor
      messageHash := countingConfig.messageHash
      standardV := countingConfig.standardV
      secp256k1EcdsaRecover := fun _ _ => some []
      keccak256 := fun _ => 256
      bloomBits := countingConfig.bloomBits
      findAuthor := fun _ _ => none
      stateRoot := fun _ => 0
      blockGasLimit := fun _ => 4294967295
      gasToWeight := id }
  runner_eq := rfl

/-- The same with an executor that runs code. -/
def codeRuntime : Runtime Evm.Ledger H160 Unit where
  evm := Evm.ledgerConfig
  executor := Evm.codeExecutor Evm.ledgerConfig
  ethereum :=
    { ledgerRuntime.ethereum with
      runner := stackRunner Evm.ledgerConfig (Evm.codeExecutor Evm.ledgerConfig) }
  runner_eq := rfl

/-- The account that signs. -/
def caller : H160 := 256

def bareWorld (l : Evm.Ledger) : Evm.World Evm.Ledger := ⟨l, fun _ => none, fun _ _ => none, []⟩

/-- The accounts when only the one that signs is there. -/
def soleAccount (nonce : UInt32) (free : ℕ) : Evm.Ledger :=
  Function.update (fun _ => ⟨0, 0, 0⟩) caller ⟨nonce, 0, free⟩

/-- The state in which this account has some free balance. -/
def funded (free : ℕ) : State (Evm.World Evm.Ledger) :=
  genesisState (bareWorld (soleAccount 0 free)) 0

/-- The account that signs has a free balance, and the contract at the address `7` creates one at the address
`9` whenever it is called. -/
def creating (free : ℕ) : State (Evm.World Evm.Ledger) :=
  genesisState { bareWorld (soleAccount 0 free) with
    accountCodes := Function.update (fun _ => none) 7 (some [9]) } 0

/-- A transaction whose gas limit is below the intrinsic cost. -/
def lowGas : Transaction := { callWithNonce 0 with gasLimit := 20000 }

/-- A transaction that moves the balance `550` away. -/
def emptying : Transaction := { callWithNonce 0 with value := 550 }

/-- The outcome of a transaction in the pallet's `execute`, on the ledger. -/
def ledgerCall (transaction : Transaction) (l : Evm.Ledger) :
    Option (Except DispatchError (Option H160 × Option H160 × CallOrCreateInfo) ×
      Evm.World Evm.Ledger) :=
  execute ledgerRuntime.ethereum caller transaction.input transaction.value transaction.gasLimit
    (some transaction.gasPrice) (some transaction.nonce) transaction.action (bareWorld l)

end Shadows.Ethereum
