import Shadows.Evm.Laws
import Mathlib.Logic.Function.Basic

/-!
# A ledger

A small `frame_system` with a `pallet_balances` on it: the accounts are those of the EVM, nothing is
reserved, and an account below the existential deposit of the runtime is removed, unless it has
consumers. On top of it an executor that only moves value, and one that runs code, for any currency.
-/

namespace Shadows.Evm

open Foundations

/-- `AccountInfo`: an account with free balance has a provider. -/
structure LedgerAccount where
  nonce : UInt32
  consumers : ℕ
  free : ℕ

/-- The accounts; a missing one is all zero. -/
abbrev Ledger := H160 → LedgerAccount

/-- `ExistentialDeposit` of the runtime. -/
def existentialDeposit : ℕ := 500

namespace Ledger

/-- Take a positive amount off an account, which dies when too little is left. -/
def take (who : H160) (amount : ℕ) (l : Ledger) : Option Ledger :=
  let account := l who
  if account.free < amount then none
  else if existentialDeposit ≤ account.free - amount then
    some (Function.update l who { account with free := account.free - amount })
  else if account.consumers = 0 then some (Function.update l who ⟨0, 0, 0⟩)
  else none

def give (who : H160) (amount : ℕ) (l : Ledger) : Ledger :=
  Function.update l who { l who with free := (l who).free + amount }

/-- `transfer` with `AllowDeath`. -/
def transfer (source target : H160) (amount : ℕ) (l : Ledger) : Option Ledger :=
  if amount = 0 ∨ source = target then some l
  else if (l target).free + amount < existentialDeposit then none
  else (take source amount l).map (give target amount)

/-- `withdraw` with `AllowDeath`. -/
def withdraw (who : H160) (amount : ℕ) (l : Ledger) : Option (ℕ × Ledger) :=
  if amount = 0 then some (0, l) else (take who amount l).map fun l => (amount, l)

def depositIntoExisting (who : H160) (amount : ℕ) (l : Ledger) : Option (ℕ × Ledger) :=
  if amount = 0 then some (0, l)
  else if (l who).free = 0 then none
  else some (amount, give who amount l)

def depositCreating (who : H160) (amount : ℕ) (l : Ledger) : Ledger :=
  if (l who).free + amount < existentialDeposit then l else give who amount l

def incAccountNonce (who : H160) (l : Ledger) : Ledger :=
  Function.update l who { l who with nonce := (l who).nonce + 1 }

/-- `inc_consumers`, which fails without a provider. -/
def incConsumers (who : H160) (l : Ledger) : Ledger :=
  if (l who).free = 0 then l
  else Function.update l who { l who with consumers := (l who).consumers + 1 }

def decConsumers (who : H160) (l : Ledger) : Ledger :=
  Function.update l who { l who with consumers := (l who).consumers - 1 }

end Ledger

def ledgerSystem : System Ledger H160 where
  accountNonce := fun l who => (l who).nonce
  incAccountNonce := Ledger.incAccountNonce
  incConsumers := Ledger.incConsumers
  decConsumers := Ledger.decConsumers
  freeBalance := fun l who => (l who).free
  withdraw := Ledger.withdraw
  depositIntoExisting := Ledger.depositIntoExisting
  depositCreating := Ledger.depositCreating
  transfer := Ledger.transfer
  onUnbalanced := fun _ l => l
  dropPositive := fun _ l => l

def ledgerHoldings : Holdings Ledger H160 where
  existentialDeposit := existentialDeposit
  totalBalance := fun l who => (l who).free
  referenced := fun l who => (l who).consumers ≠ 0

/-- The configuration of the pallet on the ledger, with `FixedGasPrice`. -/
def ledgerConfig : Config Ledger H160 where
  system := ledgerSystem
  intoAccountId := id
  minGasPrice := fun _ => 1

/-- The intrinsic cost of a call without data. -/
def callCost (_ : Bytes) : ℕ := 21000

def createCost (_ : Bytes) : ℕ := 53000

/-- A run that has no gas to begin with. -/
def outOfGasRun {R : Type} (value : R) (gasLimit : UInt64) : ExecutorRun R :=
  ⟨.nil, .error .outOfGas, value, gasLimit, fun price => price * .ofU64 gasLimit⟩

/-- A run that moves value in a frame. -/
def transferRun {R : Type} (source target : H160) (value : U256) (result : R) (gasLimit : UInt64)
    (usedGas : UInt64) (world : World Ledger) : ExecutorRun R :=
  let funded := (Ledger.transfer source target value.lowU128 world.system).isSome
  { trace := .op (.incNonce source)
      (.frame ⟨gasLimit - usedGas, false⟩ (.op (.transfer source target value) .nil)
        (if funded then .commit else .revert) .nil)
    exitReason := if funded then .succeed else .error .outOfFund
    value := result
    usedGas := usedGas
    fee := fun price => price * .ofU64 usedGas }

/-- An executor that moves value and runs no code. Contracts get the address `1`. -/
def ledgerExecutor : Executor Ledger Unit where
  newMetadata := fun _ => ()
  metadataOps := ⟨fun _ _ _ => (), fun _ _ => (.ok (), ()), fun _ _ => (.ok (), ()),
    fun _ _ => (.ok (), ())⟩
  transactCall := fun source target value input gasLimit _ world =>
    if gasLimit.toNat < callCost input then outOfGasRun [] gasLimit
    else transferRun source target value [] gasLimit 21000 world
  transactCreate := fun source value init gasLimit _ world =>
    if gasLimit.toNat < createCost init then outOfGasRun () gasLimit
    else transferRun source 1 value () gasLimit 53000 world
  createAddress := fun _ _ => 1

/-! ## Code -/

section Code

variable {S AccountId R : Type}

/-- What the code of a contract does: two bytes make it pay an amount to an address, and a single one makes
it create a contract at an address. -/
def codeOps (contract : H160) : Bytes → List StackOp
  | [receiver, amount] => [.transfer contract (.ofNat 160 receiver.toNat) (.ofU64 amount.toUInt64)]
  | [created] =>
    [.incNonce contract, .resetStorage (.ofNat 160 created.toNat),
      .setCode (.ofNat 160 created.toNat) [0, 0, 0]]
  | _ => []

/-- A run that does the operations in a frame, which is kept if the value can be moved. -/
def codeRun (cfg : Config S AccountId) (source target : H160) (value : U256) (ops : List StackOp)
    (result : R) (gasLimit usedGas : UInt64) (world : World S) : ExecutorRun R :=
  let funded := (cfg.system.transfer (cfg.intoAccountId source) (cfg.intoAccountId target) value.lowU128
    world.system).isSome
  { trace := .op (.incNonce source)
      (.frame ⟨gasLimit - usedGas, false⟩ (.ops ops) (if funded then .commit else .revert) .nil)
    exitReason := if funded then .succeed else .error .outOfFund
    value := result
    usedGas := usedGas
    fee := fun price => price * .ofU64 usedGas }

/-- An executor that runs the code of the target. Contracts get the address `1`, and their init code as
their code. -/
def codeExecutor (cfg : Config S AccountId) : Executor S Unit where
  newMetadata := fun _ => ()
  metadataOps := ⟨fun _ _ _ => (), fun _ _ => (.ok (), ()), fun _ _ => (.ok (), ()),
    fun _ _ => (.ok (), ())⟩
  transactCall := fun source target value input gasLimit _ world =>
    if callCost input ≤ gasLimit.toNat then
      codeRun cfg source target value
        (.transfer source target value :: codeOps target ((world.accountCodes target).getD [])) []
        gasLimit 21000 world
    else outOfGasRun [] gasLimit
  transactCreate := fun source value init gasLimit _ world =>
    if createCost init ≤ gasLimit.toNat ∧ value ≤ (accountBasic cfg world source).balance then
      codeRun cfg source 1 value [.resetStorage 1, .transfer source 1 value, .setCode 1 init] () gasLimit
        53000 world
    else outOfGasRun () gasLimit
  createAddress := fun _ _ => 1

end Code

end Shadows.Evm
