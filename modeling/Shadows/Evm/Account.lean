import Shadows.Primitives.Ethereum

/-!
# The accounts of `pallet_evm`

The storage of the pallet, and the functions by which it reads and changes accounts. Nonces and
balances belong to `frame_system` and to the currency, which are third-party code: a `System` stands
for the functions the pallet calls.
-/

namespace Shadows.Evm

/-- The functions of `frame_system` and of the `Currency` on their state `S`. A function that fails
leaves the state as it was. Amounts are in the `Balance` of the runtime, a `u128`. -/
structure System (S AccountId : Type) where
  /-- `frame_system::account_nonce`; the `Index` of the runtime is a `u32`. -/
  accountNonce : S → AccountId → UInt32
  /-- `frame_system::inc_account_nonce`. -/
  incAccountNonce : AccountId → S → S
  /-- `frame_system::inc_consumers`, the result dropped. -/
  incConsumers : AccountId → S → S
  /-- `frame_system::dec_consumers`. -/
  decConsumers : AccountId → S → S
  /-- `Currency::free_balance`. -/
  freeBalance : S → AccountId → ℕ
  /-- `Currency::withdraw` for fees with `AllowDeath`; the result is the negative imbalance. -/
  withdraw : AccountId → ℕ → S → Option (ℕ × S)
  /-- `Currency::deposit_into_existing`; the result is the positive imbalance. -/
  depositIntoExisting : AccountId → ℕ → S → Option (ℕ × S)
  /-- `Currency::deposit_creating`, the imbalance dropped. -/
  depositCreating : AccountId → ℕ → S → S
  /-- `Currency::transfer` with `AllowDeath`. -/
  transfer : AccountId → AccountId → ℕ → S → Option S
  /-- `OnUnbalanced::on_unbalanced`, on the negative imbalance of the fee. -/
  onUnbalanced : ℕ → S → S
  /-- The drop of a positive imbalance. -/
  dropPositive : ℕ → S → S

/-- `Event`, as far as a transaction deposits it. -/
inductive Event where
  | log (log : Shadows.Log)

/-- The storage of the pallet, the state of the system, and the events. -/
structure World (S : Type) where
  system : S
  accountCodes : H160 → Option Bytes
  accountStorages : H160 → H256 → Option H256
  events : List Event

/-- The configuration of the pallet. -/
structure Config (S AccountId : Type) where
  system : System S AccountId
  /-- `AddressMapping::into_account_id`. -/
  intoAccountId : H160 → AccountId
  /-- `FeeCalculator::min_gas_price`. -/
  minGasPrice : World S → U256

/-- `U256::from` of a balance or a nonce, saturated to a `u128`. -/
def saturatedU128 (n : ℕ) : U256 :=
  ⟨min n (2 ^ 128 - 1), lt_of_le_of_lt (min_le_right _ _) (by decide)⟩

structure Account where
  nonce : U256
  balance : U256

variable {S AccountId : Type} (cfg : Config S AccountId)

def accountBasic (world : World S) (address : H160) : Account :=
  let accountId := cfg.intoAccountId address
  let nonce := cfg.system.accountNonce world.system accountId
  let balance := cfg.system.freeBalance world.system accountId
  { nonce := saturatedU128 nonce.toNat, balance := saturatedU128 balance }

def createAccount (address : H160) (code : Bytes) (world : World S) : World S :=
  if code.isEmpty then world
  else
    let system :=
      if (world.accountCodes address).isNone then
        cfg.system.incConsumers (cfg.intoAccountId address) world.system
      else world.system
    { world with
      system := system
      accountCodes := Function.update world.accountCodes address (some code) }

def removeAccount (address : H160) (world : World S) : World S :=
  let system :=
    if (world.accountCodes address).isSome then
      cfg.system.decConsumers (cfg.intoAccountId address) world.system
    else world.system
  { world with
    system := system
    accountCodes := Function.update world.accountCodes address none
    accountStorages := Function.update world.accountStorages address fun _ => none }

end Shadows.Evm
