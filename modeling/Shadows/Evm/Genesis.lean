import Shadows.Evm.References

/-!
# The state at genesis

What the accounts of the genesis configuration look like once they are built, and what the builder
relies on. The accounts of a configuration are a `BTreeMap`, and so is the storage of each.
-/

namespace Shadows.Evm

variable {S AccountId : Type}

/-- What a balance makes of the operations of the genesis builder. A deposit below the existential
deposit, or beyond what a balance can be, may fail. -/
structure EndowmentLaws (sys : System S AccountId) (balance : S → AccountId → ℕ)
    (existentialDeposit : ℕ) : Prop where
  incAccountNonce : ∀ who s other, balance (sys.incAccountNonce who s) other = balance s other
  depositCreating : ∀ who amount s, amount = 0 ∨ existentialDeposit ≤ amount →
    balance s who + amount < 2 ^ 128 →
      balance (sys.depositCreating who amount s) who = balance s who + amount
  depositCreating_other : ∀ who amount s other, other ≠ who →
    balance (sys.depositCreating who amount s) other = balance s other

/-- An account of which the nonce is a `u32` and the balance a `u128` that is not below the existential
deposit, unless it is zero. -/
structure GenesisAccount.Fits (existentialDeposit : ℕ) (account : GenesisAccount) : Prop where
  nonce : account.nonce.val < 2 ^ 32
  balance : account.balance.val < 2 ^ 128
  endowed : account.balance.val = 0 ∨ existentialDeposit ≤ account.balance.val
  keys : (account.storage.map Prod.fst).Nodup

/-- The accounts of a genesis configuration, in a system in which their accounts are new. -/
structure GenesisFits (cfg : Config S AccountId) (existentialDeposit : ℕ)
    (accounts : List (H160 × GenesisAccount)) (system : S) : Prop where
  keys : (accounts.map Prod.fst).Nodup
  fits : ∀ entry ∈ accounts, entry.2.Fits existentialDeposit
  nonce : ∀ entry ∈ accounts, cfg.system.accountNonce system (cfg.intoAccountId entry.1) = 0
  balance : ∀ entry ∈ accounts, cfg.system.freeBalance system (cfg.intoAccountId entry.1) = 0

/-- What the pallets store of an address. -/
structure AccountView where
  nonce : UInt32
  balance : ℕ
  code : Option Bytes
  storage : H256 → Option H256

def accountView (cfg : Config S AccountId) (world : World S) (address : H160) : AccountView where
  nonce := cfg.system.accountNonce world.system (cfg.intoAccountId address)
  balance := cfg.system.freeBalance world.system (cfg.intoAccountId address)
  code := world.accountCodes address
  storage := world.accountStorages address

/-- What is stored is what the account of the configuration says. -/
structure AccountView.Shows (view : AccountView) (account : GenesisAccount) : Prop where
  nonce : view.nonce.toNat = account.nonce.val
  balance : view.balance = account.balance.val
  code : view.code = some account.code
  storage : ∀ index value, view.storage index = some value ↔ (index, value) ∈ account.storage

/-- What the accounts of a configuration are given. -/
def endowment (accounts : List (H160 × GenesisAccount)) : ℕ :=
  (accounts.map fun entry => entry.2.balance.val).sum

/-! ## A faucet and a contract -/

/-- An account without code, and a contract that has been used before. -/
def twoAccounts : List (H160 × GenesisAccount) :=
  [(5, ⟨0, 1000, [], []⟩), (6, ⟨2, 0, [(1, 7), (2, 0)], [0]⟩)]

/-- The account `7` is given `10`. -/
def tillAccounts : List (H160 × GenesisAccount) := [(7, ⟨0, 10, [], []⟩)]

end Shadows.Evm
