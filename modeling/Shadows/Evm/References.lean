import Shadows.Evm.Ledger
import Shadows.Foundations.Runs

/-!
# Consumer references

`create_account` takes a consumer reference on the account of a contract and `remove_account` gives
it back, so that the account is not removed while its code is stored. The genesis builder stores code
too.
-/

namespace Shadows.Evm

open Foundations

/-- `GenesisAccount`; the storage in the order of its `BTreeMap`. -/
structure GenesisAccount where
  nonce : U256
  balance : U256
  storage : List (H256 × H256)
  code : Bytes

variable {S AccountId : Type}

section Genesis

variable (cfg : Config S AccountId)

/-- One account in the genesis builder. -/
def buildAccount (address : H160) (account : GenesisAccount) (world : World S) : World S :=
  let accountId := cfg.intoAccountId address
  let system := (cfg.system.incAccountNonce accountId)^[account.nonce.lowU128] world.system
  let system := cfg.system.depositCreating accountId account.balance.lowU128 system
  let storage := account.storage.foldl
    (fun (storage : H256 → Option H256) entry =>
      Function.update storage entry.1 (some entry.2))
    (world.accountStorages address)
  { world with
    system := system
    accountCodes := Function.update world.accountCodes address (some account.code)
    accountStorages := Function.update world.accountStorages address storage }

/-- The genesis builder, on the state that the pallets before have built. -/
def buildGenesis (accounts : List (H160 × GenesisAccount)) (system : S) : World S :=
  accounts.foldl (fun world entry => buildAccount cfg entry.1 entry.2 world)
    ⟨system, fun _ => none, fun _ _ => none, []⟩

end Genesis

/-! ## References in `frame_system` -/

/-- What `frame_system` knows about references: the consumers of an account, those of them that the
other pallets account for, whether it has a provider, and whether it exists. -/
structure References (S AccountId : Type) where
  consumers : S → AccountId → ℕ
  others : S → AccountId → ℕ
  provided : S → AccountId → Prop
  alive : S → AccountId → Prop

/-- A change of balances, together with what the other pallets make of it: they take and release
their own references, and an account is removed only when it has no consumers. -/
structure BalanceChange (refs : References S AccountId) (s s' : S) : Prop where
  own : ∀ who, refs.consumers s' who + refs.others s who = refs.consumers s who + refs.others s' who
  removed : ∀ who, refs.alive s who → ¬ refs.alive s' who → refs.consumers s who = 0

/-- The references taken and released through `frame_system`. -/
structure ReferenceLaws (sys : System S AccountId) (refs : References S AccountId) : Prop where
  inc_provided : ∀ who s, refs.provided s who →
    refs.consumers (sys.incConsumers who s) who = refs.consumers s who + 1
  inc_unprovided : ∀ who s, ¬ refs.provided s who → sys.incConsumers who s = s
  inc_other : ∀ who other s, other ≠ who →
    refs.consumers (sys.incConsumers who s) other = refs.consumers s other
  inc_others : ∀ who other s, refs.others (sys.incConsumers who s) other = refs.others s other
  dec_positive : ∀ who s, 0 < refs.consumers s who →
    refs.consumers (sys.decConsumers who s) who + 1 = refs.consumers s who
  dec_other : ∀ who other s, other ≠ who →
    refs.consumers (sys.decConsumers who s) other = refs.consumers s other
  dec_others : ∀ who other s, refs.others (sys.decConsumers who s) other = refs.others s other
  incAccountNonce : ∀ who s, BalanceChange refs s (sys.incAccountNonce who s)
  depositCreating : ∀ who amount s, BalanceChange refs s (sys.depositCreating who amount s)

variable (cfg : Config S AccountId) (refs : References S AccountId)

/-- `pallet_evm` holds one reference on the account of an address with stored code, and none on the
others. -/
def ReferencesMatch (world : World S) : Prop :=
  ∀ address, refs.consumers world.system (cfg.intoAccountId address) =
    refs.others world.system (cfg.intoAccountId address) +
      if (world.accountCodes address).isSome then 1 else 0

/-- The references match, and no change of balances removes the account of a contract. -/
def ReferencesSound (world : World S) : Prop :=
  ReferencesMatch cfg refs world ∧
    ∀ address, (world.accountCodes address).isSome → ∀ s, BalanceChange refs world.system s →
      refs.alive world.system (cfg.intoAccountId address) →
        refs.alive s (cfg.intoAccountId address)

/-! ## Runs -/

inductive AccountOp where
  | createAccount (address : H160) (code : Bytes)
  | removeAccount (address : H160)
  | balanceChange

/-- The operations on accounts, and changes of balances. -/
inductive AccountStep : World S → AccountOp → World S → Prop where
  | createAccount (world : World S) (address : H160) (code : Bytes) :
      AccountStep world (.createAccount address code) (createAccount cfg address code world)
  | removeAccount (world : World S) (address : H160) :
      AccountStep world (.removeAccount address) (removeAccount cfg address world)
  | balanceChange (world : World S) (s : S) (hs : BalanceChange refs world.system s) :
      AccountStep world .balanceChange { world with system := s }

/-- A new contract finds its account with a provider. -/
def CreatesProvided (world : World S) (op : AccountOp) (_ : World S) : Prop :=
  match op with
  | .createAccount address code =>
    code ≠ [] → world.accountCodes address = none →
      refs.provided world.system (cfg.intoAccountId address)
  | _ => True

/-! ## On the ledger -/

def ledgerReferences : References Ledger H160 where
  consumers := fun l who => (l who).consumers
  others := fun _ _ => 0
  provided := fun l who => (l who).free ≠ 0
  alive := fun l who => (l who).free ≠ 0

/-- No accounts at all. -/
def emptyLedger : Ledger := fun _ => ⟨0, 0, 0⟩

/-- A contract at genesis: a balance of `1000`, and one byte of code. -/
def genesisContract : GenesisAccount := ⟨0, 1000, [], [0]⟩

/-- The world in which the account `5` has received a balance of `1000`. -/
def fundedContract : World Ledger :=
  { buildGenesis ledgerConfig [] emptyLedger with
    system := Ledger.depositCreating 5 1000 emptyLedger }

end Shadows.Evm
