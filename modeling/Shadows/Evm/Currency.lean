import Shadows.Evm.StackState
import Mathlib.Logic.Function.Basic

/-!
# Moving value

The EVM moves 256-bit values, the currency amounts of 128 bits. What a move of value does to the
free balances, as the EVM takes it from the result, and what the currency promises.
-/

namespace Shadows.Evm

/-- The free balances after `amount` has moved from one account to another. -/
structure Moved {AccountId : Type} (source target : AccountId) (amount : ℕ)
    (free free' : AccountId → ℕ) : Prop where
  debited : free' source + amount = free source
  credited : free' target = free target + amount
  others : ∀ who, who ≠ source → who ≠ target → free' who = free who

variable {S AccountId : Type}

/-- `Currency::transfer`, as `pallet_balances` documents it without an existential deposit: nothing
is checked if there is nothing to move, and otherwise all of the amount moves or nothing does. It
moves if the source can use it, that is, if it is not locked, and the target can take it. -/
structure CurrencyLaws (sys : System S AccountId) (usableBalance : S → AccountId → ℕ) : Prop where
  transfer_nothing : ∀ source target amount s, amount = 0 ∨ source = target →
    sys.transfer source target amount s = some s
  transfer_moves : ∀ source target amount s s', amount ≠ 0 → source ≠ target →
    sys.transfer source target amount s = some s' →
      Moved source target amount (sys.freeBalance s) (sys.freeBalance s')
  transfer_none : ∀ source target amount s, amount ≠ 0 → source ≠ target →
    (sys.transfer source target amount s = none ↔
      usableBalance s source < amount ∨ 2 ^ 128 ≤ sys.freeBalance s target + amount)

variable (cfg : Config S AccountId)

def freeOf (world : World S) (who : AccountId) : ℕ := cfg.system.freeBalance world.system who

/-- A move of value does what its result says: `Ok` means that the source had the value and that it
has moved, and an error that no balance has changed. -/
def TransferSound (source target : H160) (value : U256) (world : World S) : Prop :=
  match transfer cfg source target value world with
  | (.ok (), world') =>
    value.val ≤ freeOf cfg world (cfg.intoAccountId source) ∧
      (cfg.intoAccountId source ≠ cfg.intoAccountId target →
        Moved (cfg.intoAccountId source) (cfg.intoAccountId target) value.val (freeOf cfg world)
          (freeOf cfg world')) ∧
      (cfg.intoAccountId source = cfg.intoAccountId target →
        ∀ who, freeOf cfg world' who = freeOf cfg world who)
  | (.error _, world') => ∀ who, freeOf cfg world' who = freeOf cfg world who

/-- The currency refuses to move the lower half of the value. -/
def TransferRefused (source target : H160) (value : U256) (world : World S) : Prop :=
  cfg.system.transfer (cfg.intoAccountId source) (cfg.intoAccountId target) value.lowU128
    world.system = none

/-- There is a lower half to move, and the source cannot use that much or the balance of the target
would overflow. -/
def LowerHalfUncovered (usableBalance : S → AccountId → ℕ) (source target : H160) (value : U256)
    (world : World S) : Prop :=
  value.lowU128 ≠ 0 ∧ cfg.intoAccountId source ≠ cfg.intoAccountId target ∧
    (usableBalance world.system (cfg.intoAccountId source) < value.lowU128 ∨
      2 ^ 128 ≤ freeOf cfg world (cfg.intoAccountId target) + value.lowU128)

/-! ## Purses -/

/-- The free balances of the EVM accounts, and nothing else. -/
abbrev Purses := H160 → ℕ

namespace Purses

/-- `transfer` with `AllowDeath`. -/
def transfer (source target : H160) (amount : ℕ) (l : Purses) : Option Purses :=
  if amount = 0 ∨ source = target then some l
  else if l source < amount ∨ 2 ^ 128 ≤ l target + amount then none
  else some fun who =>
    if who = source then l source - amount
    else if who = target then l target + amount
    else l who

def withdraw (who : H160) (amount : ℕ) (l : Purses) : Option (ℕ × Purses) :=
  if l who < amount then none else some (amount, Function.update l who (l who - amount))

def deposit (who : H160) (amount : ℕ) (l : Purses) : Purses :=
  if 2 ^ 128 ≤ l who + amount then l else Function.update l who (l who + amount)

end Purses

/-- A currency without an existential deposit, on accounts without nonces and references. -/
def purseSystem : System Purses H160 where
  accountNonce := fun _ _ => 0
  incAccountNonce := fun _ l => l
  incConsumers := fun _ l => l
  decConsumers := fun _ l => l
  freeBalance := fun l who => l who
  withdraw := Purses.withdraw
  depositIntoExisting := fun who amount l => some (amount, Purses.deposit who amount l)
  depositCreating := Purses.deposit
  transfer := Purses.transfer
  onUnbalanced := fun _ l => l
  dropPositive := fun _ l => l

def purseConfig : Config Purses H160 where
  system := purseSystem
  intoAccountId := id
  minGasPrice := fun _ => 1

/-- The account `7` has the free balance `10`. -/
def onePurse : World Purses := ⟨Function.update (fun _ => 0) 7 10, fun _ => none, fun _ _ => none, []⟩

end Shadows.Evm
