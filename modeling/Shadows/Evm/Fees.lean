import Shadows.Evm.Currency
import Shadows.Evm.Runner
import Shadows.Foundations.Totals

/-!
# Paying for an execution

The fee for the whole gas limit is withdrawn before an execution, and what it has not used is
refunded after it, unless the account has died meanwhile. The assumptions on the currency: imbalances
are exact, there is no dust to remove, and what is unbalanced is burned.
-/

namespace Shadows.Evm

open Foundations

variable {S AccountId M R : Type}

/-- What the payment relies on. The balance of an account is its free and its reserved part; a
deposit fails for a missing account, and where the free part would overflow. -/
structure FeeLaws (sys : System S AccountId) (totalBalance : S → AccountId → ℕ)
    (existing : S → AccountId → Prop) : Prop where
  freeBalance_le : ∀ s who, sys.freeBalance s who ≤ totalBalance s who
  withdraw : ∀ who amount s imbalance s', sys.withdraw who amount s = some (imbalance, s') →
    imbalance = amount ∧ totalBalance s' who + amount = totalBalance s who ∧
      ∀ other, other ≠ who → totalBalance s' other = totalBalance s other
  deposit_isSome : ∀ who amount s, (sys.depositIntoExisting who amount s).isSome ↔
    amount = 0 ∨ existing s who ∧ sys.freeBalance s who + amount < 2 ^ 128
  deposit : ∀ who amount s imbalance s', sys.depositIntoExisting who amount s =
    some (imbalance, s') → imbalance = amount ∧
      totalBalance s' who = totalBalance s who + amount ∧
      ∀ other, other ≠ who → totalBalance s' other = totalBalance s other
  onUnbalanced : ∀ imbalance s who,
    totalBalance (sys.onUnbalanced imbalance s) who = totalBalance s who
  decConsumers : ∀ address s who,
    totalBalance (sys.decConsumers address s) who = totalBalance s who

/-- The operations of an execution move balances and do nothing else to them. -/
structure MoveLaws (sys : System S AccountId) (totalBalance : S → AccountId → ℕ) : Prop where
  incAccountNonce : ∀ address s who,
    totalBalance (sys.incAccountNonce address s) who = totalBalance s who
  incConsumers : ∀ address s who,
    totalBalance (sys.incConsumers address s) who = totalBalance s who
  transfer_same : ∀ source amount s s', sys.transfer source source amount s = some s' →
    ∀ who, totalBalance s' who = totalBalance s who
  transfer : ∀ source target amount s s', source ≠ target →
    sys.transfer source target amount s = some s' →
      Moved source target amount (totalBalance s) (totalBalance s')

/-- The execution body does not change the total of the balances. -/
def Conserves (cfg : Config S AccountId) (exec : Executor S M)
    (totalBalance : S → AccountId → ℕ) (gasLimit : UInt64)
    (f : Vicinity → World S → ExecutorRun R) : Prop :=
  ∀ vicinity world total rs st, SumsTo (totalBalance world.system) total →
    stackCalls cfg exec.metadataOps (f vicinity world).trace.calls
      (.new (exec.newMetadata gasLimit) ⟨world, []⟩) = some (rs, st) →
        SumsTo (totalBalance st.storage.current.system) total

/-- The total in the current storage, and in every storage to roll back to. -/
structure StorageSumsTo (totalBalance : S → AccountId → ℕ) (total : ℕ)
    (storage : Overlays (World S)) : Prop where
  current : SumsTo (totalBalance storage.current.system) total
  saved : ∀ world ∈ storage.saved, SumsTo (totalBalance world.system) total

/-- The execution body reports at most the fee of the gas limit. -/
def FeeBounded (gasLimit : UInt64) (f : Vicinity → World S → ExecutorRun R) : Prop :=
  ∀ vicinity world,
    ((f vicinity world).fee vicinity.gasPrice).val ≤ vicinity.gasPrice.val * gasLimit.toNat

/-- The fee that an execution has cost in the end. `refunding` is the world when the refund is made,
`world'` the one after the execution, and `total` was the total of all balances before it. -/
structure Settled (totalBalance : S → AccountId → ℕ) (existing : S → AccountId → Prop)
    (payer : AccountId) (totalFee actualFee : U256) (refunding world' : World S)
    (total charged : ℕ) : Prop where
  when_existing : existing refunding.system payer → charged = actualFee.val
  when_missing : ¬ existing refunding.system payer → charged = totalFee.val
  at_least : actualFee.val ≤ charged
  at_most : charged ≤ totalFee.val
  fallen : ∃ rest, rest + charged = total ∧ SumsTo (totalBalance world'.system) rest
  /-- `low_u128` in the withdrawal. -/
  withdrawal_whole : totalFee.lowU128 = totalFee.val
  /-- `low_u128` in the refund. -/
  refund_whole : actualFee.lowU128 = actualFee.val

/-! ## A till -/

/-- `deposit_into_existing`: an account without a balance does not exist. -/
def Purses.depositIntoExisting (who : H160) (amount : ℕ) (l : Purses) : Option (ℕ × Purses) :=
  if amount = 0 then some (0, l)
  else if l who = 0 ∨ 2 ^ 128 ≤ l who + amount then none
  else some (amount, Function.update l who (l who + amount))

def tillConfig : Config Purses H160 :=
  { purseConfig with
    system := { purseSystem with depositIntoExisting := Purses.depositIntoExisting } }

/-- A call that moves `3` from the account `7` to the account `8` and uses two units of gas. -/
def tillRun (_ : Vicinity) (_ : World Purses) : ExecutorRun Bytes :=
  ⟨.op (.transfer 7 8 3) .nil, .succeed, [], 2, fun price => price * .ofU64 2⟩

/-- The executor of which every call is `tillRun`. -/
def tillExecutor : Executor Purses Unit where
  newMetadata := fun _ => ()
  metadataOps := ⟨fun _ _ _ => (), fun _ _ => (.ok (), ()), fun _ _ => (.ok (), ()),
    fun _ _ => (.ok (), ())⟩
  transactCall := fun _ _ _ _ _ => tillRun
  transactCreate := fun _ _ _ _ _ _ => ⟨.nil, .succeed, (), 0, fun _ => 0⟩
  createAddress := fun _ _ => 1

end Shadows.Evm
