import Shadows.Evm.Runner

/-!
# What the runner relies on

The contracts of the third-party code under the runner, and the conditions under which a transaction
does not take back the nonce of an account. `frame_system` keeps nonce and balance in one record, so
that an account that dies for lack of balance loses its nonce.
-/

namespace Shadows.Evm

open Foundations

/-- What decides whether an account dies: the existential deposit, its free and reserved balance,
and whether it holds references. -/
structure Holdings (S AccountId : Type) where
  existentialDeposit : ℕ
  totalBalance : S → AccountId → ℕ
  referenced : S → AccountId → Prop

/-- Taking an amount off an account removes it. -/
def Holdings.Reaps {S AccountId : Type} (hold : Holdings S AccountId) (who : AccountId) (amount : ℕ)
    (s : S) : Prop :=
  0 < amount ∧ ¬ hold.referenced s who ∧
    hold.totalBalance s who < amount + hold.existentialDeposit

/-- What happens to nonces in `frame_system` and `pallet_balances`. -/
structure SystemLaws {S AccountId : Type} (sys : System S AccountId)
    (hold : Holdings S AccountId) : Prop where
  inc_self : ∀ who s, (sys.accountNonce s who).toNat + 1 < 2 ^ 32 →
    (sys.accountNonce (sys.incAccountNonce who s) who).toNat = (sys.accountNonce s who).toNat + 1
  inc_other : ∀ who other s, other ≠ who →
    sys.accountNonce (sys.incAccountNonce who s) other = sys.accountNonce s other
  incConsumers : ∀ who other s,
    sys.accountNonce (sys.incConsumers who s) other = sys.accountNonce s other
  decConsumers : ∀ who other s,
    sys.accountNonce (sys.decConsumers who s) other = sys.accountNonce s other
  withdraw : ∀ who amount s imbalance s', sys.withdraw who amount s = some (imbalance, s') →
    ∀ other, (other = who → ¬ hold.Reaps who amount s) →
      sys.accountNonce s' other = sys.accountNonce s other
  withdraw_reaps : ∀ who amount s imbalance s', sys.withdraw who amount s = some (imbalance, s') →
    hold.Reaps who amount s → sys.accountNonce s' who = 0
  depositIntoExisting : ∀ who amount s imbalance s',
    sys.depositIntoExisting who amount s = some (imbalance, s') →
      ∀ other, sys.accountNonce s' other = sys.accountNonce s other
  depositCreating : ∀ who amount s other,
    sys.accountNonce (sys.depositCreating who amount s) other = sys.accountNonce s other
  transfer : ∀ source target amount s s', sys.transfer source target amount s = some s' →
    ∀ other, (other = source → source ≠ target → ¬ hold.Reaps source amount s) →
      sys.accountNonce s' other = sys.accountNonce s other
  transfer_reaps : ∀ source target amount s s', sys.transfer source target amount s = some s' →
    source ≠ target → hold.Reaps source amount s → sys.accountNonce s' source = 0
  onUnbalanced : ∀ imbalance s other,
    sys.accountNonce (sys.onUnbalanced imbalance s) other = sys.accountNonce s other
  dropPositive : ∀ imbalance s other,
    sys.accountNonce (sys.dropPositive imbalance s) other = sys.accountNonce s other

variable {S AccountId M R : Type}

/-- A run of the executor: the exits succeed; a gas limit of at least the intrinsic cost makes it
increment the nonce of the caller once, and with a lower one it stops with an error at once. -/
structure RunLaws (cfg : Config S AccountId) (exec : Executor S M) (source : H160)
    (intrinsicCost : ℕ) (gasLimit : UInt64) (world : World S) (run : ExecutorRun R) : Prop where
  exits : ∀ rs st, stackCalls cfg exec.metadataOps run.trace.calls
    (.new (exec.newMetadata gasLimit) ⟨world, []⟩) = some (rs, st) → ∀ r ∈ rs, r = .ok ()
  increments : intrinsicCost ≤ gasLimit.toNat → run.trace.survivors.count (.incNonce source) = 1
  stops : gasLimit.toNat < intrinsicCost → run.trace = .nil ∧ ∃ e, run.exitReason = .error e

/-- The executor of the `evm` crate, with the intrinsic cost of a call and of a creation by their
data. -/
structure ExecutorLaws (cfg : Config S AccountId) (exec : Executor S M)
    (callCost createCost : Bytes → ℕ) : Prop where
  call : ∀ source target value input gasLimit vicinity world,
    RunLaws cfg exec source (callCost input) gasLimit world
      (exec.transactCall source target value input gasLimit vicinity world)
  create : ∀ source value init gasLimit vicinity world,
    RunLaws cfg exec source (createCost init) gasLimit world
      (exec.transactCreate source value init gasLimit vicinity world)

/-! ## Whose code runs -/

/-- There is no code at the address. -/
def Codeless (address : H160) (world : World S) : Prop := (world.accountCodes address).getD [] = []

/-- The operation belongs to the creation of a contract at the address. -/
def StackOp.CreatesAt (address : H160) : StackOp → Prop
  | .resetStorage created => created = address
  | .setCode created _ => created = address
  | _ => False

/-- A run creates a contract at the address, be it reverted or not. -/
def Creates (address : H160) (run : ExecutorRun R) : Prop :=
  ∃ o, .op o ∈ run.trace.calls ∧ o.CreatesAt address

/-- What acts in a run: its caller, the addresses that have code at its start, and those at which it creates
a contract. -/
def Acts (source : H160) (world : World S) (run : ExecutorRun R) (address : H160) : Prop :=
  address = source ∨ ¬ Codeless address world ∨ Creates address run

/-- What a run of the executor does to nonces: it increments those of contracts and that of its caller, the
latter once if the caller is no contract. A run that does not start has no effect at all. -/
structure RunNonces (cfg : Config S AccountId) (exec : Executor S M) (source : H160) (starts : Prop)
    (gasLimit : UInt64) (world : World S) (run : ExecutorRun R) : Prop where
  exits : ∀ rs st, stackCalls cfg exec.metadataOps run.trace.calls
    (.new (exec.newMetadata gasLimit) ⟨world, []⟩) = some (rs, st) → ∀ r ∈ rs, r = .ok ()
  own : ∀ address, .incNonce address ∈ run.trace.survivors → Acts source world run address
  increments : Codeless source world → ¬ Creates source run → starts →
    run.trace.survivors.count (.incNonce source) = 1
  stops : ¬ starts → run.trace = .nil

/-- The executor of the `evm` crate, as for the nonces: it starts if the gas limit covers the intrinsic cost
and, for a creation, the caller has the value. -/
structure NonceLaws (cfg : Config S AccountId) (exec : Executor S M)
    (callCost createCost : Bytes → ℕ) : Prop where
  call : ∀ source target value input gasLimit vicinity world,
    RunNonces cfg exec source (callCost input ≤ gasLimit.toNat) gasLimit world
      (exec.transactCall source target value input gasLimit vicinity world)
  create : ∀ source value init gasLimit vicinity world,
    RunNonces cfg exec source
      (createCost init ≤ gasLimit.toNat ∧ value ≤ (accountBasic cfg world source).balance) gasLimit world
      (exec.transactCreate source value init gasLimit vicinity world)

/-- An execution that gets so far creates a contract at the address. -/
def ExecuteCreates (cfg : Config S AccountId) (address source : H160) (value : U256) (gasLimit : UInt64)
    (gasPrice nonce : Option U256) (f : Vicinity → World S → ExecutorRun R) (world : World S) : Prop :=
  ∃ price fee paid, prepare cfg source value gasLimit gasPrice nonce world = .ok (price, fee, paid) ∧
    Creates address (f ⟨price, source⟩ paid)

/-! ## Keeping the nonce of an account -/

def nonceOf (cfg : Config S AccountId) (who : AccountId) (world : World S) : ℕ :=
  (cfg.system.accountNonce world.system who).toNat

section Keeps

variable (cfg : Config S AccountId) (hold : Holdings S AccountId) (who : AccountId)

/-- A withdrawal does not remove the account together with its nonce. -/
def WithdrawKeeps (source : AccountId) (amount : ℕ) (s : S) : Prop :=
  source = who → cfg.system.accountNonce s who ≠ 0 →
    (cfg.system.withdraw source amount s).isSome → ¬ hold.Reaps source amount s

def TransferKeeps (source target : AccountId) (amount : ℕ) (s : S) : Prop :=
  source = who → source ≠ target → cfg.system.accountNonce s who ≠ 0 →
    (cfg.system.transfer source target amount s).isSome → ¬ hold.Reaps source amount s

/-- An operation neither removes the account together with its nonce nor wraps the nonce around. -/
def StackOp.Keeps (world : World S) : StackOp → Prop
  | .incNonce address =>
    cfg.intoAccountId address = who → nonceOf cfg who world + 1 < 2 ^ 32
  | .transfer source target value =>
    TransferKeeps cfg hold who (cfg.intoAccountId source) (cfg.intoAccountId target) value.lowU128
      world.system
  | _ => True

/-- The same for a list of operations, one after the other. -/
def OpsKeep : List StackOp → World S → Prop
  | [], _ => True
  | o :: os, world => o.Keeps cfg hold who world ∧ OpsKeep os (o.applyWorld cfg world)

/-- The same for the withdrawal of the fee and for what an execution leaves, if it gets so far. -/
def ExecuteKeeps (source : H160) (value : U256) (gasLimit : UInt64) (gasPrice nonce : Option U256)
    (f : Vicinity → World S → ExecutorRun R) (world : World S) : Prop :=
  ∀ price fee world', prepare cfg source value gasLimit gasPrice nonce world =
    .ok (price, fee, world') →
      WithdrawKeeps cfg hold who (cfg.intoAccountId source)
        (price * .ofU64 gasLimit : U256).lowU128 world.system ∧
      OpsKeep cfg hold who (f ⟨price, source⟩ world').trace.survivors world'

end Keeps

end Shadows.Evm
