import Shadows.Evm.Fees
import Shadows.Evm.Laws

/-!
# The calls of `pallet_evm`

Substrate accounts use the EVM through the pallet's own calls: they withdraw the balance of an address, or
execute a message call or a creation from it. An origin has to be allowed to act for the address.
-/

namespace Shadows.Evm

open Foundations

/-! ## Origins and addresses -/

/-- `RawOrigin`, and the origins of other pallets. -/
inductive Origin (AccountId : Type) where
  | root
  | signed (who : AccountId)
  | none
  | other

/-- `EnsureAddressOrigin::try_address_origin`; an origin that is refused is given back. -/
abbrev AddressOrigin (AccountId Success : Type) :=
  H160 → Origin AccountId → Except (Origin AccountId) Success

/-- `EnsureAddressSame`. -/
def ensureAddressSame : AddressOrigin H160 H160
  | address, .signed who => if who = address then .ok who else .error (.signed who)
  | _, origin => .error origin

/-- `EnsureAddressRoot`. -/
def ensureAddressRoot {AccountId : Type} : AddressOrigin AccountId Unit
  | _, .root => .ok ()
  | _, origin => .error origin

/-- `EnsureAddressNever`. -/
def ensureAddressNever {AccountId : Type} : AddressOrigin AccountId AccountId
  | _, origin => .error origin

abbrev AccountId32 := BitVec 256

/-- The first twenty bytes of an account. -/
def truncated (who : AccountId32) : Bytes := (H256.asBytes who).take 20

/-- `EnsureAddressTruncated`. -/
def ensureAddressTruncated : AddressOrigin AccountId32 AccountId32
  | address, .signed who =>
    if truncated who = address.asBytes then .ok who else .error (.signed who)
  | _, origin => .error origin

/-- `b"evm:"`. -/
def evmPrefix : Bytes := [101, 118, 109, 58]

/-- `HashedAddressMapping`. -/
def hashedAddressMapping (hash : Bytes → H256) (address : H160) : AccountId32 :=
  hash (evmPrefix ++ address.asBytes)

/-! ## The calls -/

/-- `Call`. -/
inductive PalletCall where
  | withdraw (address : H160) (value : ℕ)
  | call (source target : H160) (input : Bytes) (value : U256) (gasLimit : UInt64) (gasPrice : U256)
      (nonce : Option U256)
  | create (source : H160) (init : Bytes) (value : U256) (gasLimit : UInt64) (gasPrice : U256)
      (nonce : Option U256)
  | create2 (source : H160) (init : Bytes) (salt : H256) (value : U256) (gasLimit : UInt64)
      (gasPrice : U256) (nonce : Option U256)

/-- The events that a call deposits. -/
inductive PalletEvent where
  | log (log : Shadows.Log)
  | created (address : H160)
  | createdFailed (address : H160)
  | executed (target : H160)
  | executedFailed (target : H160)
  deriving DecidableEq

inductive DispatchError where
  | badOrigin
  | module (e : EvmError)
  /-- What `Currency::transfer` returns. -/
  | currency

/-- `PostDispatchInfo`; the declared weight stands if there is no actual one. -/
structure PostDispatchInfo where
  actualWeight : Option UInt64
  paysFee : Bool

/-- What the executor does for `CREATE2`, and the hash of `sha3`. -/
structure Create2 (S : Type) where
  /-- `transact_create2`, from caller, value, init code, salt and gas limit. -/
  transactCreate2 : H160 → U256 → Bytes → H256 → UInt64 → Vicinity → World S → ExecutorRun Unit
  /-- `create_address` with `CreateScheme::Create2`, from caller, hash of the code and salt. -/
  createAddress : H160 → H256 → H256 → World S → H160
  keccak256 : Bytes → H256

/-- The pallet with what its runtime has chosen for the calls. -/
structure Pallet (S AccountId M : Type) where
  config : Config S AccountId
  executor : Executor S M
  create2 : Create2 S
  /-- `CallOrigin`, of which the success is dropped. -/
  callOrigin : AddressOrigin AccountId Unit
  withdrawOrigin : AddressOrigin AccountId AccountId
  gasToWeight : UInt64 → UInt64

variable {S AccountId M R : Type}

/-- The operation of `Runner::create2`: the address is computed before the execution. -/
def create2Operation (create2 : Create2 S) (source : H160) (init : Bytes) (salt : H256) (value : U256)
    (gasLimit : UInt64) (vicinity : Vicinity) (world : World S) : ExecutorRun H160 :=
  let codeHash := create2.keccak256 init
  let address := create2.createAddress source codeHash salt world
  let run := create2.transactCreate2 source value init salt gasLimit vicinity world
  ⟨run.trace, run.exitReason, address, run.usedGas, run.fee⟩

/-- What a call returns, the events it deposits, and the state it leaves. -/
abbrev Dispatched (S : Type) := Except DispatchError PostDispatchInfo × List PalletEvent × World S

section Dispatch

variable (pallet : Pallet S AccountId M)

/-- `withdraw`. -/
def dispatchWithdraw (origin : Origin AccountId) (address : H160) (value : ℕ) (world : World S) :
    Dispatched S :=
  match pallet.withdrawOrigin address origin with
  | .error _ => (.error .badOrigin, [], world)
  | .ok destination =>
    match pallet.config.system.transfer (pallet.config.intoAccountId address) destination value
        world.system with
    | none => (.error .currency, [], world)
    | some system => (.ok ⟨none, true⟩, [], { world with system := system })

/-- What `call`, `create` and `create2` have in common: the check of the origin, the execution in the
runner, and the event, from the exit reason and the value of the execution. -/
def dispatchExecution (origin : Origin AccountId) (source : H160) (value : U256) (gasLimit : UInt64)
    (gasPrice : U256) (nonce : Option U256) (f : Vicinity → World S → ExecutorRun R)
    (outcome : ExitReason → R → PalletEvent) (world : World S) : Option (Dispatched S) :=
  match pallet.callOrigin source origin with
  | .error _ => some (.error .badOrigin, [], world)
  | .ok () =>
    (execute pallet.config pallet.executor source value gasLimit (some gasPrice) nonce f world).map
      fun (result, world) =>
        match result with
        | .error e => (.error (.module e), [], world)
        | .ok info =>
          (.ok ⟨some (pallet.gasToWeight info.usedGas.saturatedU64), false⟩,
            info.logs.map .log ++ [outcome info.exitReason info.value], world)

def callOutcome (target : H160) (reason : ExitReason) (_ : Bytes) : PalletEvent :=
  match reason with
  | .succeed => .executed target
  | _ => .executedFailed target

def createOutcome (reason : ExitReason) (createAddress : H160) : PalletEvent :=
  match reason with
  | .succeed => .created createAddress
  | _ => .createdFailed createAddress

/-- A call of the pallet from an origin. -/
def dispatch (origin : Origin AccountId) (world : World S) : PalletCall → Option (Dispatched S)
  | .withdraw address value => some (dispatchWithdraw pallet origin address value world)
  | .call source target input value gasLimit gasPrice nonce =>
    dispatchExecution pallet origin source value gasLimit gasPrice nonce
      (pallet.executor.transactCall source target value input gasLimit) (callOutcome target) world
  | .create source init value gasLimit gasPrice nonce =>
    dispatchExecution pallet origin source value gasLimit gasPrice nonce
      (createOperation pallet.executor source init value gasLimit) createOutcome world
  | .create2 source init salt value gasLimit gasPrice nonce =>
    dispatchExecution pallet origin source value gasLimit gasPrice nonce
      (create2Operation pallet.create2 source init salt value gasLimit) createOutcome world

/-- The weight that a call declares. -/
def PalletCall.weight : PalletCall → UInt64
  | .withdraw .. => 0
  | .call _ _ _ _ gasLimit .. => pallet.gasToWeight gasLimit
  | .create _ _ _ gasLimit .. => pallet.gasToWeight gasLimit
  | .create2 _ _ _ _ gasLimit .. => pallet.gasToWeight gasLimit

end Dispatch

/-! ## Acting for an address -/

/-- The address that a call acts for. -/
def PalletCall.address : PalletCall → H160
  | .withdraw address _ => address
  | .call source .. => source
  | .create source .. => source
  | .create2 source .. => source

/-- An origin is not refused. -/
def Accepted {Success : Type} : Except (Origin AccountId) Success → Prop
  | .ok _ => True
  | .error _ => False

instance {Success : Type} (answer : Except (Origin AccountId) Success) : Decidable (Accepted answer) :=
  match answer with
  | .ok _ => isTrue trivial
  | .error _ => isFalse id

/-- The pallet lets the origin make the call. -/
def Allows (pallet : Pallet S AccountId M) (origin : Origin AccountId) : PalletCall → Prop
  | .withdraw address _ => Accepted (pallet.withdrawOrigin address origin)
  | .call source .. => Accepted (pallet.callOrigin source origin)
  | .create source .. => Accepted (pallet.callOrigin source origin)
  | .create2 source .. => Accepted (pallet.callOrigin source origin)

instance (pallet : Pallet S AccountId M) (origin : Origin AccountId) (c : PalletCall) :
    Decidable (Allows pallet origin c) :=
  match c with
  | .withdraw address _ => inferInstanceAs (Decidable (Accepted (pallet.withdrawOrigin address origin)))
  | .call source .. => inferInstanceAs (Decidable (Accepted (pallet.callOrigin source origin)))
  | .create source .. => inferInstanceAs (Decidable (Accepted (pallet.callOrigin source origin)))
  | .create2 source .. => inferInstanceAs (Decidable (Accepted (pallet.callOrigin source origin)))

/-- The calls of a run, one after the other, with what each has returned and deposited. -/
def runDispatches (pallet : Pallet S AccountId M) : List (Origin AccountId × PalletCall) → World S →
    Option (List (Except DispatchError PostDispatchInfo × List PalletEvent) × World S)
  | [], world => some ([], world)
  | (origin, c) :: rest, world =>
    (dispatch pallet origin world c).bind fun (result, events, world) =>
      (runDispatches pallet rest world).map fun (results, world) => ((result, events) :: results, world)

/-! ## What is reported -/

/-- The log that an event is, as it is among the events of the state. -/
def PalletEvent.deposited : PalletEvent → Option Event
  | .log emitted => some (.log emitted)
  | _ => none

/-- A call that the pallet lets its origin make comes to nothing: the currency refuses the transfer, or the
runner returns an error. -/
inductive PalletCall.Fails (pallet : Pallet S AccountId M) (world : World S) :
    PalletCall → DispatchError → World S → Prop where
  | withdraw (address : H160) (value : ℕ) (destination : AccountId)
      (h : pallet.config.system.transfer (pallet.config.intoAccountId address) destination value
        world.system = none) :
      Fails pallet world (.withdraw address value) .currency world
  | call (source target : H160) (input : Bytes) (value : U256) (gasLimit : UInt64) (gasPrice : U256)
      (nonce : Option U256) (e : EvmError) (world' : World S)
      (h : execute pallet.config pallet.executor source value gasLimit (some gasPrice) nonce
        (pallet.executor.transactCall source target value input gasLimit) world =
          some (.error e, world')) :
      Fails pallet world (.call source target input value gasLimit gasPrice nonce) (.module e) world'
  | create (source : H160) (init : Bytes) (value : U256) (gasLimit : UInt64) (gasPrice : U256)
      (nonce : Option U256) (e : EvmError) (world' : World S)
      (h : execute pallet.config pallet.executor source value gasLimit (some gasPrice) nonce
        (createOperation pallet.executor source init value gasLimit) world = some (.error e, world')) :
      Fails pallet world (.create source init value gasLimit gasPrice nonce) (.module e) world'
  | create2 (source : H160) (init : Bytes) (salt : H256) (value : U256) (gasLimit : UInt64)
      (gasPrice : U256) (nonce : Option U256) (e : EvmError) (world' : World S)
      (h : execute pallet.config pallet.executor source value gasLimit (some gasPrice) nonce
        (create2Operation pallet.create2 source init salt value gasLimit) world =
          some (.error e, world')) :
      Fails pallet world (.create2 source init salt value gasLimit gasPrice nonce) (.module e) world'

/-- The gas and the logs of the run of a call, and the event of its outcome: whether the run has succeeded,
and the target of a call or the address that a creation has computed. -/
inductive PalletCall.Ends (pallet : Pallet S AccountId M) (world : World S) :
    PalletCall → U256 → List Shadows.Log → PalletEvent → Prop where
  | call (source target : H160) (input : Bytes) (value : U256) (gasLimit : UInt64) (gasPrice : U256)
      (nonce : Option U256) (info : ExecutionInfo Bytes)
      (h : Returns pallet.config pallet.executor source value gasLimit (some gasPrice) nonce
        (pallet.executor.transactCall source target value input gasLimit) world info) :
      Ends pallet world (.call source target input value gasLimit gasPrice nonce) info.usedGas info.logs
        (if info.exitReason = .succeed then .executed target else .executedFailed target)
  | create (source : H160) (init : Bytes) (value : U256) (gasLimit : UInt64) (gasPrice : U256)
      (nonce : Option U256) (info : ExecutionInfo H160)
      (h : Returns pallet.config pallet.executor source value gasLimit (some gasPrice) nonce
        (createOperation pallet.executor source init value gasLimit) world info) :
      Ends pallet world (.create source init value gasLimit gasPrice nonce) info.usedGas info.logs
        (if info.exitReason = .succeed then .created info.value else .createdFailed info.value)
  | create2 (source : H160) (init : Bytes) (salt : H256) (value : U256) (gasLimit : UInt64)
      (gasPrice : U256) (nonce : Option U256) (info : ExecutionInfo H160)
      (h : Returns pallet.config pallet.executor source value gasLimit (some gasPrice) nonce
        (create2Operation pallet.create2 source init salt value gasLimit) world info) :
      Ends pallet world (.create2 source init salt value gasLimit gasPrice nonce) info.usedGas info.logs
        (if info.exitReason = .succeed then .created info.value else .createdFailed info.value)

/-- What a call reports, and the state it leaves. A call that is refused changes nothing and one that fails
deposits nothing; an execution ends with one event of its outcome, weighs what its gas does, which is at
most what it declares, and is not paid for again. -/
inductive Reports (pallet : Pallet S AccountId M) (world : World S) : Origin AccountId × PalletCall →
    Except DispatchError PostDispatchInfo × List PalletEvent → World S → Prop where
  | refused (origin : Origin AccountId) (c : PalletCall) (h : ¬ Allows pallet origin c) :
      Reports pallet world (origin, c) (.error .badOrigin, []) world
  | failed (origin : Origin AccountId) (c : PalletCall) (h : Allows pallet origin c) (e : DispatchError)
      (world' : World S) (hfails : c.Fails pallet world e world')
      (hevents : world'.events = world.events) :
      Reports pallet world (origin, c) (.error e, []) world'
  | withdrawn (origin : Origin AccountId) (address : H160) (value : ℕ) (destination : AccountId)
      (h : pallet.withdrawOrigin address origin = .ok destination) (system : S)
      (hmoves : pallet.config.system.transfer (pallet.config.intoAccountId address) destination value
        world.system = some system) :
      Reports pallet world (origin, .withdraw address value) (.ok ⟨none, true⟩, [])
        { world with system := system }
  | executed (origin : Origin AccountId) (c : PalletCall) (h : Allows pallet origin c) (usedGas : U256)
      (logs : List Shadows.Log) (event : PalletEvent) (hends : c.Ends pallet world usedGas logs event)
      (hweight : pallet.gasToWeight usedGas.saturatedU64 ≤ c.weight pallet) (world' : World S)
      (hevents : world'.events = world.events ++ logs.map .log) :
      Reports pallet world (origin, c)
        (.ok ⟨some (pallet.gasToWeight usedGas.saturatedU64), false⟩, logs.map .log ++ [event]) world'

/-- Every call of a run reports what it should, on the state that the calls before it have left. -/
inductive ReportsAll (pallet : Pallet S AccountId M) : World S → List (Origin AccountId × PalletCall) →
    List (Except DispatchError PostDispatchInfo × List PalletEvent) → World S → Prop where
  | nil (world : World S) : ReportsAll pallet world [] [] world
  | cons {world mid world' : World S} {call : Origin AccountId × PalletCall}
      {report : Except DispatchError PostDispatchInfo × List PalletEvent}
      {calls : List (Origin AccountId × PalletCall)}
      {reports : List (Except DispatchError PostDispatchInfo × List PalletEvent)}
      (h : Reports pallet world call report mid) (hrest : ReportsAll pallet mid calls reports world') :
      ReportsAll pallet world (call :: calls) (report :: reports) world'

/-- No run of the executor uses more gas than its limit. -/
structure GasLaws (exec : Executor S M) (create2 : Create2 S) : Prop where
  call : ∀ source target value input gasLimit vicinity world,
    (exec.transactCall source target value input gasLimit vicinity world).usedGas ≤ gasLimit
  create : ∀ source value init gasLimit vicinity world,
    (exec.transactCreate source value init gasLimit vicinity world).usedGas ≤ gasLimit
  create2 : ∀ source value init salt gasLimit vicinity world,
    (create2.transactCreate2 source value init salt gasLimit vicinity world).usedGas ≤ gasLimit

/-! ## Custody -/

/-- What `frame_system` and `pallet_balances` do to the free balance of an account from which nothing is
taken. -/
structure CustodyLaws (sys : System S AccountId) (who : AccountId) : Prop where
  incAccountNonce : ∀ other s, sys.freeBalance (sys.incAccountNonce other s) who = sys.freeBalance s who
  incConsumers : ∀ other s, sys.freeBalance (sys.incConsumers other s) who = sys.freeBalance s who
  decConsumers : ∀ other s, sys.freeBalance (sys.decConsumers other s) who = sys.freeBalance s who
  withdraw : ∀ other amount s imbalance s', other ≠ who →
    sys.withdraw other amount s = some (imbalance, s') → sys.freeBalance s' who = sys.freeBalance s who
  depositIntoExisting : ∀ other amount s imbalance s',
    sys.depositIntoExisting other amount s = some (imbalance, s') →
      imbalance = amount ∧ sys.freeBalance s who ≤ sys.freeBalance s' who
  transfer : ∀ source target amount s s', source ≠ who → sys.transfer source target amount s = some s' →
    sys.freeBalance s who ≤ sys.freeBalance s' who
  onUnbalanced : ∀ imbalance s, sys.freeBalance s who ≤ sys.freeBalance (sys.onUnbalanced imbalance s) who
  dropPositive : ∀ imbalance s, sys.freeBalance s who ≤ sys.freeBalance (sys.dropPositive imbalance s) who

/-- The value that a run moves, reverted or not, is that of its caller or of contracts. -/
def SpendsOwn (source : H160) (world : World S) (run : ExecutorRun R) : Prop :=
  ∀ sender target value, .op (.transfer sender target value) ∈ run.trace.calls →
    Acts source world run sender

/-- The EVM moves value only from the callers of calls and creations, which are the origin of the
transaction and the contracts that it executes. -/
structure CallerLaws (exec : Executor S M) (create2 : Create2 S) : Prop where
  call : ∀ source target value input gasLimit vicinity world, SpendsOwn source world
    (exec.transactCall source target value input gasLimit vicinity world)
  create : ∀ source value init gasLimit vicinity world, SpendsOwn source world
    (exec.transactCreate source value init gasLimit vicinity world)
  create2 : ∀ source value init salt gasLimit vicinity world, SpendsOwn source world
    (create2.transactCreate2 source value init salt gasLimit vicinity world)

/-- The execution of a call creates a contract at the address. -/
def PalletCall.Creates (pallet : Pallet S AccountId M) (address : H160) (world : World S) :
    PalletCall → Prop
  | .withdraw .. => False
  | .call source target input value gasLimit gasPrice nonce =>
    ExecuteCreates pallet.config address source value gasLimit (some gasPrice) nonce
      (pallet.executor.transactCall source target value input gasLimit) world
  | .create source init value gasLimit gasPrice nonce =>
    ExecuteCreates pallet.config address source value gasLimit (some gasPrice) nonce
      (createOperation pallet.executor source init value gasLimit) world
  | .create2 source init salt value gasLimit gasPrice nonce =>
    ExecuteCreates pallet.config address source value gasLimit (some gasPrice) nonce
      (create2Operation pallet.create2 source init salt value gasLimit) world

/-! ## Calls on purses -/

/-- The pallet on purses, where everybody acts for the own address. A call emits a log and uses no gas. -/
def samePallet : Pallet Purses H160 Unit where
  config := purseConfig
  executor :=
    { tillExecutor with
      transactCall := fun _ target _ _ _ _ _ =>
        ⟨.op (.log target [] []) .nil, .succeed, [], 0, fun _ => 0⟩ }
  create2 := ⟨fun _ _ _ _ _ _ _ => ⟨.nil, .revert, (), 0, fun _ => 0⟩, fun _ _ _ _ => 1, fun _ => 0⟩
  callOrigin := fun address origin => (ensureAddressSame address origin).map fun _ => ()
  withdrawOrigin := ensureAddressSame
  gasToWeight := id

/-- A call for the address `7`, and a withdrawal from it by somebody else. -/
def callThenTheft : List (Origin H160 × PalletCall) :=
  [(.signed 7, .call 7 8 [] 3 21000 0 none), (.signed 8, .withdraw 7 3)]

end Shadows.Evm
