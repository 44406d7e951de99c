import Shadows.Evm.Account
import Shadows.Foundations.Journal
import Mathlib.Data.Finset.Sort

/-!
# `SubstrateStackState`

The state that the executor of the `evm` crate works on: the chain storage, with the nested storage
transactions of the host, and a substate with one entry for each call frame.
-/

namespace Shadows.Evm

open Foundations

/-- `StackSubstateMetadata`, gas accounting of the `evm` crate. An exit hands the metadata of the
frame to that of its parent, and may fail. -/
structure MetadataOps (M : Type) where
  /-- `spit_child`, from the gas limit and the static flag. -/
  spitChild : M → UInt64 → Bool → M
  swallowCommit : M → M → Except ExitError Unit × M
  swallowRevert : M → M → Except ExitError Unit × M
  swallowDiscard : M → M → Except ExitError Unit × M

/-- The storage of the host with its open transactions, which behave as nested overlays: the values
to roll back to, innermost first. -/
structure Overlays (W : Type) where
  current : W
  saved : List W

namespace Overlays

variable {W : Type}

def startTransaction (o : Overlays W) : Overlays W := ⟨o.current, o.current :: o.saved⟩

/-- `sp_io::storage::commit_transaction`, which panics if no transaction is open. -/
def commitTransaction (o : Overlays W) : Option (Overlays W) :=
  match o.saved with
  | [] => none
  | _ :: saved => some ⟨o.current, saved⟩

/-- `sp_io::storage::rollback_transaction`, which panics if no transaction is open. -/
def rollbackTransaction (o : Overlays W) : Option (Overlays W) :=
  match o.saved with
  | [] => none
  | w :: saved => some ⟨w, saved⟩

end Overlays

structure Frame (M : Type) where
  metadata : M
  deletes : Finset H160
  logs : List Shadows.Log

/-- `SubstrateStackSubstate`: the current frame and the chain of its parents. -/
inductive Substate (M : Type) where
  | root (frame : Frame M)
  | child (frame : Frame M) (parent : Substate M)

namespace Substate

variable {M : Type}

def frame : Substate M → Frame M
  | root f => f
  | child f _ => f

def setFrame (f : Frame M) : Substate M → Substate M
  | root _ => root f
  | child _ parent => child f parent

def deleted (address : H160) : Substate M → Bool
  | root f => address ∈ f.deletes
  | child f parent => if address ∈ f.deletes then true else parent.deleted address

def setDeleted (address : H160) (substate : Substate M) : Substate M :=
  let f := substate.frame
  substate.setFrame { f with deletes := insert address f.deletes }

def log (address : H160) (topics : List H256) (data : Bytes) (substate : Substate M) :
    Substate M :=
  let f := substate.frame
  substate.setFrame { f with logs := f.logs ++ [⟨address, topics, data⟩] }

end Substate

/-- `SubstrateStackState`, with the storage that it works on. -/
structure StackState (S M : Type) where
  storage : Overlays (World S)
  substate : Substate M

/-- The operations of `StackState` that change something. -/
inductive StackOp where
  | incNonce (address : H160)
  | setStorage (address : H160) (index value : H256)
  | resetStorage (address : H160)
  | log (address : H160) (topics : List H256) (data : Bytes)
  | setDeleted (address : H160)
  | setCode (address : H160) (code : Bytes)
  | transfer (source target : H160) (value : U256)
  deriving DecidableEq

structure EnterArgs where
  gasLimit : UInt64
  isStatic : Bool
  deriving DecidableEq

abbrev StackCall := Call EnterArgs StackOp

variable {S AccountId M : Type}

/-! ## Operations on the storage -/

section Operations

variable (cfg : Config S AccountId)

def incNonce (address : H160) (world : World S) : World S :=
  { world with system := cfg.system.incAccountNonce (cfg.intoAccountId address) world.system }

def setStorage (address : H160) (index value : H256) (world : World S) : World S :=
  let storage := world.accountStorages address
  let storage :=
    if value = 0 then Function.update storage index none
    else Function.update storage index (some value)
  { world with accountStorages := Function.update world.accountStorages address storage }

def resetStorage (address : H160) (world : World S) : World S :=
  { world with accountStorages := Function.update world.accountStorages address fun _ => none }

def setCode (address : H160) (code : Bytes) (world : World S) : World S :=
  createAccount cfg address code world

def transfer (source target : H160) (value : U256) (world : World S) :
    Except ExitError Unit × World S :=
  match cfg.system.transfer (cfg.intoAccountId source) (cfg.intoAccountId target) value.lowU128
      world.system with
  | some system => (.ok (), { world with system := system })
  | none => (.error .outOfFund, world)

/-- The effect of an operation on the storage. What `transfer` returns goes to the executor. -/
def StackOp.applyWorld : StackOp → World S → World S
  | .incNonce address, world => Evm.incNonce cfg address world
  | .setStorage address index value, world => Evm.setStorage address index value world
  | .resetStorage address, world => Evm.resetStorage address world
  | .setCode address code, world => Evm.setCode cfg address code world
  | .transfer source target value, world => (Evm.transfer cfg source target value world).2
  | .log .., world => world
  | .setDeleted _, world => world

def StackOp.applySubstate : StackOp → Substate M → Substate M
  | .log address topics data, substate => substate.log address topics data
  | .setDeleted address, substate => substate.setDeleted address
  | _, substate => substate

end Operations

/-! ## Frames -/

section Frames

variable (ops : MetadataOps M)

def enter (args : EnterArgs) (st : StackState S M) : StackState S M where
  storage := st.storage.startTransaction
  substate := .child ⟨ops.spitChild st.substate.frame.metadata args.gasLimit args.isStatic, ∅, []⟩
    st.substate

/-- `exit_commit`; without a parent it panics. -/
def exitCommit (st : StackState S M) : Option (Except ExitError Unit × StackState S M) :=
  match st.substate with
  | .root _ => none
  | .child exited substate =>
    let f := substate.frame
    match ops.swallowCommit f.metadata exited.metadata with
    | (.error e, metadata) =>
      some (.error e, { st with substate := substate.setFrame { f with metadata := metadata } })
    | (.ok (), metadata) =>
      let substate := substate.setFrame
        { metadata := metadata
          deletes := f.deletes ∪ exited.deletes
          logs := f.logs ++ exited.logs }
      st.storage.commitTransaction.map fun storage => (.ok (), ⟨storage, substate⟩)

/-- `exit_revert` and `exit_discard`, which differ in the metadata function. -/
def exitRollback (swallow : M → M → Except ExitError Unit × M) (st : StackState S M) :
    Option (Except ExitError Unit × StackState S M) :=
  match st.substate with
  | .root _ => none
  | .child exited substate =>
    let f := substate.frame
    match swallow f.metadata exited.metadata with
    | (.error e, metadata) =>
      some (.error e, { st with substate := substate.setFrame { f with metadata := metadata } })
    | (.ok (), metadata) =>
      let substate := substate.setFrame { f with metadata := metadata }
      st.storage.rollbackTransaction.map fun storage => (.ok (), ⟨storage, substate⟩)

def exitRevert (st : StackState S M) : Option (Except ExitError Unit × StackState S M) :=
  exitRollback ops.swallowRevert st

def exitDiscard (st : StackState S M) : Option (Except ExitError Unit × StackState S M) :=
  exitRollback ops.swallowDiscard st

end Frames

/-! ## Sequences of calls -/

section Calls

variable (cfg : Config S AccountId) (ops : MetadataOps M)

/-- One call; an exit returns a result, the other calls succeed. -/
def stackCall : StackCall → StackState S M → Option (Except ExitError Unit × StackState S M)
  | .enter args, st => some (.ok (), enter ops args st)
  | .exit .commit, st => exitCommit ops st
  | .exit .revert, st => exitRevert ops st
  | .exit .discard, st => exitDiscard ops st
  | .op o, st =>
    some (.ok (), ⟨⟨o.applyWorld cfg st.storage.current, st.storage.saved⟩,
      o.applySubstate st.substate⟩)

def stackCalls : List StackCall → StackState S M →
    Option (List (Except ExitError Unit) × StackState S M)
  | [], st => some ([], st)
  | c :: cs, st =>
    match stackCall cfg ops c st with
    | none => none
    | some (r, st) => (stackCalls cs st).map fun (rs, st) => (r :: rs, st)

/-- `SubstrateStackState::new`, on the storage of the host. -/
def StackState.new (metadata : M) (storage : Overlays (World S)) : StackState S M :=
  ⟨storage, .root ⟨metadata, ∅, []⟩⟩

end Calls

/-! ## Replaying operations -/

/-- What a list of operations amounts to: the storage, the logs and the deleted accounts. -/
structure Effects (S : Type) where
  world : World S
  logs : List Shadows.Log
  deletes : Finset H160

def StackOp.apply (cfg : Config S AccountId) (o : StackOp) (e : Effects S) : Effects S where
  world := o.applyWorld cfg e.world
  logs := match o with
    | .log address topics data => e.logs ++ [⟨address, topics, data⟩]
    | _ => e.logs
  deletes := match o with
    | .setDeleted address => insert address e.deletes
    | _ => e.deletes

end Shadows.Evm
