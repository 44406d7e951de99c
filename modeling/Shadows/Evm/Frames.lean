import Shadows.Evm.Proofs.JournalProofs
import Shadows.Evm.Ledger
import Shadows.Foundations.Runs

/-!
# Open transactions

Entering a frame opens a storage transaction of the host, and leaving it closes one. An exit pops
the frame first, then does the accounting of the metadata, which may fail, and only then closes the
transaction.
-/

namespace Shadows.Evm

open Foundations

variable {S AccountId M : Type}

/-- The accounting step of an exit, on the metadata of the parent and of the frame that is left. -/
def MetadataOps.swallow (ops : MetadataOps M) : Exit → M → M → Except ExitError Unit × M
  | .commit => ops.swallowCommit
  | .revert => ops.swallowRevert
  | .discard => ops.swallowDiscard

/-- The storage after an exit that succeeds, where `w` is the value to roll back to. -/
def closeTransaction (x : Exit) (current w : World S) (worlds : List (World S)) : Overlays (World S) :=
  match x with
  | .commit => ⟨current, worlds⟩
  | .revert => ⟨w, worlds⟩
  | .discard => ⟨w, worlds⟩

/-- What an exit does to the transactions: nothing if its accounting fails, and otherwise it closes
the innermost one. -/
structure ExitEffect (ops : MetadataOps M) (x : Exit) (exited : Frame M) (parent : Substate M)
    (storage : Overlays (World S)) (st' : StackState S M) : Prop where
  depth : st'.substate.depth = parent.depth
  failed : ∀ e, (ops.swallow x parent.frame.metadata exited.metadata).1 = .error e →
    st'.storage = storage
  closed : (ops.swallow x parent.frame.metadata exited.metadata).1 = .ok () →
    ∃ w worlds, storage.saved = w :: worlds ∧ st'.storage = closeTransaction x storage.current w worlds

/-- As many storage transactions are open as the current frame has parents. -/
def Balanced (st : StackState S M) : Prop := st.storage.saved.length = st.substate.depth

/-- A call that does not panic, whatever it returns. -/
def CallStep (cfg : Config S AccountId) (ops : MetadataOps M) (st : StackState S M) (c : StackCall)
    (st' : StackState S M) : Prop :=
  ∃ r, stackCall cfg ops c st = some (r, st')

/-- The accounting step of the call succeeds, if it has one. -/
def Accounts (ops : MetadataOps M) (st : StackState S M) (c : StackCall) (_ : StackState S M) :
    Prop :=
  match c, st.substate with
  | .exit x, .child exited parent => (ops.swallow x parent.frame.metadata exited.metadata).1 = .ok ()
  | _, _ => True

/-! ## A commit that fails -/

/-- An accounting of which every commit fails. -/
def failingOps : MetadataOps Unit :=
  ⟨fun _ _ _ => (), fun _ _ => (.error .outOfGas, ()), fun _ _ => (.ok (), ()),
    fun _ _ => (.ok (), ())⟩

/-- A stack state on empty accounts. -/
def rootState : StackState Ledger Unit :=
  .new () ⟨⟨fun _ => ⟨0, 0, 0⟩, fun _ => none, fun _ _ => none, []⟩, []⟩

def enteredState : StackState Ledger Unit := enter failingOps ⟨0, false⟩ rootState

/-- The state after a commit that has failed: the frame is gone, the transaction is still open. -/
def leftState : StackState Ledger Unit := ⟨enteredState.storage, rootState.substate⟩

/-- A frame is entered and left by a commit that fails. -/
def failingCommit : List (StackCall × StackState Ledger Unit) :=
  [(.enter ⟨0, false⟩, enteredState), (.exit .commit, leftState)]

end Shadows.Evm
