import Shadows.Rpc.BlockIds
import Shadows.Rpc.ExecutionFailure
import Shadows.Ethereum.ValidateUnsigned

/-!
# The nonce of an account

`transaction_count` answers with the nonce of an account at a block. For the pending block it counts
on from the nonce at the best block over the transactions that are ready in the pool.
-/

namespace Shadows.Rpc

open Ethereum Db

/-- `(address, nonce).encode()`. -/
def encodeTag (tag : H160 × U256) : Bytes := tag.1.asBytes ++ tag.2.toLittleEndian

/-- `InPoolTransaction`, as far as it is read. -/
structure PoolTransaction where
  provides : List Bytes

/-- The transactions of `pool.ready()`. The pool keeps them in memory, counted by a `usize`. -/
structure ReadyPool where
  ready : List PoolTransaction
  length_lt : ready.length < 2 ^ 64

/-- The variables of the loop over the pool. -/
structure PendingCount where
  currentNonce : U256
  currentTag : Bytes

/-- The variables before the loop. -/
def PendingCount.start (address : H160) (nonce : U256) : PendingCount :=
  ⟨nonce, encodeTag (address, nonce)⟩

/-- One turn of the loop. -/
def PendingCount.visit (address : H160) (count : PendingCount) (tx : PoolTransaction) :
    PendingCount :=
  if tx.provides[0]? = some count.currentTag then
    .start address (count.currentNonce.saturatingAdd 1)
  else count

variable {Hash : Type} [DecidableEq Hash]

/-- `transaction_count`. The runtime API answers `account_basic`, or fails with a `{:?}` text. -/
def transactionCount (chain : ChainApi Hash)
    (accountBasic : BlockId Hash → H160 → Except String Evm.Account) (pool : ReadyPool)
    (address : H160) (number : Option BlockNumber) : Except RpcFailure U256 :=
  if number = some .pending then
    match accountBasic (.hash chain.bestHash) address with
    | .error err => .error (internalErr ("fetch runtime account basic failed: " ++ err))
    | .ok account =>
      .ok (pool.ready.foldl (PendingCount.visit address) (.start address account.nonce)).currentNonce
  else
    match chain.nativeBlockId number with
    | none => .ok 0
    | some id =>
      match accountBasic id address with
      | .error err => .error (internalErr ("fetch runtime account basic failed: " ++ err))
      | .ok account => .ok account.nonce

/-! ## Pools -/

/-- Every transaction provides its sender and nonce as its first tag. -/
def ProvidesTags (ready : List PoolTransaction) (tags : List (H160 × U256)) : Prop :=
  List.Forall₂ (fun tx tag => tx.provides[0]? = some (encodeTag tag)) ready tags

/-- A transaction with a nonce above that of its sender's account stands behind the one with the
nonce before it. -/
def NonceOrdered (nonce : H160 → U256) (tags : List (H160 × U256)) : Prop :=
  ∀ before tag after, tags = before ++ tag :: after → nonce tag.1 < tag.2 →
    ∀ previous : U256, previous.val + 1 = tag.2.val → (tag.1, previous) ∈ before

/-- The nonces `nonce`, …, `nonce + k - 1` of the address are all there. -/
def HasNonces (tags : List (H160 × U256)) (address : H160) (nonce : U256) (k : ℕ) : Prop :=
  ∀ j < k, ∃ n : U256, n.val = nonce.val + j ∧ (address, n) ∈ tags

/-- A transaction in the pool, with the tags of its validation. -/
def poolTransaction (valid : ValidTransaction) : PoolTransaction := ⟨valid.provides.map encodeTag⟩

section Validated

variable {S AccountId M : Type} (rt : Runtime S AccountId M) (ids : ChainIds)
  (st : State (Evm.World S))

/-- The orders in which valid transactions can be ready: what one of them requires is provided by
those before it. -/
inductive ReadySequence : List ValidTransaction → Prop
  | empty : ReadySequence []
  | ready {valids : List ValidTransaction} {transaction : Transaction} {valid : ValidTransaction} :
      ReadySequence valids → validateUnsigned rt ids (.transact transaction) st = .ok valid →
        (∀ tag ∈ valid.requires, tag ∈ valids.flatMap ValidTransaction.provides) →
          ReadySequence (valids ++ [valid])

end Validated

/-! ## Two senders -/

def lineChainApi : ChainApi (Fin 3) := ⟨lineHeaders, Database.empty, 2⟩

/-- A stale transaction and two others of one sender, between those of another. -/
def interleavedTags : List (H160 × U256) :=
  [(caller, 0), (1, 0), (caller, 1), (1, 1), (caller, 2)]

def interleavedPool : ReadyPool where
  ready := interleavedTags.map fun tag => ⟨[encodeTag tag]⟩
  length_lt := by decide

end Shadows.Rpc
