import Shadows.Rpc.RichBlocks

/-!
# Transactions by index

`eth_getTransactionByBlockHashAndIndex` and `eth_getTransactionByBlockNumberAndIndex` take a block and
the index of a transaction in it. The methods have no result where they panic.
-/

namespace Shadows.Rpc

/-- `Index`, a `usize` of 64 bits. -/
structure Index where
  value : UInt64
  deriving DecidableEq

/-! ## The deserialiser -/

/-- A JSON value as the visitor of `Index` gets it. -/
inductive IndexParam where
  | str (value : String)
  | u64 (value : UInt64)
  /-- The visitor refuses everything else. -/
  | other

/-- `char::to_digit`, up to the radix 36. -/
def toDigit (radix : ℕ) (c : Char) : Option ℕ :=
  let digit :=
    if '0' ≤ c ∧ c ≤ '9' then c.toNat - '0'.toNat
    else if 'a' ≤ c ∧ c ≤ 'z' then c.toNat - 'a'.toNat + 10
    else if 'A' ≤ c ∧ c ≤ 'Z' then c.toNat - 'A'.toNat + 10
    else radix
  if digit < radix then some digit else none

/-- One more digit, unless it overflows. -/
def appendDigit (radix : ℕ) (result : UInt64) (c : Char) : Option UInt64 :=
  (toDigit radix c).bind fun digit =>
    if result.toNat * radix + digit < 2 ^ 64 then some (.ofNat (result.toNat * radix + digit))
    else none

/-- `usize::from_str_radix`: at least one digit, after a plus sign or not. -/
def fromStrRadix (radix : ℕ) (src : List Char) : Option UInt64 :=
  let digits := match src with
    | '+' :: digits => digits
    | digits => digits
  if digits = [] then none else digits.foldlM (appendDigit radix) 0

/-- `Index::deserialize`. The error of a refused value is left out. -/
def Index.deserialize : IndexParam → Option Index
  | .str value =>
    match value.toList with
    | '0' :: 'x' :: digits => (fromStrRadix 16 digits).map Index.mk
    | digits => (fromStrRadix 10 digits).map Index.mk
  | .u64 value => some ⟨value⟩
  | .other => none

example : ["0xa", "10"].map (fun value => Index.deserialize (.str value)) =
    [some ⟨10⟩, some ⟨10⟩] := by decide

/-! ## The methods -/

section Methods

variable {Hash : Type} (codec : BlockCodec) (api : BlockApi Hash)

/-- The answer of both methods from the block of an id. Both vectors are indexed, which panics out of
range. -/
def transactionAt (id : BlockId Hash) (index : Index) : Option (Option RpcTransaction) :=
  match api.currentBlock id, api.currentTransactionStatuses id with
  | some block, some statuses =>
    block.transactions[index.value.toNat]?.bind fun transaction =>
      statuses[index.value.toNat]?.map fun status =>
        some (transactionBuild codec transaction (some block) (some status))
  | _, _ => some none

variable [DecidableEq Hash]

def transactionByBlockHashAndIndex (hash : H256) (index : Index) :
    Option (Except RpcError (Option RpcTransaction)) :=
  match loadHash api.client api.backend hash with
  | .error err => some (.error (.internal err))
  | .ok none => some (.ok none)
  | .ok (some id) => (transactionAt codec api (.hash id) index).map .ok

/-- `transaction_by_block_number_and_index`, which fails for no number. -/
def transactionByBlockNumberAndIndex (number : BlockNumber) (index : Index) :
    Option (Option RpcTransaction) :=
  match api.nativeBlockId (some number) with
  | none => some none
  | some id => transactionAt codec api id index

end Methods

/-! ## What a lookup is for -/

namespace BlockApi

variable {Hash : Type} (api : BlockApi Hash)

/-- Every block that the node reads has a status for each of its transactions. -/
def Aligned : Prop :=
  ∀ id block, api.currentBlock id = some block →
    ∃ statuses, api.currentTransactionStatuses id = some statuses ∧
      statuses.length = block.transactions.length

/-- The transaction at an index of a block, if there is the block and if it has the transaction. -/
def findTransaction (codec : BlockCodec) (id : Option (BlockId Hash)) (index : Index) :
    Option RpcTransaction :=
  id.bind fun id =>
    (api.currentBlock id).bind fun block =>
      (api.currentTransactionStatuses id).bind fun statuses =>
        block.transactions[index.value.toNat]?.bind fun transaction =>
          statuses[index.value.toNat]?.map fun status =>
            transactionBuild codec transaction (some block) (some status)

/-- The block, if there is one, has a transaction at the index. -/
def HasIndex (id : Option (BlockId Hash)) (index : Index) : Prop :=
  ∀ id' block, id = some id' → api.currentBlock id' = some block →
    index.value.toNat < block.transactions.length

end BlockApi

end Shadows.Rpc
