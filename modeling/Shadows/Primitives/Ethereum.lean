import Shadows.Primitives.Types

/-!
# Ethereum data

The records of the `ethereum` and `evm` crates and of `fp_rpc` and `fp_evm` that the node stores,
and the Keccak-256 hashes taken of them. Hashing and RLP are third-party code: a `Hashing` stands
for the functions the node calls.
-/

namespace Shadows

structure Log where
  address : H160
  topics : List H256
  data : Bytes
  deriving DecidableEq

inductive TransactionAction where
  | call (target : H160)
  | create
  deriving DecidableEq

structure TransactionSignature where
  v : UInt64
  r : H256
  s : H256
  deriving DecidableEq

structure Transaction where
  nonce : U256
  gasPrice : U256
  gasLimit : U256
  action : TransactionAction
  value : U256
  input : Bytes
  signature : TransactionSignature
  deriving DecidableEq

structure Receipt where
  stateRoot : H256
  usedGas : U256
  logsBloom : Bloom
  logs : List Log
  deriving DecidableEq

structure Header where
  parentHash : H256
  ommersHash : H256
  beneficiary : H160
  stateRoot : H256
  transactionsRoot : H256
  receiptsRoot : H256
  logsBloom : Bloom
  difficulty : U256
  number : U256
  gasLimit : U256
  gasUsed : U256
  timestamp : UInt64
  extraData : Bytes
  mixHash : H256
  nonce : BitVec 64
  deriving DecidableEq

structure Block where
  header : Header
  transactions : List Transaction
  ommers : List Header
  deriving DecidableEq

structure PartialHeader where
  parentHash : H256
  beneficiary : H160
  stateRoot : H256
  receiptsRoot : H256
  logsBloom : Bloom
  difficulty : U256
  number : U256
  gasLimit : U256
  gasUsed : U256
  timestamp : UInt64
  extraData : Bytes
  mixHash : H256
  nonce : BitVec 64

structure TransactionStatus where
  transactionHash : H256
  transactionIndex : UInt32
  «from» : H160
  «to» : Option H160
  contractAddress : Option H160
  logs : List Log
  logsBloom : Bloom
  deriving DecidableEq

/-- `evm::ExitError`, as far as the node tells its cases apart. -/
inductive ExitError where
  | outOfGas
  | outOfFund
  | other (name : String)
  deriving DecidableEq

inductive ExitReason where
  | succeed
  | error (e : ExitError)
  | revert
  | fatal
  deriving DecidableEq

structure ExecutionInfo (R : Type) where
  exitReason : ExitReason
  value : R
  usedGas : U256
  logs : List Log

inductive CallOrCreateInfo where
  | call (info : ExecutionInfo Bytes)
  | create (info : ExecutionInfo H160)

/-- `pallet_evm::Error`. -/
inductive EvmError where
  | balanceLow
  | feeOverflow
  | paymentOverflow
  | withdrawFailed
  | gasPriceTooLow
  | invalidNonce
  deriving DecidableEq

/-- The hashes the node takes of Ethereum data. -/
structure Hashing where
  /-- `Keccak256(rlp(transaction))`. -/
  transactionHash : Transaction → H256
  /-- `header.hash()`, which is `Keccak256(rlp(header))`. -/
  headerHash : Header → H256
  /-- `Keccak256` of the RLP list of receipts. -/
  receiptsHash : List Receipt → H256
  /-- The trie root over the transactions that `Block::new` puts into the header. -/
  transactionsRoot : List Transaction → H256
  /-- `Keccak256` of the RLP list of ommers that `Block::new` puts into the header. -/
  ommersHash : List Header → H256

def Block.new (hashing : Hashing) (partialHeader : PartialHeader) (transactions : List Transaction)
    (ommers : List Header) : Block where
  header :=
    { parentHash := partialHeader.parentHash
      ommersHash := hashing.ommersHash ommers
      beneficiary := partialHeader.beneficiary
      stateRoot := partialHeader.stateRoot
      transactionsRoot := hashing.transactionsRoot transactions
      receiptsRoot := partialHeader.receiptsRoot
      logsBloom := partialHeader.logsBloom
      difficulty := partialHeader.difficulty
      number := partialHeader.number
      gasLimit := partialHeader.gasLimit
      gasUsed := partialHeader.gasUsed
      timestamp := partialHeader.timestamp
      extraData := partialHeader.extraData
      mixHash := partialHeader.mixHash
      nonce := partialHeader.nonce }
  transactions := transactions
  ommers := ommers

/-! ## Small hashes -/

/-- Hashes that tell apart the block numbers and the nonces they are taken of. -/
def numberHashing : Hashing where
  transactionHash := fun t => BitVec.ofNat 256 t.nonce.val
  headerHash := fun h => BitVec.ofNat 256 h.number.val
  receiptsHash := fun _ => 0
  transactionsRoot := fun _ => 0
  ommersHash := fun _ => 0

/-- The Ethereum header of an empty block. -/
def emptyHeader (number : U256) : Header :=
  ⟨0, 0, 0, 0, 0, 0, 0, 0, number, 4294967295, 0, 0, [], 0, 0⟩

end Shadows
