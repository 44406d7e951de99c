import Shadows.Rpc.BlockIds

/-!
# Blocks as clients see them

`rich_block_build` makes the block that `eth_getBlockByNumber` answers with, `new_heads` the header that
is pushed to the subscribers of `newHeads`. Both copy the Ethereum header field by field. A method that
panics has no result.
-/

namespace Shadows.Rpc

/-- The third-party functions that the builders call. -/
structure BlockCodec where
  hashing : Hashing
  /-- `rlp::encode(&block).len()`. -/
  blockLength : Block → ℕ
  /-- `rlp::encode(&transaction)`. -/
  encodeTransaction : Transaction → Bytes
  /-- `EthereumTransactionMessage::from(transaction).hash()`. -/
  messageHash : Transaction → H256
  /-- `TransactionSignature::standard_v`. -/
  standardV : UInt64 → UInt8
  /-- `TransactionSignature::chain_id`. -/
  chainId : TransactionSignature → Option UInt64
  /-- `sp_io::crypto::secp256k1_ecdsa_recover`, from the signature and the message. -/
  secp256k1EcdsaRecover : Bytes → Bytes → Option Bytes
  keccak256 : Bytes → H256

/-- `Rich`; the map of engine-specific fields by its entries. -/
structure Rich (T : Type) where
  inner : T
  extraInfo : List (String × String)

/-! ## Transactions -/

/-- The `Transaction` of the RPC. -/
structure RpcTransaction where
  hash : H256
  nonce : U256
  blockHash : Option H256
  blockNumber : Option U256
  transactionIndex : Option U256
  «from» : H160
  «to» : Option H160
  value : U256
  gasPrice : U256
  gas : U256
  input : Bytes
  creates : Option H160
  raw : Bytes
  publicKey : Option (BitVec 512)
  chainId : Option UInt64
  standardV : U256
  v : U256
  r : U256
  s : U256
  deriving DecidableEq

section Transactions

variable (codec : BlockCodec)

/-- `public_key`. -/
def publicKey (transaction : Transaction) : Option Bytes :=
  let sig := transaction.signature.r.asBytes ++ transaction.signature.s.asBytes ++
    [codec.standardV transaction.signature.v]
  let msg := (codec.messageHash transaction).asBytes
  codec.secp256k1EcdsaRecover sig msg

def transactionBuild (transaction : Transaction) (block : Option Block)
    (status : Option TransactionStatus) : RpcTransaction :=
  let pubkey := publicKey codec transaction
  { hash := codec.hashing.transactionHash transaction
    nonce := transaction.nonce
    blockHash := block.map fun block => codec.hashing.headerHash block.header
    blockNumber := block.map fun block => block.header.number
    transactionIndex := status.map fun status => .ofU32 status.transactionIndex
    «from» := match status with
      | some status => status.from
      | none => match pubkey with
        | some pk => (codec.keccak256 pk).setWidth 160
        | none => 0
    «to» := match status with
      | some status => status.to
      | none => match transaction.action with
        | .call «to» => some «to»
        | .create => none
    value := transaction.value
    gasPrice := transaction.gasPrice
    gas := transaction.gasLimit
    input := transaction.input
    creates := status.bind fun status => status.contractAddress
    raw := codec.encodeTransaction transaction
    publicKey := pubkey.map fun pk => .ofNat 512 (Foundations.fromBigEndian pk)
    chainId := codec.chainId transaction.signature
    standardV := ⟨(codec.standardV transaction.signature.v).toNat,
      lt_trans (UInt8.toNat_lt _) (by decide)⟩
    v := .ofU64 transaction.signature.v
    r := ⟨transaction.signature.r.toNat, transaction.signature.r.isLt⟩
    s := ⟨transaction.signature.s.toNat, transaction.signature.s.isLt⟩ }

end Transactions

/-! ## Blocks and headers -/

inductive BlockTransactions where
  | hashes (hashes : List H256)
  | full (transactions : List RpcTransaction)
  deriving DecidableEq

/-- The `Block` of the RPC. -/
structure RpcBlock where
  hash : Option H256
  parentHash : H256
  unclesHash : H256
  author : H160
  miner : H160
  stateRoot : H256
  transactionsRoot : H256
  receiptsRoot : H256
  number : Option U256
  gasUsed : U256
  gasLimit : U256
  extraData : Bytes
  logsBloom : Option Bloom
  timestamp : U256
  difficulty : U256
  totalDifficulty : U256
  sealFields : List Bytes
  uncles : List H256
  transactions : BlockTransactions
  size : Option U256

/-- The `Header` of the RPC. -/
structure RpcHeader where
  hash : Option H256
  parentHash : H256
  unclesHash : H256
  author : H160
  miner : H160
  stateRoot : H256
  transactionsRoot : H256
  receiptsRoot : H256
  number : Option U256
  gasUsed : U256
  gasLimit : U256
  extraData : Bytes
  logsBloom : Bloom
  timestamp : U256
  difficulty : U256
  sealFields : List Bytes
  size : Option U256

/-- `TransactionStatus::default`. -/
def defaultStatus : TransactionStatus := ⟨0, 0, 0, none, none, [], 0⟩

section Blocks

variable (codec : BlockCodec)

/-- `seal_fields`. -/
def sealFields (header : Header) : List Bytes :=
  [header.mixHash.asBytes, Foundations.bigEndian 8 header.nonce.toNat]

/-- The transactions of a block, each in full with its status if `fullTransactions` says so. A missing
status panics. -/
def blockTransactions (block : Block) (statuses : List (Option TransactionStatus))
    (fullTransactions : Bool) : Option BlockTransactions :=
  if fullTransactions then
    (block.transactions.zipIdx.mapM fun (entry : Transaction × ℕ) =>
      statuses[entry.2]?.map fun status =>
        transactionBuild codec entry.1 (some block) (some (status.getD defaultStatus))).map .full
  else some (.hashes (block.transactions.map codec.hashing.transactionHash))

def richBlockBuild (block : Block) (statuses : List (Option TransactionStatus)) (hash : Option H256)
    (fullTransactions : Bool) : Option (Rich RpcBlock) :=
  (blockTransactions codec block statuses fullTransactions).map fun transactions =>
    { inner :=
        { hash := some (hash.getD (codec.hashing.headerHash block.header))
          parentHash := block.header.parentHash
          unclesHash := block.header.ommersHash
          author := block.header.beneficiary
          miner := block.header.beneficiary
          stateRoot := block.header.stateRoot
          transactionsRoot := block.header.transactionsRoot
          receiptsRoot := block.header.receiptsRoot
          number := some block.header.number
          gasUsed := block.header.gasUsed
          gasLimit := block.header.gasLimit
          extraData := block.header.extraData
          logsBloom := some block.header.logsBloom
          timestamp := .ofU64 (block.header.timestamp / 1000)
          difficulty := block.header.difficulty
          totalDifficulty := 0
          sealFields := sealFields block.header
          uncles := []
          transactions := transactions
          size := some (.ofU32 (.ofNat (codec.blockLength block))) }
      extraInfo := [] }

/-- `SubscriptionResult::new_heads`. -/
def newHeads (block : Block) : Rich RpcHeader where
  inner :=
    { hash := some (codec.hashing.headerHash block.header)
      parentHash := block.header.parentHash
      unclesHash := block.header.ommersHash
      author := block.header.beneficiary
      miner := block.header.beneficiary
      stateRoot := block.header.stateRoot
      transactionsRoot := block.header.transactionsRoot
      receiptsRoot := block.header.receiptsRoot
      number := some block.header.number
      gasUsed := block.header.gasUsed
      gasLimit := block.header.gasLimit
      extraData := block.header.extraData
      logsBloom := block.header.logsBloom
      timestamp := .ofU64 block.header.timestamp
      difficulty := block.header.difficulty
      sealFields := sealFields block.header
      size := some (.ofU32 (.ofNat (codec.blockLength block))) }
  extraInfo := []

end Blocks

section Methods

variable {Hash : Type} [DecidableEq Hash] (codec : BlockCodec) (api : BlockApi Hash)

/-- `block_by_number`, which fails for no number. -/
def blockByNumber (number : BlockNumber) (full : Bool) : Option (Option (Rich RpcBlock)) :=
  match api.nativeBlockId (some number) with
  | none => some none
  | some id =>
    match api.currentBlock id, api.currentTransactionStatuses id with
    | some block, some statuses =>
      (richBlockBuild codec block (statuses.map some) (some (codec.hashing.headerHash block.header))
        full).map some
    | _, _ => some none

end Methods

/-! ## The common fields -/

/-- A header and a block have the same values in the fields that both have, apart from the time. -/
structure SameButTime (header : Rich RpcHeader) (block : Rich RpcBlock) : Prop where
  hash : header.inner.hash = block.inner.hash
  parentHash : header.inner.parentHash = block.inner.parentHash
  unclesHash : header.inner.unclesHash = block.inner.unclesHash
  author : header.inner.author = block.inner.author
  miner : header.inner.miner = block.inner.miner
  stateRoot : header.inner.stateRoot = block.inner.stateRoot
  transactionsRoot : header.inner.transactionsRoot = block.inner.transactionsRoot
  receiptsRoot : header.inner.receiptsRoot = block.inner.receiptsRoot
  number : header.inner.number = block.inner.number
  gasUsed : header.inner.gasUsed = block.inner.gasUsed
  gasLimit : header.inner.gasLimit = block.inner.gasLimit
  extraData : header.inner.extraData = block.inner.extraData
  logsBloom : some header.inner.logsBloom = block.inner.logsBloom
  difficulty : header.inner.difficulty = block.inner.difficulty
  sealFields : header.inner.sealFields = block.inner.sealFields
  size : header.inner.size = block.inner.size
  extraInfo : header.extraInfo = block.extraInfo

/-- A header and a block have the same values in all fields that both have. -/
structure HeadersAgree (header : Rich RpcHeader) (block : Rich RpcBlock) : Prop extends
    SameButTime header block where
  timestamp : header.inner.timestamp = block.inner.timestamp

/-! ## A block after six seconds -/

section SixSeconds

open Ethereum

/-- Encodings that are as short as possible, and signatures that name their signer. -/
def smallCodec : BlockCodec where
  hashing := numberHashing
  blockLength := fun block => block.transactions.length
  encodeTransaction := fun _ => []
  messageHash := countingConfig.messageHash
  standardV := countingConfig.standardV
  chainId := fun _ => none
  secp256k1EcdsaRecover := countingConfig.secp256k1EcdsaRecover
  keccak256 := countingConfig.keccak256

/-- The state after an empty block at the time of six seconds, which the timestamp pallet counts in
milliseconds. -/
def sixSeconds : State ℕ :=
  ((runBlock countingConfig ⟨[], 6000, []⟩ countingGenesis).map fun p => p.2).getD countingGenesis

def sixSecondsBlock : Block := sixSeconds.currentBlock.getD ⟨emptyHeader 0, [], []⟩

end SixSeconds

end Shadows.Rpc
