import Shadows.Consensus.Digest

/-!
# `pallet_ethereum`

Transactions are executed by the EVM runner and collected in `Pending`; at the end of a Substrate
block they become the Ethereum block. A step that panics has no result, since the Substrate block
it belongs to cannot be built.
-/

namespace Shadows.Ethereum

open Consensus

/-- `pallet_evm::Runner`, on a state `W` of the other pallets. -/
structure Runner (W : Type) where
  /-- `Runner::call`, from source, target, input, value, gas limit, gas price and nonce. -/
  call : H160 → H160 → Bytes → U256 → UInt64 → Option U256 → Option U256 → W →
    Option (Except EvmError (ExecutionInfo Bytes) × W)
  /-- `Runner::create`, from source, init code, value, gas limit, gas price and nonce. -/
  create : H160 → Bytes → U256 → UInt64 → Option U256 → Option U256 → W →
    Option (Except EvmError (ExecutionInfo H160) × W)

/-- `Event::Executed`: sender, target or contract address, transaction hash, exit reason. -/
inductive Event where
  | executed («from» «to» : H160) (transactionHash : H256) (reason : ExitReason)

/-- The storage of the pallet, what it reads of `frame_system` and `pallet_timestamp`, and the state
of the other pallets. -/
structure State (W : Type) where
  world : W
  digest : Digest
  blockNumber : UInt32
  timestamp : UInt64
  pending : List (Transaction × TransactionStatus × Receipt)
  currentBlock : Option Block
  currentReceipts : Option (List Receipt)
  currentTransactionStatuses : Option (List TransactionStatus)
  events : List Event

/-- The configuration of the pallet and the third-party functions it calls. -/
structure Config (W : Type) where
  hashing : Hashing
  runner : Runner W
  /-- `TransactionMessage::from(transaction).hash()`. -/
  messageHash : Transaction → H256
  /-- `TransactionSignature::standard_v`. -/
  standardV : UInt64 → UInt8
  /-- `sp_io::crypto::secp256k1_ecdsa_recover`, from the signature and the message. -/
  secp256k1EcdsaRecover : Bytes → Bytes → Option Bytes
  keccak256 : Bytes → H256
  /-- The bits that `Bloom::accrue` sets for an input. -/
  bloomBits : Bytes → Bloom
  findAuthor : W → List (ConsensusEngineId × Payload PreLog) → Option H160
  stateRoot : State W → H256
  blockGasLimit : W → U256
  gasToWeight : UInt64 → UInt64

/-- The errors of `do_transact`: those of this pallet, and those of the EVM runner. -/
inductive DispatchError where
  | invalidSignature
  | preLogExists
  | evm (e : EvmError)
  deriving DecidableEq

variable {W : Type} (cfg : Config W)

def recoverSigner (transaction : Transaction) : Option H160 :=
  let sig := transaction.signature.r.asBytes ++ transaction.signature.s.asBytes ++
    [cfg.standardV transaction.signature.v]
  let msg := (cfg.messageHash transaction).asBytes
  (cfg.secp256k1EcdsaRecover sig msg).map fun pubkey => (cfg.keccak256 pubkey).setWidth 160

def accrue (bloom : Bloom) (input : Bytes) : Bloom := bloom ||| cfg.bloomBits input

def logsBloom (logs : List Shadows.Log) (bloom : Bloom) : Bloom :=
  logs.foldl (fun bloom log =>
    log.topics.foldl (fun bloom topic => accrue cfg bloom topic.asBytes)
      (accrue cfg bloom log.address.asBytes)) bloom

/-- `Module::execute`, with the configuration of the EVM that the runtime fixes. -/
def execute («from» : H160) (input : Bytes) (value gasLimit : U256) (gasPrice nonce : Option U256)
    (action : TransactionAction) (world : W) :
    Option (Except DispatchError (Option H160 × Option H160 × CallOrCreateInfo) × W) :=
  match action with
  | .call target =>
    match cfg.runner.call «from» target input value gasLimit.lowU64 gasPrice nonce world with
    | none => none
    | some (.error e, world) => some (.error (.evm e), world)
    | some (.ok res, world) => some (.ok (some target, none, .call res), world)
  | .create =>
    match cfg.runner.create «from» input value gasLimit.lowU64 gasPrice nonce world with
    | none => none
    | some (.error e, world) => some (.error (.evm e), world)
    | some (.ok res, world) => some (.ok (none, some res.value, .create res), world)

/-- The exit reason, the status and the gas used of an executed transaction. -/
def summarize (source : H160) (transactionHash : H256) (transactionIndex : UInt32)
    («to» : Option H160) : CallOrCreateInfo →
    ExitReason × TransactionStatus × U256
  | .call info =>
    (info.exitReason,
      { transactionHash := transactionHash
        transactionIndex := transactionIndex
        «from» := source
        «to» := «to»
        contractAddress := none
        logs := info.logs
        logsBloom := logsBloom cfg info.logs 0 },
      info.usedGas)
  | .create info =>
    (info.exitReason,
      { transactionHash := transactionHash
        transactionIndex := transactionIndex
        «from» := source
        «to» := «to»
        contractAddress := some info.value
        logs := info.logs
        logsBloom := logsBloom cfg info.logs 0 },
      info.usedGas)

/-- `Module::do_transact`; its result is the weight to charge. -/
def doTransact (transaction : Transaction) (st : State W) :
    Option (Except DispatchError UInt64 × State W) :=
  match findPreLog st.digest with
  | .ok _ => some (.error .preLogExists, st)
  | .error _ =>
    match recoverSigner cfg transaction with
    | none => some (.error .invalidSignature, st)
    | some source =>
      let transactionHash := cfg.hashing.transactionHash transaction
      let transactionIndex := UInt32.ofNat st.pending.length
      match execute cfg source transaction.input transaction.value transaction.gasLimit
          (some transaction.gasPrice) (some transaction.nonce) transaction.action st.world with
      | none => none
      | some (.error e, world) => some (.error e, { st with world := world })
      | some (.ok («to», contractAddress, info), world) =>
        let (reason, status, usedGas) :=
          summarize cfg source transactionHash transactionIndex «to» info
        let receipt : Receipt :=
          { stateRoot := match reason with
              | .succeed => 1
              | .error _ => 0
              | .revert => 0
              | .fatal => 0
            usedGas := usedGas
            logsBloom := status.logsBloom
            logs := status.logs }
        some (.ok (cfg.gasToWeight usedGas.saturatedU64),
          { st with
            world := world
            pending := st.pending ++ [(transaction, status, receipt)]
            events := st.events ++
              [.executed source (contractAddress.getD 0) transactionHash reason] })

def findAuthor (st : State W) : H160 :=
  let preRuntimeDigests := st.digest.filterMap fun
    | .preRuntime engine data => some (engine, data)
    | _ => none
  (cfg.findAuthor st.world preRuntimeDigests).getD 0

def currentBlockHash (st : State W) : Option H256 :=
  st.currentBlock.map fun block => cfg.hashing.headerHash block.header

/-- The sum of the gas used; the addition of `U256` panics on overflow. -/
def totalGas (receipts : List Receipt) : Option U256 :=
  receipts.foldlM (fun acc r => acc.checkedAdd r.usedGas) 0

/-- The block that `store_block` puts together. -/
def buildBlock (st : State W) (gasUsed : U256) : Block :=
  let transactions := st.pending.map fun p => p.1
  let receipts := st.pending.map fun p => p.2.2
  let partialHeader : PartialHeader :=
    { parentHash := (currentBlockHash cfg st).getD 0
      beneficiary := findAuthor cfg st
      stateRoot := 0
      receiptsRoot := cfg.hashing.receiptsHash receipts
      logsBloom := receipts.foldl (fun bloom receipt => logsBloom cfg receipt.logs bloom) 0
      difficulty := 0
      number := U256.ofU32 st.blockNumber
      gasLimit := cfg.blockGasLimit st.world
      gasUsed := gasUsed
      timestamp := st.timestamp
      extraData := []
      mixHash := 0
      nonce := 0 }
  let block := Block.new cfg.hashing partialHeader transactions []
  { block with header := { block.header with stateRoot := cfg.stateRoot st } }

def storeBlock (postLog : Bool) (st : State W) : Option (State W) :=
  let statuses := st.pending.map fun p => p.2.1
  let receipts := st.pending.map fun p => p.2.2
  match totalGas receipts with
  | none => none
  | some gasUsed =>
    let block := buildBlock cfg st gasUsed
    some { st with
      currentBlock := some block
      currentReceipts := some receipts
      currentTransactionStatuses := some statuses
      digest :=
        if postLog then
          st.digest ++ [.consensus shadowsEngineId
            (.encoded (.hashes (Hashes.fromBlock cfg.hashing block)))]
        else st.digest }

/-- The transactions of a pre-log in `on_initialize`; one that fails panics. -/
def executePreLog : List Transaction → State W → Option (State W)
  | [], st => some st
  | transaction :: rest, st =>
    match doTransact cfg transaction st with
    | some (.ok _, st) => executePreLog rest st
    | _ => none

def onInitialize (st : State W) : Option (State W) :=
  let st := { st with pending := [] }
  match findPreLog st.digest with
  | .ok (.block block) => executePreLog cfg block.transactions st
  | .error _ => some st

def onFinalize (st : State W) : Option (State W) :=
  storeBlock cfg (match findPreLog st.digest with
    | .ok _ => false
    | .error _ => true) st

end Shadows.Ethereum
