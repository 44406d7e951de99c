import Shadows.Ethereum.Pallet

/-!
# Runs of blocks

A Substrate block is initialised with the pre-runtime items of its header, runs extrinsics, some of
them Ethereum transactions, and is finalised.
-/

namespace Shadows.Ethereum

open Consensus Foundations

variable {W : Type}

/-- An extrinsic: an Ethereum transaction, or a change to the other pallets. -/
inductive Extrinsic (W : Type) where
  | transact (transaction : Transaction)
  | other (effect : W → W)

/-- What a block is made from, the pre-runtime items of its header and its extrinsics. -/
structure BlockInput (W : Type) where
  digest : Digest
  timestamp : UInt64
  extrinsics : List (Extrinsic W)

/-- `frame_system::initialize` for the next block, and the timestamp of the block. -/
def initializeBlock (input : BlockInput W) (st : State W) : State W :=
  { st with
    digest := input.digest
    blockNumber := st.blockNumber + 1
    timestamp := input.timestamp
    events := [] }

variable (cfg : Config W)

/-- The extrinsics of a block, with the transactions whose `transact` returned `Ok`. -/
def runExtrinsics : List (Extrinsic W) → State W → Option (List Transaction × State W)
  | [], st => some ([], st)
  | .other effect :: rest, st => runExtrinsics rest { st with world := effect st.world }
  | .transact transaction :: rest, st =>
    match doTransact cfg transaction st with
    | none => none
    | some (.error _, st) => runExtrinsics rest st
    | some (.ok _, st) =>
      (runExtrinsics rest st).map fun (accepted, st) => (transaction :: accepted, st)

def runBody (input : BlockInput W) (st : State W) : Option (List Transaction × State W) :=
  (onInitialize cfg (initializeBlock input st)).bind (runExtrinsics cfg input.extrinsics)

def runBlock (input : BlockInput W) (st : State W) : Option (List Transaction × State W) :=
  (runBody cfg input st).bind fun (accepted, st) =>
    (onFinalize cfg st).map fun st => (accepted, st)

/-- The state that the genesis block is built from. -/
def genesisState (world : W) (timestamp : UInt64) : State W where
  world := world
  digest := []
  blockNumber := 0
  timestamp := timestamp
  pending := []
  currentBlock := none
  currentReceipts := none
  currentTransactionStatuses := none
  events := []

/-- The header of a block has no pre-log. -/
def NoPreLog (digest : Digest) : Prop := ∀ log, findPreLog digest ≠ .ok log

/-- The states after the blocks of a run that starts with the genesis block and has no pre-logs. -/
inductive Reached : State W → Prop where
  | genesis (world : W) (timestamp : UInt64) (st : State W)
      (hstore : storeBlock cfg false (genesisState world timestamp) = some st) : Reached st
  | block (st st' : State W) (input : BlockInput W) (accepted : List Transaction)
      (hst : Reached st) (hdigest : NoPreLog input.digest)
      (hrun : runBlock cfg input st = some (accepted, st')) : Reached st'

/-! ## What a stored block is -/

/-- `Bloom::contains_input`. -/
def BloomContains (bloom : Bloom) (input : Bytes) : Prop :=
  ∀ i, (cfg.bloomBits input).getLsbD i = true → bloom.getLsbD i = true

/-- The block, the receipts and the statuses that are stored after the transactions `accepted` have
been executed on top of the block `parent`. -/
structure Assembled (accepted : List Transaction) (parent : Block) (st : State W) (block : Block)
    (receipts : List Receipt) (statuses : List TransactionStatus) : Prop where
  currentBlock : st.currentBlock = some block
  currentReceipts : st.currentReceipts = some receipts
  currentTransactionStatuses : st.currentTransactionStatuses = some statuses
  transactions : block.transactions = accepted
  receipts_length : receipts.length = accepted.length
  statuses_length : statuses.length = accepted.length
  aligned : ∀ (i : ℕ) (transaction : Transaction) (status : TransactionStatus) (receipt : Receipt),
    accepted[i]? = some transaction → statuses[i]? = some status → receipts[i]? = some receipt →
      status.transactionIndex = UInt32.ofNat i ∧
      status.transactionHash = cfg.hashing.transactionHash transaction ∧
      status.logs = receipt.logs ∧ status.logsBloom = receipt.logsBloom
  gasUsed : block.header.gasUsed.val = (receipts.map fun receipt => receipt.usedGas.val).sum
  logsBloom_union : block.header.logsBloom =
    receipts.foldl (fun bloom receipt => bloom ||| receipt.logsBloom) 0
  logsBloom_contains : ∀ receipt ∈ receipts, ∀ log ∈ receipt.logs,
    BloomContains cfg block.header.logsBloom log.address.asBytes ∧
      ∀ topic ∈ log.topics, BloomContains cfg block.header.logsBloom topic.asBytes
  number : block.header.number = U256.ofU32 st.blockNumber
  parentHash : block.header.parentHash = cfg.hashing.headerHash parent.header

/-! ## Digest and stored block -/

/-- The initial digest of a block consists of pre-runtime items. -/
def AllPreRuntime (digest : Digest) : Prop :=
  ∀ item ∈ digest, ∃ engine data, item = .preRuntime engine data

/-- If the final digest lets the block be imported, then the hashes that the mapping sync takes from
it are those of the stored block. -/
def DigestAgrees (st : State W) : Prop :=
  ensureLog st.digest = .ok () → ∃ log block, findLog st.digest = .ok log ∧
    st.currentBlock = some block ∧ log.intoHashes cfg.hashing = Hashes.fromBlock cfg.hashing block

/-- The Ethereum header of a block without transactions, from the state before `on_finalize`: its
parent, author, number, gas limit and timestamp, and the state root. -/
def emptyBlockHeader (st : State W) : Header where
  parentHash := (currentBlockHash cfg st).getD 0
  ommersHash := cfg.hashing.ommersHash []
  beneficiary := findAuthor cfg st
  stateRoot := cfg.stateRoot st
  transactionsRoot := cfg.hashing.transactionsRoot []
  receiptsRoot := cfg.hashing.receiptsHash []
  logsBloom := 0
  difficulty := 0
  number := U256.ofU32 st.blockNumber
  gasLimit := cfg.blockGasLimit st.world
  gasUsed := 0
  timestamp := st.timestamp
  extraData := []
  mixHash := 0
  nonce := 0

/-! ## Pre-log blocks -/

/-- The state in which the transactions of a pre-log are executed if nothing forbids it. -/
def withoutPreLog (st : State W) : State W := { st with digest := [], pending := [] }

/-- `on_initialize` has imported the transactions of the pre-log: it does not panic, `Pending` is
what their execution leaves, and whatever the block does then, `transact` is refused. -/
def PreLogImported (st : State W) (transactions : List Transaction)
    (pending : List (Transaction × TransactionStatus × Receipt)) : Prop :=
  ∃ st', onInitialize cfg st = some st' ∧ st'.pending = pending ∧
    st'.pending.map (fun p => p.1) = transactions ∧
    ∀ extrinsics accepted st'', runExtrinsics cfg extrinsics st' = some (accepted, st'') →
      ∀ transaction, doTransact cfg transaction st'' = some (.error .preLogExists, st'')

/-! ## A counting runner -/

/-- A runner on a single account, whose nonce is the state: a call with its nonce emits a log. -/
def countingRunner : Runner ℕ where
  call := fun _ target _ _ _ _ nonce w =>
    if nonce.map (·.val) = some w then some (.ok ⟨.succeed, [], 21000, [⟨target, [1], []⟩]⟩, w + 1)
    else some (.error .invalidNonce, w)
  create := fun _ _ _ _ _ _ w => some (.error .balanceLow, w)

def countingConfig : Config ℕ where
  hashing := numberHashing
  runner := countingRunner
  messageHash := fun t => BitVec.ofNat 256 t.nonce.val
  standardV := fun v => UInt8.ofNat v.toNat
  secp256k1EcdsaRecover := fun sig _ => some sig
  keccak256 := fun bytes => H256.fromSlice bytes
  bloomBits := fun bytes => BitVec.twoPow 2048 (fromBigEndian bytes % 2048)
  findAuthor := fun _ _ => none
  stateRoot := fun _ => 0
  blockGasLimit := fun _ => 4294967295
  gasToWeight := id

def callWithNonce (nonce : U256) : Transaction :=
  ⟨nonce, 1, 21000, .call 7, 0, [], ⟨0, 1, 1⟩⟩

/-- A block with three transactions, the second of which has a wrong nonce. -/
def threeCalls : BlockInput ℕ :=
  ⟨[], 6, [.transact (callWithNonce 0), .transact (callWithNonce 5), .transact (callWithNonce 1)]⟩

def countingGenesis : State ℕ :=
  { genesisState 0 0 with
    currentBlock := some (buildBlock countingConfig (genesisState 0 0) 0)
    currentReceipts := some []
    currentTransactionStatuses := some [] }

theorem countingGenesis_reached : Reached countingConfig countingGenesis := .genesis 0 0 _ rfl

/-- A block whose pre-log claims an empty Ethereum block of the given number. -/
def claimedBlock (number : U256) : BlockInput ℕ :=
  ⟨[.preRuntime shadowsEngineId (.encoded (.block ⟨emptyHeader number, [], []⟩))], 6, []⟩

/-- The state before the finalisation of this block on top of the genesis block. -/
def claimedBody (number : U256) : State ℕ :=
  { initializeBlock (claimedBlock number) countingGenesis with pending := [] }

def claimedState (number : U256) : State ℕ :=
  (onFinalize countingConfig (claimedBody number)).getD (claimedBody number)

/-- The start of a block whose pre-log carries the given transactions, on top of the genesis
block. -/
def importedBlock (transactions : List Transaction) : State ℕ :=
  initializeBlock ⟨[.preRuntime shadowsEngineId
    (.encoded (.block ⟨emptyHeader 1, transactions, []⟩))], 6, []⟩ countingGenesis

end Shadows.Ethereum
