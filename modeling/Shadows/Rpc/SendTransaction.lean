import Shadows.Ethereum.ValidateUnsigned
import Shadows.Rpc.PendingTransactions
import Shadows.Rpc.TransactionCount

/-!
# Sending a transaction

`send_transaction` fills in what a request leaves out, has a signer of the node sign the transaction, and
submits it to the transaction pool. The signature, the hash of what is signed, and the conversions between
them belong to third-party crates.
-/

namespace Shadows.Rpc

open Ethereum

structure TransactionRequest where
  «from» : Option H160
  «to» : Option H160
  gasPrice : Option U256
  gas : Option U256
  value : Option U256
  data : Option Bytes
  nonce : Option U256

/-- `ethereum::TransactionMessage`. -/
structure TransactionMessage where
  nonce : U256
  gasPrice : U256
  gasLimit : U256
  action : TransactionAction
  value : U256
  input : Bytes
  chainId : Option UInt64

structure EthSigner where
  accounts : List H160
  sign : TransactionMessage → H160 → Except RpcFailure Transaction

/-! ## The signer for development -/

/-- What a signer takes from the crates `secp256k1`, `ethereum` and `sha3`, for secret keys `K`. -/
structure SigningCrates (K : Type) where
  /-- `PublicKey::from_secret_key`, serialized, without the first byte. -/
  publicKey : K → Bytes
  /-- `secp256k1::sign`: the two halves of the serialized signature, and the recovery id. -/
  sign : H256 → K → H256 × H256 × UInt8
  keccak256 : Bytes → H256
  /-- `TransactionMessage::hash`, which always parses as a signing message. -/
  hash : TransactionMessage → H256
  /-- `TransactionSignature::new`. -/
  newSignature : UInt64 → H256 → H256 → Option TransactionSignature

section DevSigner

variable {K : Type} (crates : SigningCrates K)

def keyAddress (secret : K) : H160 := (crates.keccak256 (crates.publicKey secret)).setWidth 160

/-- The `v` of a signature; the arithmetic is that of `u64`. -/
def signatureV (chainId : Option UInt64) (recid : UInt8) : UInt64 :=
  match chainId with
  | none => 27 + recid.toUInt64
  | some chainId => 2 * chainId + 35 + recid.toUInt64

def signWith (message : TransactionMessage) (secret : K) : Except RpcFailure Transaction :=
  let (r, s, recid) := crates.sign (crates.hash message) secret
  match crates.newSignature (signatureV message.chainId recid) r s with
  | none => .error (internalErr "signer generated invalid signature")
  | some signature =>
    .ok
      { nonce := message.nonce
        gasPrice := message.gasPrice
        gasLimit := message.gasLimit
        action := message.action
        value := message.value
        input := message.input
        signature := signature }

/-- The loop over the keys. -/
def devSign (message : TransactionMessage) (address : H160) :
    List K → Except RpcFailure Transaction
  | [] => .error (internalErr "signer not available")
  | secret :: keys =>
    if keyAddress crates secret = address then signWith crates message secret
    else devSign message address keys

/-- `EthDevSigner`, with its keys. -/
def ethDevSigner (keys : List K) : EthSigner where
  accounts := keys.map (keyAddress crates)
  sign := fun message address => devSign crates message address keys

end DevSigner

/-! ## The request -/

/-- `accounts`. -/
def accounts (signers : List EthSigner) : List H160 := signers.flatMap fun signer => signer.accounts

/-- `chain_id`, from the answer of the runtime API. -/
def chainId (answer : Except String UInt64) : Except RpcFailure (Option UInt64) :=
  match answer with
  | .error err => .error (internalErr ("fetch runtime chain id failed: " ++ err))
  | .ok chainId => .ok (some chainId)

def TransactionRequest.message (request : TransactionRequest) (nonce : U256)
    (chainId : Option UInt64) : TransactionMessage where
  nonce := nonce
  gasPrice := request.gasPrice.getD 1
  gasLimit := request.gas.getD (Fin.last _)
  value := request.value.getD 0
  input := request.data.getD []
  action := match request.to with
    | some «to» => .call «to»
    | none => .create
  chainId := chainId

/-- The loop over the signers. -/
def signBy (message : TransactionMessage) («from» : H160) :
    List EthSigner → Except RpcFailure Transaction
  | [] => .error (internalErr "no signer available")
  | signer :: signers =>
    if «from» ∈ signer.accounts then signer.sign message «from»
    else signBy message «from» signers

/-- The account that sends, the first one if the request does not say. -/
def TransactionRequest.sender (request : TransactionRequest) (signers : List EthSigner) :
    Except RpcFailure H160 :=
  match request.from with
  | some «from» => .ok «from»
  | none =>
    match (accounts signers)[0]? with
    | some account => .ok account
    | none => .error (internalErr "no signer available")

/-- `send_transaction`, up to the submission to the pool. `count` is the transaction count of an account
at the latest block. -/
def requestTransaction (signers : List EthSigner) (count : H160 → Except RpcFailure U256)
    (chain : Except String UInt64) (request : TransactionRequest) : Except RpcFailure Transaction :=
  match request.sender signers with
  | .error e => .error e
  | .ok «from» =>
    match request.nonce.elim (count «from») .ok with
    | .error e => .error e
    | .ok nonce =>
      match chainId chain with
      | .error e => .error e
      | .ok chainId => signBy (request.message nonce chainId) «from» signers

section Submission

variable {Hash : Type} [DecidableEq Hash]

/-- `send_transaction`. The runtime API answers `account_basic` and `chain_id`; `number` is the best
number, `answer` what the pool answers to a transaction. -/
def sendTransaction (codec : BlockCodec) (api : ChainApi Hash)
    (accountBasic : BlockId Hash → H160 → Except String Evm.Account) (pool : ReadyPool)
    (signers : List EthSigner) (chain : Except String UInt64) (number : UInt32)
    (answer : Transaction → Except String Unit) (request : TransactionRequest)
    (pending : PendingTransactions) : Except RpcFailure H256 × PendingTransactions :=
  let count := fun address => transactionCount api accountBasic pool address none
  match requestTransaction signers count chain request with
  | .error e => (.error e, pending)
  | .ok transaction => submitted codec transaction number (answer transaction) pending

end Submission

/-! ## What the pool makes of it -/

/-- What the crates promise to the signer and to the pallet: a signature recovers the key that has made
it, and a transaction remembers the chain id that was signed. -/
structure SigningLaws {K W : Type} (crates : SigningCrates K) (cfg : Ethereum.Config W)
    (ids : ChainIds) : Prop where
  newSignature : ∀ v r s signature, crates.newSignature v r s = some signature →
    signature = ⟨v, r, s⟩
  /-- The recovery id says which of two points it is. -/
  recid : ∀ msg secret, (crates.sign msg secret).2.2 = 0 ∨ (crates.sign msg secret).2.2 = 1
  recover : ∀ msg secret, cfg.secp256k1EcdsaRecover ((crates.sign msg secret).1.asBytes ++
    (crates.sign msg secret).2.1.asBytes ++ [(crates.sign msg secret).2.2]) msg.asBytes =
      some (crates.publicKey secret)
  keccak256 : cfg.keccak256 = crates.keccak256
  standardV : ∀ v, 36 < v → cfg.standardV v = ((v - 1) % 2).toUInt8
  signatureChainId : ∀ signature : TransactionSignature, ids.signatureChainId signature =
    if 36 < signature.v then some ((signature.v - 35) / 2) else none
  messageHash : ∀ transaction : Transaction, cfg.messageHash transaction = crates.hash
    { nonce := transaction.nonce
      gasPrice := transaction.gasPrice
      gasLimit := transaction.gasLimit
      action := transaction.action
      value := transaction.value
      input := transaction.input
      chainId := ids.signatureChainId transaction.signature }

/-- A chain id whose signatures carry it: it is not zero, and `v` does not overflow. -/
def SignableChain (chainId : UInt64) : Prop := 0 < chainId.toNat ∧ 2 * chainId.toNat + 36 < 2 ^ 64

variable {S AccountId M : Type}

/-- The account covers what a request asks for: its nonce has not been used, the payment for all of the
gas is there, and the price is enough. -/
structure Affordable (rt : Runtime S AccountId M) (st : State (Evm.World S))
    (request : TransactionRequest) («from» : H160) (nonce : U256) : Prop where
  nonce : (Evm.accountBasic rt.evm st.world «from»).nonce ≤ nonce
  payment : (request.value.getD 0).val +
    (request.gasPrice.getD 1).val * (request.gas.getD (Fin.last _)).val ≤
      (Evm.accountBasic rt.evm st.world «from»).balance.val
  price : rt.evm.minGasPrice st.world ≤ request.gasPrice.getD 1

/-! ## A node with one key -/

/-- The crates for a single key, whose signatures are the hashes. -/
def soleCrates : SigningCrates Unit where
  publicKey := fun _ => []
  sign := fun msg _ => (msg, 0, 1)
  keccak256 := fun _ => 256
  hash := fun message => .ofNat 256 message.nonce.val
  newSignature := fun v r s => some ⟨v, r, s⟩

/-- The runtime on the ledger, with the `standard_v` of the crate `ethereum`. -/
def soleRuntime : Runtime Evm.Ledger H160 Unit :=
  { ledgerRuntime with
    ethereum := { ledgerRuntime.ethereum with
      standardV := fun v => if v = 27 ∨ v = 28 ∨ 36 < v then ((v - 1) % 2).toUInt8 else 4 }
    runner_eq := rfl }

/-- A request of the one account to call the account `7`, with the gas of a call. -/
def soleRequest : TransactionRequest := ⟨none, some 7, none, some 21000, none, none, none⟩

end Shadows.Rpc
