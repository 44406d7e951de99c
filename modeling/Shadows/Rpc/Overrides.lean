import Shadows.Primitives.Types

/-!
# Two ways to read the EVM accounts

`eth_getStorageAt` and `eth_getCode` read the accounts either through the runtime API or, if the
storage schema of the state is known to the node, through direct reads of the state under keys that
the node puts together itself.
-/

namespace Shadows

open Foundations

namespace Rpc

/-- The hash functions of `sp_io::hashing` that storage keys are made with. -/
structure KeyHashing where
  twox128 : Bytes → Bytes
  blake2_128 : Bytes → Bytes

/-- The state of a block: the value under every key. -/
abbrev ChainState := Bytes → Option Bytes

/-- The ASCII bytes of a name. -/
def ascii (name : String) : Bytes := name.toList.map fun c => UInt8.ofNat c.toNat

/-! ## Decoding -/

/-- `H256::decode`: the first 32 bytes. -/
def decodeH256 (data : Bytes) : Option H256 :=
  if 32 ≤ data.length then some (H256.fromSlice (data.take 32)) else none

inductive EthereumStorageSchema where
  | undefined
  | v1
  deriving DecidableEq

/-- `EthereumStorageSchema::decode`. -/
def decodeSchema : Bytes → Option EthereumStorageSchema
  | 0 :: _ => some .undefined
  | 1 :: _ => some .v1
  | _ => none

/-- A read of a typed storage value: missing and undecodable entries read as none. -/
def readStorage {α : Type} (decode : Bytes → Option α) (state : ChainState) (key : Bytes) :
    Option α :=
  (state key).bind decode

/-! ## `pallet_evm` -/

section Pallet

variable (hashing : KeyHashing)

/-- The hasher `blake2_128_concat`. -/
def blake2_128Concat (encoded : Bytes) : Bytes := hashing.blake2_128 encoded ++ encoded

/-- The key of `AccountCodes` for an address. -/
def accountCodesKey (address : H160) : Bytes :=
  hashing.twox128 (ascii "EVM") ++ hashing.twox128 (ascii "AccountCodes") ++
    blake2_128Concat hashing address.asBytes

/-- The key of `AccountStorages` for an address and a slot. -/
def accountStoragesKey (address : H160) (slot : H256) : Bytes :=
  hashing.twox128 (ascii "EVM") ++ hashing.twox128 (ascii "AccountStorages") ++
    blake2_128Concat hashing address.asBytes ++ blake2_128Concat hashing slot.asBytes

variable (decodeVec : Bytes → Option Bytes)

def accountCodes (state : ChainState) (address : H160) : Bytes :=
  (readStorage decodeVec state (accountCodesKey hashing address)).getD []

def accountStorages (state : ChainState) (address : H160) (slot : H256) : H256 :=
  (readStorage decodeH256 state (accountStoragesKey hashing address slot)).getD 0

/-- `account_code_at` of the runtime API. -/
def runtimeAccountCodeAt (state : ChainState) (address : H160) : Bytes :=
  accountCodes hashing decodeVec state address

/-- `storage_at` of the runtime API. -/
def runtimeStorageAt (state : ChainState) (address : H160) (index : U256) : H256 :=
  accountStorages hashing state address (H256.fromSlice index.toBigEndian)

end Pallet

/-! ## `StorageOverride` -/

/-- `StorageOverride`, as far as it reads accounts. -/
structure StorageOverride where
  accountCodeAt : ChainState → H160 → Option Bytes
  storageAt : ChainState → H160 → U256 → Option H256

section Overrides

variable (hashing : KeyHashing) (decodeVec : Bytes → Option Bytes)

def storagePrefixBuild (moduleName storageName : Bytes) : Bytes :=
  hashing.twox128 moduleName ++ hashing.twox128 storageName

/-- `blake2_128_extend`. -/
def blake2_128Extend (bytes : Bytes) : Bytes := hashing.blake2_128 bytes ++ bytes

def schemaV1Override : StorageOverride where
  accountCodeAt := fun state address =>
    let key := storagePrefixBuild hashing (ascii "EVM") (ascii "AccountCodes") ++
      blake2_128Extend hashing address.asBytes
    readStorage decodeVec state key
  storageAt := fun state address index =>
    let tmp := index.toLittleEndian
    let key := storagePrefixBuild hashing (ascii "EVM") (ascii "AccountStorages") ++
      blake2_128Extend hashing address.asBytes ++ blake2_128Extend hashing tmp
    readStorage decodeH256 state key

def runtimeApiStorageOverride : StorageOverride where
  accountCodeAt := fun state address => some (runtimeAccountCodeAt hashing decodeVec state address)
  storageAt := fun state address index => some (runtimeStorageAt hashing state address index)

def palletEthereumSchema : Bytes := ascii ":ethereum_schema"

def onchainStorageSchema (state : ChainState) : EthereumStorageSchema :=
  (readStorage decodeSchema state palletEthereumSchema).getD .undefined

/-- The overrides that the node hands to `EthApi`. -/
def nodeOverrides : EthereumStorageSchema → Option StorageOverride
  | .v1 => some (schemaV1Override hashing decodeVec)
  | .undefined => none

/-- The handler for the schema of a state. -/
def handler (overrides : EthereumStorageSchema → Option StorageOverride) (state : ChainState) :
    StorageOverride :=
  (overrides (onchainStorageSchema state)).getD (runtimeApiStorageOverride hashing decodeVec)

/-- `EthApi::storage_at`, on the state of the block asked for. -/
def ethStorageAt (overrides : EthereumStorageSchema → Option StorageOverride) (state : ChainState)
    (address : H160) (index : U256) : H256 :=
  ((handler hashing decodeVec overrides state).storageAt state address index).getD 0

/-- `EthApi::code_at`, on the state of the block asked for. -/
def ethCodeAt (overrides : EthereumStorageSchema → Option StorageOverride) (state : ChainState)
    (address : H160) : Bytes :=
  ((handler hashing decodeVec overrides state).accountCodeAt state address).getD []

/-- The two methods answer with the node's overrides as they do through the runtime API. -/
def OverrideAgrees (state : ChainState) (address : H160) (index : U256) : Prop :=
  ethCodeAt hashing decodeVec (nodeOverrides hashing decodeVec) state address =
      ethCodeAt hashing decodeVec (fun _ => none) state address ∧
    ethStorageAt hashing decodeVec (nodeOverrides hashing decodeVec) state address index =
      ethStorageAt hashing decodeVec (fun _ => none) state address index

end Overrides

/-! ## An account with one slot -/

/-- The hashes that the keys below are made of. -/
def slotHashing : KeyHashing where
  twox128 := fun bytes =>
    if bytes = ascii "EVM" then bigEndian 16 0x1da53b775b270400e7e61ed5cbc5a146
    else if bytes = ascii "AccountCodes" then bigEndian 16 0xea70f53d5a3306ce02aaf97049cf181a
    else if bytes = ascii "AccountStorages" then bigEndian 16 0xab1160471b1418779239ba8e2b847e42
    else []
  blake2_128 := fun bytes =>
    if bytes = List.replicate 20 0 then bigEndian 16 0x9583000fb4548029c502d9455d72a499
    else if bytes = bigEndian 32 1 then bigEndian 16 0x7af7fa355ea131795dc480485b6c64c9
    else if bytes = littleEndian 32 1 then bigEndian 16 0xbc148335f9356adcdeeaf0b481e31dea
    else []

/-- The encoding of vectors of fewer than 64 bytes. -/
def decodeShortVec : Bytes → Option Bytes
  | [] => none
  | n :: data =>
    if n % 4 = 0 ∧ n.toNat / 4 ≤ data.length then some (data.take (n.toNat / 4)) else none

/-- A state of schema V1 in which the account has the value `value` in one slot. -/
def oneSlotState (hashing : KeyHashing) (address : H160) (slot value : H256) : ChainState :=
  fun key =>
    if key = palletEthereumSchema then some [1]
    else if key = accountStoragesKey hashing address slot then some value.asBytes
    else none

end Rpc

end Shadows
