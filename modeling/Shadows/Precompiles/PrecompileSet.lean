import Shadows.Precompiles.Simple

/-!
# The precompiles of the runtime

A tuple of precompiles answers at the addresses from `1` on, in its order. The hashes are functions of
the host and of other crates, which are a parameter.
-/

namespace Shadows.Precompiles

open Exec

/-! ## Hashes -/

structure HashApi where
  /-- `sp_io::hashing::sha2_256`. -/
  sha2256 : Bytes → Bytes
  /-- `ripemd160::Ripemd160::digest`. -/
  ripemd160 : Bytes → Bytes
  /-- `tiny_keccak::Sha3::v256`. -/
  sha3v256 : Bytes → Bytes
  /-- `tiny_keccak::Sha3::v512`. -/
  sha3v512 : Bytes → Bytes

/-- The lengths of the digests. -/
structure HashApi.Sized (hash : HashApi) : Prop where
  sha2256 : ∀ input, (hash.sha2256 input).length = 32
  ripemd160 : ∀ input, (hash.ripemd160 input).length = 20
  sha3v256 : ∀ input, (hash.sha3v256 input).length = 32
  sha3v512 : ∀ input, (hash.sha3v512 input).length = 64

/-- The length of a recovered key. -/
def SpIo.KeySized (spIo : SpIo) : Prop :=
  ∀ sig msg key, spIo.secp256k1EcdsaRecover sig msg = some key → key.length = 64

def Identity.execute (input : Bytes) (_cost : UInt64) : Exec Output := pure (.returned, input)

def Identity.precompile : LinearCostPrecompile := ⟨15, 3, Identity.execute⟩

section Hashes

variable (hash : HashApi)

def Sha256.execute (input : Bytes) (_cost : UInt64) : Exec Output :=
  pure (.returned, hash.sha2256 input)

def Sha256.precompile : LinearCostPrecompile := ⟨60, 12, Sha256.execute hash⟩

def Ripemd160.execute (input : Bytes) (_cost : UInt64) : Exec Output := do
  let digest ← orPanic (copyFromSlice 20 (hash.ripemd160 input))
  pure (.returned, List.replicate 12 0 ++ digest)

def Ripemd160.precompile : LinearCostPrecompile := ⟨600, 120, Ripemd160.execute hash⟩

def Sha3FIPS256.execute (input : Bytes) (_cost : UInt64) : Exec Output :=
  pure (.returned, hash.sha3v256 input)

def Sha3FIPS256.precompile : LinearCostPrecompile := ⟨60, 12, Sha3FIPS256.execute hash⟩

def Sha3FIPS512.execute (input : Bytes) (_cost : UInt64) : Exec Output :=
  pure (.returned, hash.sha3v512 input)

def Sha3FIPS512.precompile : LinearCostPrecompile := ⟨60, 12, Sha3FIPS512.execute hash⟩

end Hashes

/-! ## Tuples -/

/-- `H160::from_low_u64_be`. -/
def fromLowU64Be (n : UInt64) : H160 := BitVec.ofNat 160 n.toNat

abbrev PrecompileSet := List LinearCostPrecompile

namespace PrecompileSet

section Execute

variable (address : H160) (input : Bytes) (targetGas : Option UInt64)

/-- The members of the tuple that are left, after `index` of them. -/
def executeFrom : UInt64 → PrecompileSet → Option (Exec (Output × UInt64))
  | _, [] => none
  | index, member :: members =>
    let index := index + 1
    if address = fromLowU64Be index then some (member.run input targetGas)
    else executeFrom index members

/-- `PrecompileSet::execute`, which has no answer for an address without a precompile. -/
def execute (set : PrecompileSet) : Option (Exec (Output × UInt64)) :=
  executeFrom address input targetGas 0 set

end Execute

/-- `Precompiles` of the runtime. -/
def runtime (spIo : SpIo) (hash : HashApi) : PrecompileSet :=
  [ECRecover.precompile spIo, Sha256.precompile hash, Ripemd160.precompile hash, Identity.precompile,
    ECRecoverPublicKey.precompile spIo, Sha3FIPS256.precompile hash, Sha3FIPS512.precompile hash]

end PrecompileSet

/-! ## Prices -/

/-- What an input of some bytes costs, in words of 32 bytes that are begun. -/
def LinearCostPrecompile.price (precompile : LinearCostPrecompile) (length : ℕ) : ℕ :=
  precompile.base.toNat + precompile.word.toNat * ((length + 31) / 32)

/-- The precompile at an address of the runtime returns so many bytes. -/
def outputLength (address : ℕ) (length : ℕ) : ℕ :=
  match address with
  | 4 => length
  | 5 | 7 => 64
  | _ => 32

/-- A precompile is metered for an input: it does not panic, and whatever gas there is, it is out of gas
below its price and has the same outcome from there on. It returns `length` bytes or fails. -/
def Metered (precompile : LinearCostPrecompile) (input : Bytes) (length : ℕ) : Prop :=
  ∃ outcome : Exec Output, outcome ≠ panicked ∧
    (∀ targetGas : Option UInt64, precompile.run input targetGas =
      if precompile.price input.length < 2 ^ 64 ∧
          targetGas.all fun gas => precompile.price input.length ≤ gas.toNat then
        outcome >>= fun output => pure (output, .ofNat (precompile.price input.length))
      else throw .outOfGas) ∧
    ∀ output, outcome = pure output → output.1 = .returned ∧ output.2.length = length

/-! ## A host without signatures -/

/-- No key is recovered. -/
def keylessHost : SpIo := ⟨fun _ _ => none, fun _ => 0⟩

/-- Digests of zeros. -/
def zeroHashes : HashApi where
  sha2256 := fun _ => List.replicate 32 0
  ripemd160 := fun _ => List.replicate 20 0
  sha3v256 := fun _ => List.replicate 32 0
  sha3v512 := fun _ => List.replicate 64 0

end Shadows.Precompiles
