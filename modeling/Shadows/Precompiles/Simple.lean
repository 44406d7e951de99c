import Shadows.Precompiles.Precompile
import Shadows.Foundations.ZeroExtension

/-!
# The precompiles `ECRecover` and `ECRecoverPublicKey`

The key that has signed a message, or its address. The recovery of the key and the hash are functions of
the host, which are a parameter.
-/

namespace Shadows.Precompiles

open Foundations Exec

/-- The functions of `sp_io` that the precompiles use. -/
structure SpIo where
  /-- For a signature of 65 bytes and a message of 32, a key of 64. -/
  secp256k1EcdsaRecover : Bytes → Bytes → Option Bytes
  keccak256 : Bytes → H256

/-- The id for which a key is recovered. -/
def recoveryId (v : UInt8) : ℕ := if 26 < v.toNat then v.toNat - 27 else v.toNat

/-- The host recovers keys for four ids, which may be offset by 27. -/
structure SpIo.Recovers (spIo : SpIo) (recoverKey : Bytes → Bytes → ℕ → Bytes → Option Bytes) :
    Prop where
  recover : ∀ (r s msg : Bytes) (v : UInt8), r.length = 32 → s.length = 32 → msg.length = 32 →
    spIo.secp256k1EcdsaRecover (r ++ s ++ [v]) msg =
      if recoveryId v ≤ 3 then recoverKey r s (recoveryId v) msg else none

section Execute

variable (spIo : SpIo)

/-- The public key, from the first 128 bytes of the input. -/
def recoverPublicKey (i : Bytes) : Exec Bytes := do
  let input := i.take (min i.length 128) ++ List.replicate (128 - min i.length 128) 0
  let msg := input.take 32
  let sig := (input.drop 64).take 32 ++ (input.drop 96).take 32 ++ [input.getD 63 0]
  orRefuse "Public key recover failed" (spIo.secp256k1EcdsaRecover sig msg)

def ECRecover.execute (i : Bytes) (_cost : UInt64) : Exec Output := do
  let pubkey ← recoverPublicKey spIo i
  let address := (spIo.keccak256 pubkey).asBytes
  pure (.returned, List.replicate 12 0 ++ address.drop 12)

def ECRecover.precompile : LinearCostPrecompile := ⟨3000, 0, ECRecover.execute spIo⟩

def ECRecoverPublicKey.execute (i : Bytes) (_cost : UInt64) : Exec Output := do
  let pubkey ← recoverPublicKey spIo i
  pure (.returned, pubkey)

def ECRecoverPublicKey.precompile : LinearCostPrecompile := ⟨3000, 0, ECRecoverPublicKey.execute spIo⟩

end Execute

/-! ## What the input says -/

namespace ECRecover

def message (i : Bytes) : Bytes := extended i 0 32

/-- The number `v`, in 32 bytes. -/
def vWord (i : Bytes) : ℕ := fromBigEndian (extended i 32 32)

/-- The last byte of the number `v`. -/
def vByte (i : Bytes) : UInt8 := (i[63]?).getD 0

def r (i : Bytes) : Bytes := extended i 64 32

def s (i : Bytes) : Bytes := extended i 96 32

/-- The last twenty bytes of the hash of the key. -/
def addressOutput (spIo : SpIo) (key : Bytes) : Output :=
  (.returned, List.replicate 12 0 ++ (spIo.keccak256 key).asBytes.drop 12)

/-! ## A known signature -/

def knownMessage : Bytes :=
  bigEndian 32 0x456e9aea5e197a1f1af7a3e85a3212fa4049a3ba34c2289b4c860fc0b0c64ef3

def knownR : Bytes := bigEndian 32 0x9242685bf161793cc25603c231bc2f568eb630ea16aa137d2664ac8038825608

def knownS : Bytes := bigEndian 32 0x4f8ae3bd7535248d0bd448298cc2e2071e56992d0774dc340c368ae950852ada

def knownKey : Bytes :=
  bigEndian 64 0xf57c1d4c961024e998eaec4b6bebec90e788ef5ade22e636ce76111b60db107d4c3404b9908a2f357c84ccb48cf412be41d09574a9291c9c7eb5173ccf2a339f

/-- The input with the known signature. -/
def knownInput : Bytes := knownMessage ++ bigEndian 32 28 ++ knownR ++ knownS

def recoverKnown (r s : Bytes) (id : ℕ) (msg : Bytes) : Option Bytes :=
  if r = knownR ∧ s = knownS ∧ id = 1 ∧ msg = knownMessage then some knownKey else none

/-- A host that recovers and hashes the known key only. -/
def knownHost : SpIo where
  secp256k1EcdsaRecover sig msg :=
    if recoveryId (sig.getD 64 0) ≤ 3 then
      recoverKnown (sig.take 32) ((sig.drop 32).take 32) (recoveryId (sig.getD 64 0)) msg
    else none
  keccak256 bytes :=
    if bytes = knownKey then 0x77ac0c9589bd2f77da4cc6227156526fbd7a3c72969b54f64e42c10fbb768c8a else 0

end ECRecover

end Shadows.Precompiles
