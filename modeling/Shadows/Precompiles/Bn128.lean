import Shadows.Precompiles.Precompile
import Shadows.Foundations.ByteOrder
import Mathlib.Algebra.BigOperators.Group.List.Defs
import Mathlib.Algebra.Group.PUnit

/-!
# The precompiles of the curve `alt_bn128`

Addition, multiplication and the check of a product of pairings. The curve and its pairing are those of
the crate `bn`, whose functions are a parameter. They are total, and their errors are not looked at.
-/

namespace Shadows.Precompiles

open Foundations

/-- The functions of `bn` that the precompiles use. -/
structure BnApi where
  Fq : Type
  Fr : Type
  Fq2 : Type
  G1 : Type
  AffineG1 : Type
  G2 : Type
  AffineG2 : Type
  Gt : Type
  fqFromSlice : Bytes → Option Fq
  fqIsZero : Fq → Bool
  /-- What is written into a buffer of 32 bytes. -/
  fqToBigEndian : Fq → Option (Vector UInt8 32)
  frFromSlice : Bytes → Option Fr
  /-- From the real and the imaginary part. -/
  fq2New : Fq → Fq → Fq2
  fq2IsZero : Fq2 → Bool
  affineG1New : Fq → Fq → Option AffineG1
  affineG1X : AffineG1 → Fq
  affineG1Y : AffineG1 → Fq
  /-- Nothing for the point at infinity. -/
  affineG1FromJacobian : G1 → Option AffineG1
  g1Zero : G1
  g1From : AffineG1 → G1
  g1Add : G1 → G1 → G1
  g1Mul : G1 → Fr → G1
  affineG2New : Fq2 → Fq2 → Option AffineG2
  g2Zero : G2
  g2From : AffineG2 → G2
  [gtMonoid : Monoid Gt]
  [gtDecEq : DecidableEq Gt]
  pairing : G1 → G2 → Gt
  pairingBatch : List (G1 × G2) → Gt

namespace BnApi

attribute [instance] gtMonoid gtDecEq

/-- A batch of pairings is the product of the pairings. -/
structure Correct (bn : BnApi) : Prop where
  pairingBatch : ∀ pairs, bn.pairingBatch pairs = (pairs.map fun pair => bn.pairing pair.1 pair.2).prod

end BnApi

open Exec

section Precompiles

variable (bn : BnApi)

/-! ## `Bn128Add` and `Bn128Mul` -/

/-- A word of 32 bytes. -/
def readWord (input : Bytes) (first : ℕ) : Exec Bytes := orPanic (slice input first (first + 32))

def readFr (input : Bytes) (startInx : ℕ) : Exec bn.Fr := do
  let word ← readWord input startInx
  orRefuse "Invalid field element" (bn.frFromSlice word)

def readPoint (input : Bytes) (startInx : ℕ) : Exec bn.G1 := do
  let px ← orRefuse "Invalid point x coordinate" (bn.fqFromSlice (← readWord input startInx))
  let py ← orRefuse "Invalid point y coordinate" (bn.fqFromSlice (← readWord input (startInx + 32)))
  if bn.fqIsZero px ∧ bn.fqIsZero py then pure bn.g1Zero
  else do
    let point ← orRefuse "Invalid curve point" (bn.affineG1New px py)
    pure (bn.g1From point)

/-- The coordinates of a point, or zero bytes for the point at infinity. -/
def writePoint (point : bn.G1) : Exec Output :=
  match bn.affineG1FromJacobian point with
  | some sum => do
    let x ← orRefuse "Cannot fail since 0..32 is 32-byte length"
      (bn.fqToBigEndian (bn.affineG1X sum))
    let y ← orRefuse "Cannot fail since 32..64 is 32-byte length"
      (bn.fqToBigEndian (bn.affineG1Y sum))
    pure (.returned, x.toList ++ y.toList)
  | none => pure (.returned, List.replicate 64 0)

def Bn128Add.execute (input : Bytes) (_cost : UInt64) : Exec Output := do
  let p1 ← readPoint bn input 0
  let p2 ← readPoint bn input 64
  writePoint bn (bn.g1Add p1 p2)

def Bn128Add.precompile : LinearCostPrecompile := ⟨15, 3, Bn128Add.execute bn⟩

def Bn128Mul.execute (input : Bytes) (_cost : UInt64) : Exec Output := do
  let p ← readPoint bn input 0
  let fr ← readFr bn input 64
  writePoint bn (bn.g1Mul p fr)

def Bn128Mul.precompile : LinearCostPrecompile := ⟨15, 3, Bn128Mul.execute bn⟩

/-! ## `Bn128Pairing` -/

/-- The body of the loop over the elements, for the element from a byte on. -/
def readPair (input : Bytes) (first : ℕ) : Exec (bn.G1 × bn.G2) := do
  let aX ← orRefuse "Invalid a argument x coordinate" (bn.fqFromSlice (← readWord input first))
  let aY ← orRefuse "Invalid a argument y coordinate" (bn.fqFromSlice (← readWord input (first + 32)))
  let bAY ← orRefuse "Invalid b argument imaginary coeff x coordinate"
    (bn.fqFromSlice (← readWord input (first + 64)))
  let bAX ← orRefuse "Invalid b argument imaginary coeff y coordinate"
    (bn.fqFromSlice (← readWord input (first + 96)))
  let bBY ← orRefuse "Invalid b argument real coeff x coordinate"
    (bn.fqFromSlice (← readWord input (first + 128)))
  let bBX ← orRefuse "Invalid b argument real coeff y coordinate"
    (bn.fqFromSlice (← readWord input (first + 160)))
  let bA := bn.fq2New bAX bAY
  let bB := bn.fq2New bBX bBY
  let b ← (if bn.fq2IsZero bA ∧ bn.fq2IsZero bB then pure bn.g2Zero
    else do
      let point ← orRefuse "Invalid b argument - not on curve" (bn.affineG2New bA bB)
      pure (bn.g2From point) : Exec bn.G2)
  let a ← (if bn.fqIsZero aX ∧ bn.fqIsZero aY then pure bn.g1Zero
    else do
      let point ← orRefuse "Invalid a argument - not on curve" (bn.affineG1New aX aY)
      pure (bn.g1From point) : Exec bn.G1)
  pure (a, b)

def Bn128Pairing.execute (input : Bytes) (_cost : UInt64) : Exec Output := do
  let retVal ← (if input.isEmpty then pure 1
    else do
      let elements := input.length / 192
      let vals ← (List.range elements).mapM fun idx => readPair bn input (idx * 192)
      pure (if bn.pairingBatch vals = 1 then 1 else 0) : Exec ℕ)
  pure (.returned, bigEndian 32 retVal)

def Bn128Pairing.precompile : LinearCostPrecompile := ⟨15, 3, Bn128Pairing.execute bn⟩

/-! ## What the input says -/

/-- The element of the field in the word at a position. -/
def coordinate (input : Bytes) (first : ℕ) : Option bn.Fq :=
  bn.fqFromSlice ((input.drop first).take 32)

/-- The point on the curve with the coordinates, which are both zero at infinity. -/
def curvePoint (x y : bn.Fq) : Option bn.G1 :=
  if bn.fqIsZero x ∧ bn.fqIsZero y then some bn.g1Zero else (bn.affineG1New x y).map bn.g1From

/-- The point on the twist with the coordinates, which are both zero at infinity. -/
def twistPoint (x y : bn.Fq2) : Option bn.G2 :=
  if bn.fq2IsZero x ∧ bn.fq2IsZero y then some bn.g2Zero else (bn.affineG2New x y).map bn.g2From

/-- The point in 64 bytes. -/
def pointAt (input : Bytes) (first : ℕ) : Option bn.G1 :=
  (coordinate bn input first).bind fun x =>
    (coordinate bn input (first + 32)).bind fun y => curvePoint bn x y

/-- The element of the quadratic extension in 64 bytes, imaginary part first. -/
def extensionAt (input : Bytes) (first : ℕ) : Option bn.Fq2 :=
  (coordinate bn input first).bind fun imaginary =>
    (coordinate bn input (first + 32)).map fun real => bn.fq2New real imaginary

/-- The point on the twist in 128 bytes. -/
def twistPointAt (input : Bytes) (first : ℕ) : Option bn.G2 :=
  (extensionAt bn input first).bind fun x =>
    (extensionAt bn input (first + 64)).bind fun y => twistPoint bn x y

/-- The pair of points in 192 bytes. -/
def pairAt (input : Bytes) (first : ℕ) : Option (bn.G1 × bn.G2) :=
  (pointAt bn input first).bind fun a => (twistPointAt bn input (first + 64)).map fun b => (a, b)

/-- The pairs of points of an input that consists of them. -/
def pairsOf (input : Bytes) : Option (List (bn.G1 × bn.G2)) :=
  if 192 ∣ input.length then (List.range (input.length / 192)).mapM fun i => pairAt bn input (i * 192)
  else none

/-- Whether the product of the pairings is one. -/
def pairingOutput (pairs : List (bn.G1 × bn.G2)) : Output :=
  (.returned, bigEndian 32 (if (pairs.map fun pair => bn.pairing pair.1 pair.2).prod = 1 then 1 else 0))

end Precompiles

/-! ## The point at infinity -/

/-- The number of elements of the field. -/
def fieldModulus : ℕ :=
  21888242871839275222246405745257275088696311157297823662689037894645226208583

/-- Functions that know no other points than those at infinity. -/
def atInfinity : BnApi where
  Fq := ℕ
  Fr := ℕ
  Fq2 := ℕ × ℕ
  G1 := Unit
  AffineG1 := Empty
  G2 := Unit
  AffineG2 := Empty
  Gt := Unit
  fqFromSlice bytes := if fromBigEndian bytes < fieldModulus then some (fromBigEndian bytes) else none
  fqIsZero x := x = 0
  fqToBigEndian x := some (.ofFn fun i => .ofNat (x / 256 ^ (31 - i.val)))
  frFromSlice bytes := some (fromBigEndian bytes)
  fq2New real imaginary := (real, imaginary)
  fq2IsZero x := x = (0, 0)
  affineG1New _ _ := none
  affineG1X := Empty.elim
  affineG1Y := Empty.elim
  affineG1FromJacobian _ := none
  g1Zero := ()
  g1From _ := ()
  g1Add _ _ := ()
  g1Mul _ _ := ()
  affineG2New _ _ := none
  g2Zero := ()
  g2From _ := ()
  gtMonoid := PUnit.commGroup.toGroup.toDivInvMonoid.toMonoid
  pairing _ _ := 1
  pairingBatch _ := 1

end Shadows.Precompiles
