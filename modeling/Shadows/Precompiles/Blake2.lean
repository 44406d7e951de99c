import Shadows.Precompiles.Precompile
import Shadows.Foundations.Blake2b
import Shadows.Foundations.ByteOrder

/-!
# The precompile `Blake2F`

The compression function of BLAKE2b with the number of rounds in the input.
-/

namespace Shadows.Precompiles

open Foundations

/-! ## `eip_152` -/

namespace Eip152

open Blake2b

/-- The message words of ten rounds. -/
def SIGMA : Vector (Vector (Fin 16) 16) 10 := #v[
  #v[0, 1, 2, 3, 4, 5, 6, 7, 8, 9, 10, 11, 12, 13, 14, 15],
  #v[14, 10, 4, 8, 9, 15, 13, 6, 1, 12, 0, 2, 11, 7, 5, 3],
  #v[11, 8, 12, 0, 5, 2, 15, 13, 10, 14, 3, 6, 7, 1, 9, 4],
  #v[7, 9, 3, 1, 13, 12, 11, 14, 2, 6, 5, 10, 4, 0, 15, 8],
  #v[9, 0, 5, 7, 2, 4, 10, 15, 14, 1, 11, 12, 6, 8, 3, 13],
  #v[2, 12, 6, 10, 0, 11, 8, 3, 4, 13, 7, 5, 15, 14, 1, 9],
  #v[12, 5, 1, 15, 14, 13, 4, 10, 0, 7, 6, 3, 9, 2, 8, 11],
  #v[13, 11, 7, 14, 12, 1, 3, 9, 5, 0, 15, 4, 8, 6, 2, 10],
  #v[6, 15, 14, 9, 11, 3, 0, 8, 12, 2, 13, 7, 1, 4, 10, 5],
  #v[10, 2, 8, 4, 7, 6, 1, 5, 15, 11, 9, 14, 3, 12, 13, 0]]

/-- The initialization vector. -/
def IV : Vector Word 8 := #v[
  0x6a09e667f3bcc908,
  0xbb67ae8584caa73b,
  0x3c6ef372fe94f82b,
  0xa54ff53a5f1d36f1,
  0x510e527fade682d1,
  0x9b05688c2b3e6c1f,
  0x1f83d9abfb41bd6b,
  0x5be0cd19137e2179]

/-- The assignment of a word. -/
def setWord (v : Vector Word 16) (a : Fin 16) (x : Word) : Vector Word 16 := v.set a x

/-- The mixing of four words with two. -/
def g (v : Vector Word 16) (a b c d : Fin 16) (x y : Word) : Vector Word 16 :=
  let v := setWord v a (v.get a + v.get b + x)
  let v := setWord v d ((v.get d ^^^ v.get a).rotateRight 32)
  let v := setWord v c (v.get c + v.get d)
  let v := setWord v b ((v.get b ^^^ v.get c).rotateRight 24)
  let v := setWord v a (v.get a + v.get b + y)
  let v := setWord v d ((v.get d ^^^ v.get a).rotateRight 16)
  let v := setWord v c (v.get c + v.get d)
  setWord v b ((v.get b ^^^ v.get c).rotateRight 63)

/-- The body of the loop over the rounds. -/
def mixRound (m : Vector Word 16) (v : Vector Word 16) (i : ℕ) : Vector Word 16 :=
  let s := SIGMA.get (.ofNat 10 i)
  let v := g v 0 4 8 12 (m.get (s.get 0)) (m.get (s.get 1))
  let v := g v 1 5 9 13 (m.get (s.get 2)) (m.get (s.get 3))
  let v := g v 2 6 10 14 (m.get (s.get 4)) (m.get (s.get 5))
  let v := g v 3 7 11 15 (m.get (s.get 6)) (m.get (s.get 7))
  let v := g v 0 5 10 15 (m.get (s.get 8)) (m.get (s.get 9))
  let v := g v 1 6 11 12 (m.get (s.get 10)) (m.get (s.get 11))
  let v := g v 2 7 8 13 (m.get (s.get 12)) (m.get (s.get 13))
  g v 3 4 9 14 (m.get (s.get 14)) (m.get (s.get 15))

/-- The state that is mixed in the rounds. -/
def workVector (h : Vector Word 8) (t : Word × Word) (f : Bool) : Vector Word 16 :=
  let v : Vector Word 16 := h ++ IV
  let v := setWord v 12 (v.get 12 ^^^ t.1)
  let v := setWord v 13 (v.get 13 ^^^ t.2)
  if f then setWord v 14 (~~~v.get 14) else v

def compress (h : Vector Word 8) (m : Vector Word 16) (t : Word × Word) (f : Bool) (rounds : ℕ) :
    Vector Word 8 :=
  let v := (List.range rounds).foldl (mixRound m) (workVector h t f)
  .ofFn fun i => h.get i ^^^ (v.get (Fin.castAdd 8 i) ^^^ v.get (Fin.addNat i 8))

end Eip152

/-! ## `Blake2F` -/

namespace Blake2F

open Blake2b (Word)
open Exec

/-- `u64::from_le_bytes` and `u32::from_le_bytes`. -/
def fromLeBytes (bytes : Bytes) : ℕ := fromBigEndian bytes.reverse

/-- `copy_from_slice` of a part of the data. -/
def readBuf (data : Bytes) (first last length : ℕ) : Exec Bytes :=
  orPanic ((slice data first last).bind (copyFromSlice length))

/-- The loops over the words of the state and of the message. -/
def readWords (count : ℕ) (buf : Bytes) : Exec (Vector Word count) :=
  Vector.ofFnM fun ctr => do
    let temp ← readBuf buf (ctr + 8) ((ctr + 1) * 8) 8
    pure (.ofNat 64 (fromLeBytes temp))

def execute (input : Bytes) (_cost : UInt64) : Exec Output := do
  refuseIf (input.length ≠ 213) "input length for Blake2 F precompile should be exactly 213 bytes"
  let roundsBuf ← readBuf input 0 4 4
  let rounds := fromLeBytes roundsBuf
  let hBuf ← readBuf input 4 48 64
  let h ← readWords 8 hBuf
  let mBuf ← readBuf input 68 196 128
  let m ← readWords 16 mBuf
  let t0Buf ← readBuf input 196 204 8
  let t0 := .ofNat 64 (fromLeBytes t0Buf)
  let t1Buf ← readBuf input 204 212 8
  let t1 := .ofNat 64 (fromLeBytes t1Buf)
  let flag ← orPanic input[212]?
  let f ← if flag = 1 then pure true else if flag = 0 then pure false
    else throw (.other "incorrect final block indicator flag")
  let h := Eip152.compress h m (t0, t1) f rounds
  pure (.returned, h.toList.flatMap fun word => littleEndian 8 word.toNat)

def precompile : LinearCostPrecompile := ⟨15, 3, execute⟩

/-! ## The format -/

/-- The little-endian word at a position. -/
def wordAt (input : Bytes) (first : ℕ) : Word :=
  .ofNat 64 (fromBigEndian ((input.drop first).take 8).reverse)

/-- What the format of the input says: the number of rounds, the state, the message, the offset counters
and the flag of the final block. -/
def formatOutput (input : Bytes) : Bytes :=
  let h := Blake2b.compress (fun i => wordAt input (4 + 8 * i.val))
    (fun i => wordAt input (68 + 8 * i.val)) (wordAt input 196, wordAt input 204)
    (input[212]? = some 1) (fromBigEndian (input.take 4))
  (List.finRange 8).flatMap fun i => littleEndian 8 (h i).toNat

end Blake2F

end Shadows.Precompiles
