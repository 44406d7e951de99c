import Shadows.Precompiles.Precompile
import Shadows.Foundations.ZeroExtension

/-!
# The precompile `Modexp`

Modular exponentiation of numbers of declared lengths. The big integers of the crate `num` are natural
numbers, and its functions on them a parameter.
-/

namespace Shadows.Precompiles

open Foundations

/-- The functions of `num::BigUint` that the precompile uses. -/
structure BigUintApi where
  fromBytesBe : Bytes → ℕ
  toBytesBe : ℕ → Bytes
  /-- Panics if the modulus is zero. -/
  modpow : ℕ → ℕ → ℕ → Option ℕ

/-- `num` computes correctly on natural numbers. -/
structure BigUintApi.Correct (num : BigUintApi) : Prop where
  fromBytesBe : ∀ bytes, num.fromBytesBe bytes = fromBigEndian bytes
  toBytesBe : ∀ n, fromBigEndian (num.toBytesBe n) = n
  /-- Zero takes one byte. -/
  toBytesBe_zero : num.toBytesBe 0 = [0]
  /-- No more bytes are written than needed. -/
  toBytesBe_head : ∀ n ≠ 0, (num.toBytesBe n).head? ≠ some 0
  modpow : ∀ base exponent modulus, modulus ≠ 0 →
    num.modpow base exponent modulus = some (base ^ exponent % modulus)

/-- `to_usize`, for the 32 bits of the runtime. -/
def toUsize (n : ℕ) : Option ℕ := if n < 2 ^ 32 then some n else none

namespace Modexp

open Exec

section Execute

variable (num : BigUintApi)

/-- `max_size_big`. -/
def maxSize : ℕ := 1024

/-- A length of 32 bytes. -/
def readLength (input : Bytes) (first : ℕ) (message : String) : Exec ℕ := do
  let buf ← orPanic ((slice input first (first + 32)).bind (copyFromSlice 32))
  let len := num.fromBytesBe buf
  refuseIf (maxSize < len) message
  pure len

/-- The power of the operands that are behind the lengths. -/
def power (input : Bytes) (baseLen expLen modLen : ℕ) : Exec ℕ :=
  if baseLen = 0 ∧ modLen = 0 then pure 0
  else do
    let baseStart := 96
    let base ← orPanic (slice input baseStart (baseStart + baseLen))
    let expStart := baseStart + baseLen
    let exponent ← orPanic (slice input expStart (expStart + expLen))
    let modStart := expStart + expLen
    let modulus ← orPanic (slice input modStart (modStart + modLen))
    if num.fromBytesBe modulus = 0 ∨ num.fromBytesBe modulus = 1 then pure 0
    else
      orPanic (num.modpow (num.fromBytesBe base) (num.fromBytesBe exponent)
        (num.fromBytesBe modulus))

/-- The output, with zero bytes in front up to the length of the modulus. -/
def writeOutput (bytes : Bytes) (modLen : ℕ) : Exec Output :=
  if bytes.length = modLen then pure (.returned, bytes)
  else if bytes.length < modLen then
    pure (.returned, List.replicate (modLen - bytes.length) 0 ++ bytes)
  else throw (.other "failed")

def execute (input : Bytes) (_cost : UInt64) : Exec Output := do
  refuseIf (input.length < 96) "input must contain at least 96 bytes"
  let baseLenBig ← readLength num input 0 "unreasonably large base length"
  let expLenBig ← readLength num input 32 "unreasonably large exponent length"
  let modLenBig ← readLength num input 64 "unreasonably large exponent length"
  let baseLen ← orPanic (toUsize baseLenBig)
  let expLen ← orPanic (toUsize expLenBig)
  let modLen ← orPanic (toUsize modLenBig)
  let totalLen := baseLen + expLen + modLen + 96
  refuseIf (input.length < totalLen) "insufficient input size"
  let r ← power num input baseLen expLen modLen
  writeOutput (num.toBytesBe r) modLen

def precompile : LinearCostPrecompile := ⟨15, 3, execute num⟩

end Execute

/-! ## What the input says -/

def baseLength (input : Bytes) : ℕ := fromBigEndian (extended input 0 32)

def exponentLength (input : Bytes) : ℕ := fromBigEndian (extended input 32 32)

def modulusLength (input : Bytes) : ℕ := fromBigEndian (extended input 64 32)

/-- The length of an input with all of its operands. -/
def totalLength (input : Bytes) : ℕ :=
  96 + baseLength input + exponentLength input + modulusLength input

def base (input : Bytes) : ℕ := fromBigEndian (extended input 96 (baseLength input))

def exponent (input : Bytes) : ℕ :=
  fromBigEndian (extended input (96 + baseLength input) (exponentLength input))

def modulus (input : Bytes) : ℕ :=
  fromBigEndian (extended input (96 + baseLength input + exponentLength input)
    (modulusLength input))

/-- No length is above the limit. -/
def LengthsAllowed (input : Bytes) : Prop :=
  baseLength input ≤ 1024 ∧ exponentLength input ≤ 1024 ∧ modulusLength input ≤ 1024

instance : DecidablePred LengthsAllowed := fun _ => inferInstanceAs (Decidable (_ ∧ _ ∧ _))

/-- The power modulo the modulus, or zero if the modulus is zero. -/
def result (input : Bytes) : ℕ :=
  if modulus input = 0 then 0 else base input ^ exponent input % modulus input

/-! ## Big integers as natural numbers -/

/-- The bytes of a number, without a zero byte in front, except for zero. -/
def minimalBytes (n : ℕ) : Bytes := if n = 0 then [0] else bigEndian (Nat.log2 n / 8 + 1) n

def natural : BigUintApi where
  fromBytesBe := fromBigEndian
  toBytesBe := minimalBytes
  modpow base exponent modulus :=
    if modulus = 0 then none else some (base ^ exponent % modulus)

/-- Lengths of one byte each, without operands. -/
def oneByteLengths : Bytes := bigEndian 32 1 ++ bigEndian 32 1 ++ bigEndian 32 1

/-- `3 ^ 5` modulo `7`. -/
def smallPower : Bytes := oneByteLengths ++ [3, 5, 7]

end Modexp

end Shadows.Precompiles
