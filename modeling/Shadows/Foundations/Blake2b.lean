import Mathlib.Data.Nat.Sqrt
import Mathlib.Data.Fin.VecNotation
import Mathlib.Algebra.Ring.Nat

/-!
# The compression function of BLAKE2b

The function F of RFC 7693 for words of 64 bits, with any number of rounds. The work vector is a matrix
of four rows and four columns. A round mixes its columns and then its diagonals, where the diagonals are
the columns after each row was rotated by its number.
-/

namespace Foundations.Blake2b

abbrev Word := BitVec 64

/-- The rows of the work vector. -/
abbrev Matrix := Fin 4 → Fin 4 → Word

/-! ## Constants -/

/-- The sizes of the index types are positive, which their literals need. -/
scoped instance neZeroFour : NeZero 4 := ⟨by decide⟩

scoped instance neZeroTen : NeZero 10 := ⟨by decide⟩

scoped instance neZeroSixteen : NeZero 16 := ⟨by decide⟩

/-- The first 64 bits of the fractional part of a square root. -/
def rootFraction (n : ℕ) : Word := .ofNat 64 (Nat.sqrt (n * 2 ^ 128))

/-- The first eight primes. -/
def primes : Fin 8 → ℕ := ![2, 3, 5, 7, 11, 13, 17, 19]

/-- The initialization vector. -/
def iv (i : Fin 8) : Word := rootFraction (primes i)

/-- The schedule of the message words, sixteen hexadecimal digits for each of ten rounds. -/
def schedule : Fin 10 → ℕ :=
  ![0x0123456789abcdef, 0xea489fd61c02b753, 0xb8c052fdae367194, 0x7931dcbe265a40f8,
    0x905724afe1bc683d, 0x2c6a0b834d75fe19, 0xc51fed4a0763928b, 0xdb7ec13950f4862a,
    0x6fe9b308c2d714a5, 0xa2847615fb9e3cd0]

/-- The message word for a position in a round. -/
def sigma (round : ℕ) (position : Fin 16) : Fin 16 :=
  .ofNat 16 (schedule (.ofNat 10 round) / 16 ^ (15 - position.val))

/-! ## Mixing -/

/-- Rotation to the right. -/
def rotate (x : Word) (n : ℕ) : Word := (x >>> n) ^^^ (x <<< (64 - n))

/-- One half of the function G, with a word of the message and two rotations. -/
def mixHalf (lane : Fin 4 → Word) (x : Word) (first second : ℕ) : Fin 4 → Word :=
  let a := lane 0 + lane 1 + x
  let d := rotate (lane 3 ^^^ a) first
  let c := lane 2 + d
  let b := rotate (lane 1 ^^^ c) second
  ![a, b, c, d]

/-- The function G. -/
def mix (lane : Fin 4 → Word) (x y : Word) : Fin 4 → Word :=
  mixHalf (mixHalf lane x 32 24) y 16 63

/-- All columns, each mixed with two words. -/
def mixColumns (v : Matrix) (x y : Fin 4 → Word) : Matrix :=
  fun row column => mix (fun row => v row column) (x column) (y column) row

/-- The diagonals as columns. -/
def shear (v : Matrix) : Matrix := fun row column => v row (column + row)

/-- The columns as diagonals. -/
def unshear (v : Matrix) : Matrix := fun row column => v row (column - row)

/-- The message words that are first for the columns or diagonals, or second. -/
def messageWords (m : Fin 16 → Word) (round : ℕ) (first : Fin 16) (column : Fin 4) : Word :=
  m (sigma round (first + .ofNat 16 (2 * column.val)))

def round (m : Fin 16 → Word) (i : ℕ) (v : Matrix) : Matrix :=
  let v := mixColumns v (messageWords m i 0) (messageWords m i 1)
  unshear (mixColumns (shear v) (messageWords m i 8) (messageWords m i 9))

/-- The first rounds, one after the other. -/
def rounds (m : Fin 16 → Word) (v : Matrix) : ℕ → Matrix
  | 0 => v
  | i + 1 => round m i (rounds m v i)

/-! ## Compression -/

/-- The offset counters, and the flag of the final block as a word. -/
def mask (t : Word × Word) (final : Bool) : Fin 4 → Word :=
  ![t.1, t.2, if final then .allOnes 64 else 0, 0]

/-- The state above the initialization vector, whose last row is masked. -/
def start (h : Fin 8 → Word) (t : Word × Word) (final : Bool) : Matrix :=
  ![fun i => h (Fin.castAdd 4 i), fun i => h (Fin.natAdd 4 i), fun i => iv (Fin.castAdd 4 i),
    fun i => iv (Fin.natAdd 4 i) ^^^ mask t final i]

/-- The function F. -/
def compress (h : Fin 8 → Word) (m : Fin 16 → Word) (t : Word × Word) (final : Bool) (count : ℕ) :
    Fin 8 → Word :=
  let v := rounds m (start h t final) count
  fun i => h i ^^^ Fin.addCases (fun i : Fin 4 => v 0 i ^^^ v 2 i) (fun i : Fin 4 => v 1 i ^^^ v 3 i) i

/-! ## Lemmas -/

theorem rotate_eq (x : Word) {n : ℕ} (hpos : 0 < n) (hlt : n < 64) : rotate x n = x.rotateRight n := by
  unfold rotate
  apply BitVec.eq_of_getLsbD_eq
  intro i hi
  rw [BitVec.getLsbD_xor, BitVec.getLsbD_ushiftRight, BitVec.getLsbD_shiftLeft,
    BitVec.getLsbD_rotateRight, Nat.mod_eq_of_lt hlt, decide_eq_true hi]
  rcases Nat.lt_or_ge i (64 - n) with hlow | hhigh
  · rw [decide_eq_true hlow, cond_true]
    simp
  · rw [decide_eq_false (Nat.not_lt.2 hhigh), cond_false, BitVec.getLsbD_of_ge x (n + i) (by omega)]
    simp

/-- A word with an integer in front of it is the fraction of the root if the root is between it and its
successor. -/
theorem rootFraction_eq {n : ℕ} {integer : ℕ} {word : Word}
    (hle : (integer * 2 ^ 64 + word.toNat) * (integer * 2 ^ 64 + word.toNat) ≤ n * 2 ^ 128)
    (hlt : n * 2 ^ 128 <
      (integer * 2 ^ 64 + word.toNat + 1) * (integer * 2 ^ 64 + word.toNat + 1)) :
    rootFraction n = word := by
  unfold rootFraction
  rw [← Nat.eq_sqrt.2 ⟨hle, hlt⟩]
  apply BitVec.eq_of_toNat_eq
  rw [BitVec.toNat_ofNat, Nat.mul_add_mod_self_right, Nat.mod_eq_of_lt word.isLt]

end Foundations.Blake2b
