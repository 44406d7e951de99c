import Mathlib.Data.List.Induction
import Mathlib.Tactic.Ring

/-!
# Fixed-width byte strings of natural numbers

A number below `256 ^ w` and its `w` bytes, most significant byte first (`bigEndian`, `fromBigEndian`)
or last (`littleEndian`). The two directions undo each other, and the two byte orders are each
other's reverse.
-/

namespace Foundations

/-- The low `w` bytes of `n`, most significant first. -/
def bigEndian : ℕ → ℕ → List UInt8
  | 0, _ => []
  | w + 1, n => bigEndian w (n / 256) ++ [UInt8.ofNat n]

/-- The low `w` bytes of `n`, least significant first. -/
def littleEndian : ℕ → ℕ → List UInt8
  | 0, _ => []
  | w + 1, n => UInt8.ofNat n :: littleEndian w (n / 256)

/-- The number with the given bytes, most significant first. -/
def fromBigEndian (bytes : List UInt8) : ℕ := bytes.foldl (fun n b => n * 256 + b.toNat) 0

@[simp] theorem length_bigEndian (w n : ℕ) : (bigEndian w n).length = w := by
  induction w generalizing n with
  | zero => rfl
  | succ w ih => rw [bigEndian, List.length_append, ih, List.length_singleton]

theorem littleEndian_eq_reverse (w n : ℕ) : littleEndian w n = (bigEndian w n).reverse := by
  induction w generalizing n with
  | zero => rfl
  | succ w ih => rw [littleEndian, bigEndian, List.reverse_append, ih]; rfl

theorem fromBigEndian_append_singleton (bytes : List UInt8) (b : UInt8) :
    fromBigEndian (bytes ++ [b]) = fromBigEndian bytes * 256 + b.toNat := by
  unfold fromBigEndian
  rw [List.foldl_append]
  rfl

theorem fromBigEndian_bigEndian (w n : ℕ) : fromBigEndian (bigEndian w n) = n % 256 ^ w := by
  induction w generalizing n with
  | zero =>
    rw [pow_zero, Nat.mod_one]
    rfl
  | succ w ih =>
    have hbyte : (UInt8.ofNat n).toNat = n % 256 := UInt8.toNat_ofNat'
    rw [bigEndian, fromBigEndian_append_singleton, ih, hbyte, pow_succ', Nat.mod_mul]
    ring

/-- The most significant byte. -/
theorem bigEndian_succ (w n : ℕ) :
    bigEndian (w + 1) n = UInt8.ofNat (n / 256 ^ w) :: bigEndian w n := by
  induction w generalizing n with
  | zero =>
    rw [pow_zero, Nat.div_one]
    rfl
  | succ w ih =>
    rw [bigEndian, ih, Nat.div_div_eq_div_mul, ← pow_succ', List.cons_append]
    rfl

/-- Numbers that fit are told apart by their bytes. -/
theorem bigEndian_inj {w m n : ℕ} (hm : m < 256 ^ w) (hn : n < 256 ^ w)
    (h : bigEndian w m = bigEndian w n) : m = n := by
  have hnum := congrArg fromBigEndian h
  rw [fromBigEndian_bigEndian, fromBigEndian_bigEndian, Nat.mod_eq_of_lt hm,
    Nat.mod_eq_of_lt hn] at hnum
  exact hnum

theorem bigEndian_fromBigEndian (bytes : List UInt8) :
    bigEndian bytes.length (fromBigEndian bytes) = bytes := by
  induction bytes using List.reverseRecOn with
  | nil => rfl
  | append_singleton bytes b ih =>
    have hb : b.toNat < 256 := b.toNat_lt
    have hdiv : (fromBigEndian bytes * 256 + b.toNat) / 256 = fromBigEndian bytes := by omega
    have hmod : (fromBigEndian bytes * 256 + b.toNat) % 256 = b.toNat := by omega
    rw [List.length_append, List.length_singleton, bigEndian, fromBigEndian_append_singleton, hdiv,
      ih]
    congr 2
    apply UInt8.toNat_inj.1
    rw [UInt8.toNat_ofNat']
    exact hmod

theorem fromBigEndian_lt (bytes : List UInt8) : fromBigEndian bytes < 256 ^ bytes.length := by
  rw [← bigEndian_fromBigEndian bytes, fromBigEndian_bigEndian, length_bigEndian]
  exact Nat.mod_lt _ (Nat.pow_pos (by decide))

theorem fromBigEndian_cons (b : UInt8) (bytes : List UInt8) :
    fromBigEndian (b :: bytes) = b.toNat * 256 ^ bytes.length + fromBigEndian bytes := by
  induction bytes using List.reverseRecOn with
  | nil =>
    show 0 * 256 + b.toNat = b.toNat * 256 ^ 0 + 0
    ring
  | append_singleton bytes c ih =>
    rw [← List.cons_append, fromBigEndian_append_singleton, fromBigEndian_append_singleton, ih,
      List.length_append, List.length_singleton]
    ring

/-- Zero bytes in front make no difference. -/
theorem fromBigEndian_zeros_append (k : ℕ) (bytes : List UInt8) :
    fromBigEndian (List.replicate k 0 ++ bytes) = fromBigEndian bytes := by
  induction k with
  | zero => rfl
  | succ k ih =>
    rw [List.replicate_succ, List.cons_append, fromBigEndian_cons, ih, UInt8.toNat_zero, Nat.zero_mul,
      Nat.zero_add]

/-- Without a zero byte in front, no more bytes are used than the number needs. -/
theorem length_le_of_fromBigEndian_lt {bytes : List UInt8} {w : ℕ} (hhead : bytes.head? ≠ some 0)
    (h : fromBigEndian bytes < 256 ^ w) : bytes.length ≤ w := by
  cases bytes with
  | nil => exact Nat.zero_le w
  | cons b bytes =>
    have hb : b ≠ 0 := fun hzero => hhead (congrArg some hzero)
    have hpos : 0 < b.toNat := Nat.pos_of_ne_zero fun hzero => hb (UInt8.toNat_inj.1 hzero)
    have hle : 256 ^ bytes.length ≤ fromBigEndian (b :: bytes) := by
      rw [fromBigEndian_cons]
      exact (Nat.le_mul_of_pos_left _ hpos).trans (Nat.le_add_right _ _)
    exact (Nat.pow_lt_pow_iff_right (by decide)).1 (lt_of_le_of_lt hle h)

end Foundations
