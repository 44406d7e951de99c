import Shadows.Foundations.ByteOrder
import Mathlib.Data.Fin.Basic
import Mathlib.Order.Fin.Basic

/-!
# Machine types of the node

The fixed-width integers and hashes of `ethereum_types`, with the conversions the pallets use.
`Raw` is a value read back from bytes: the encoding of a value, or bytes that do not decode.
-/

namespace Shadows

open Foundations

/-- `Vec<u8>`. -/
abbrev Bytes := List UInt8

abbrev U256 := Fin (2 ^ 256)

/-- The width of a `U256` is positive, which its literals need. -/
instance U256.neZero : NeZero (2 ^ 256) := ⟨Nat.ne_of_gt (Nat.two_pow_pos 256)⟩

/-- `ethereum_types::H256`, the first byte being the most significant. -/
abbrev H256 := BitVec 256

/-- `ethereum_types::H160`, the first byte being the most significant. -/
abbrev H160 := BitVec 160

abbrev Bloom := BitVec 2048

/-- The byte order of `H160`, by which a `BTreeSet` of addresses is sorted. -/
instance BitVec.linearOrder (n : ℕ) : LinearOrder (BitVec n) :=
  LinearOrder.lift' BitVec.toNat fun _ _ h => BitVec.eq_of_toNat_eq h

namespace U256

def checkedAdd (a b : U256) : Option U256 :=
  if h : a.val + b.val < 2 ^ 256 then some ⟨a.val + b.val, h⟩ else none

def checkedMul (a b : U256) : Option U256 :=
  if h : a.val * b.val < 2 ^ 256 then some ⟨a.val * b.val, h⟩ else none

def checkedSub (a b : U256) : Option U256 :=
  if b.val ≤ a.val then some ⟨a.val - b.val, by have := a.isLt; omega⟩ else none

/-- Division, which panics by zero. -/
def checkedDiv (a b : U256) : Option U256 := if b = 0 then none else some (a / b)

def saturatingAdd (a b : U256) : U256 := ⟨min (a.val + b.val) (2 ^ 256 - 1), by omega⟩

def saturatingSub (a b : U256) : U256 := ⟨a.val - b.val, by omega⟩

def saturatingMul (a b : U256) : U256 := ⟨min (a.val * b.val) (2 ^ 256 - 1), by omega⟩

def lowU64 (a : U256) : UInt64 := UInt64.ofNat a.val

def lowU128 (a : U256) : ℕ := a.val % 2 ^ 128

/-- `unique_saturated_into::<u64>`. -/
def saturatedU64 (a : U256) : UInt64 := UInt64.ofNat (min a.val (2 ^ 64 - 1))

/-- `U256::from(u64)`. -/
def ofU64 (n : UInt64) : U256 := ⟨n.toNat, by have := n.toNat_lt; omega⟩

/-- `U256::from(u32)`, also by way of `u128`. -/
def ofU32 (n : UInt32) : U256 := ⟨n.toNat, by have := n.toNat_lt; omega⟩

theorem checkedAdd_eq_some {a b c : U256} : checkedAdd a b = some c ↔ c.val = a.val + b.val := by
  unfold checkedAdd
  split_ifs with h
  · rw [Option.some.injEq, Fin.ext_iff]; exact eq_comm
  · simp only [false_iff]
    have := c.isLt
    omega

theorem checkedMul_eq_some {a b c : U256} : checkedMul a b = some c ↔ c.val = a.val * b.val := by
  unfold checkedMul
  split_ifs with h
  · rw [Option.some.injEq, Fin.ext_iff]; exact eq_comm
  · simp only [false_iff]
    have := c.isLt
    omega

/-- Division does not panic by a number that is not zero. -/
theorem checkedDiv_of_pos {a b : U256} (h : 0 < b.val) :
    ∃ c, a.checkedDiv b = some c ∧ c.val = a.val / b.val := by
  have hne : b ≠ 0 := by
    rintro rfl
    exact lt_irrefl _ h
  exact ⟨a / b, if_neg hne, Fin.div_val a b⟩

theorem ofU64_lowU64_le (a : U256) : (ofU64 a.lowU64).val ≤ a.val := by
  show (UInt64.ofNat a.val).toNat ≤ a.val
  rw [UInt64.toNat_ofNat']
  exact Nat.mod_le _ _

theorem ofU32_injective {m n : UInt32} (h : ofU32 m = ofU32 n) : m = n := by
  have hv : (ofU32 m).val = (ofU32 n).val := by rw [h]
  exact UInt32.toNat_inj.1 hv

end U256

/-! ## Bytes -/

/-- `as_bytes`, which is also the encoding. -/
def H160.asBytes (a : H160) : Bytes := bigEndian 20 a.toNat

/-- `as_bytes`, which is also the encoding. -/
def H256.asBytes (h : H256) : Bytes := bigEndian 32 h.toNat

/-- `H256::from_slice` of 32 bytes. -/
def H256.fromSlice (bytes : Bytes) : H256 := BitVec.ofNat 256 (fromBigEndian bytes)

/-- `to_big_endian`, into 32 bytes. -/
def U256.toBigEndian (n : U256) : Bytes := bigEndian 32 n.val

/-- `to_little_endian`, into 32 bytes. -/
def U256.toLittleEndian (n : U256) : Bytes := littleEndian 32 n.val

/-- `&data[first..last]`, which panics out of range. -/
def slice (data : Bytes) (first last : ℕ) : Option Bytes :=
  if first ≤ last ∧ last ≤ data.length then some ((data.drop first).take (last - first)) else none

/-- Bytes as their reader sees them: the encoding of a value, or an undecodable string. -/
inductive Raw (α : Type) where
  | encoded (a : α)
  | malformed (error : String)
  deriving DecidableEq

/-- `Decode::decode`, the error rendered as the callers do. -/
def Raw.decode {α : Type} : Raw α → Except String α
  | .encoded a => .ok a
  | .malformed e => .error e

@[simp] theorem Raw.decode_encoded {α : Type} (a : α) : (Raw.encoded a).decode = .ok a := rfl

end Shadows
