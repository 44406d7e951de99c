import Shadows.Foundations.ByteOrder
import Mathlib.Data.List.Range

/-!
# Zero extension of byte strings

Bytes read from a string as if zero bytes followed it without end. Within the string these are its own
bytes, and zero bytes at its end make no difference.
-/

namespace Foundations

/-- The `len` bytes from `first` on, of a string that is followed by zero bytes. -/
def extended (bytes : List UInt8) (first len : ℕ) : List UInt8 :=
  (List.range len).map fun i => (bytes[first + i]?).getD 0

variable {bytes : List UInt8} {first len : ℕ}

@[simp] theorem length_extended : (extended bytes first len).length = len := by
  unfold extended
  rw [List.length_map, List.length_range]

theorem getElem?_extended {i : ℕ} (h : i < len) :
    (extended bytes first len)[i]? = some ((bytes[first + i]?).getD 0) := by
  unfold extended
  rw [List.getElem?_map, List.getElem?_range h]
  rfl

/-- Within the string, these are its own bytes. -/
theorem extended_eq (h : first + len ≤ bytes.length) :
    extended bytes first len = (bytes.drop first).take len := by
  apply List.ext_getElem?
  intro i
  rcases Nat.lt_or_ge i len with hlt | hge
  · have hwithin : first + i < bytes.length := by omega
    rw [getElem?_extended hlt, List.getElem?_take_of_lt hlt, List.getElem?_drop,
      List.getElem?_eq_getElem hwithin, Option.getD_some]
  · rw [List.getElem?_eq_none (by rw [length_extended]; exact hge),
      List.getElem?_take_eq_none hge]

/-- Zero bytes at the end make no difference. -/
theorem extended_append_zeros (k : ℕ) :
    extended (bytes ++ List.replicate k 0) first len = extended bytes first len := by
  unfold extended
  congr 1
  funext i
  rcases Nat.lt_or_ge (first + i) bytes.length with hlt | hge
  · rw [List.getElem?_append_left hlt]
  · rw [List.getElem?_append_right hge, List.getElem?_eq_none hge, List.getElem?_replicate]
    split <;> rfl

/-- Bytes behind what is read make no difference. -/
theorem extended_append (h : first + len ≤ bytes.length) (extra : List UInt8) :
    extended (bytes ++ extra) first len = extended bytes first len := by
  rw [extended_eq h, extended_eq (by rw [List.length_append]; omega), List.drop_append_of_le_length
    (by omega), List.take_append_of_le_length (by rw [List.length_drop]; omega)]

/-- A part of what is read. -/
theorem take_drop_extended {total : ℕ} (h : first + len ≤ total) :
    ((extended bytes 0 total).drop first).take len = extended bytes first len := by
  apply List.ext_getElem?
  intro i
  rcases Nat.lt_or_ge i len with hlt | hge
  · rw [List.getElem?_take_of_lt hlt, List.getElem?_drop, getElem?_extended (by omega),
      getElem?_extended hlt, Nat.zero_add]
  · rw [List.getElem?_take_eq_none hge, List.getElem?_eq_none (by rw [length_extended]; exact hge)]

/-- A buffer of zero bytes into which the string is written, as far as it fits. -/
theorem take_append_zeros (bytes : List UInt8) (total : ℕ) :
    bytes.take (min bytes.length total) ++ List.replicate (total - min bytes.length total) 0 =
      extended bytes 0 total := by
  have hlength : (bytes.take (min bytes.length total)).length = min bytes.length total := by
    rw [List.length_take]
    omega
  apply List.ext_getElem?
  intro i
  rcases Nat.lt_or_ge i total with hlt | hge
  · rw [getElem?_extended hlt, Nat.zero_add]
    rcases Nat.lt_or_ge i bytes.length with hwithin | hbehind
    · rw [List.getElem?_append_left (by omega), List.getElem?_take_of_lt (by omega),
        List.getElem?_eq_getElem hwithin, Option.getD_some]
    · rw [List.getElem?_append_right (by omega), List.getElem?_replicate, if_pos (by omega),
        List.getElem?_eq_none hbehind, Option.getD_none]
  · rw [List.getElem?_eq_none (by rw [List.length_append, hlength, List.length_replicate]; omega),
      List.getElem?_eq_none (by rw [length_extended]; exact hge)]

/-- The last byte that is read. -/
theorem extended_succ (bytes : List UInt8) (first len : ℕ) :
    extended bytes first (len + 1) = extended bytes first len ++ [(bytes[first + len]?).getD 0] := by
  unfold extended
  rw [List.range_succ, List.map_append]
  rfl

end Foundations
