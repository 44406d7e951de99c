import Shadows.Precompiles.Blake2
import Mathlib.Algebra.Group.Fin.Basic
import Mathlib.Logic.Function.Basic

/-!
# Proofs: the compression function of BLAKE2b

The compression is that of the format, for any number of rounds, but no input reaches it: an input of the
right length panics when the state is copied out of it.
-/

namespace Shadows.Precompiles.Eip152

open Foundations Blake2b

/-! ## Constants -/

theorem SIGMA_eq (i : ℕ) (position : Fin 16) :
    (SIGMA.get (.ofNat 10 i)).get position = sigma i position := by
  have htable : ∀ (row : Fin 10) (position : Fin 16),
      (SIGMA.get row).get position = .ofNat 16 (schedule row / 16 ^ (15 - position.val)) := by decide
  exact htable (.ofNat 10 i) position

theorem IV_eq (i : Fin 8) : IV.get i = iv i := by
  -- the integer parts of the roots
  let integer : Fin 8 → ℕ := ![1, 1, 2, 2, 3, 3, 4, 4]
  have hle : ∀ i : Fin 8, (integer i * 2 ^ 64 + (IV.get i).toNat) *
      (integer i * 2 ^ 64 + (IV.get i).toNat) ≤ primes i * 2 ^ 128 := by decide
  have hlt : ∀ i : Fin 8, primes i * 2 ^ 128 < (integer i * 2 ^ 64 + (IV.get i).toNat + 1) *
      (integer i * 2 ^ 64 + (IV.get i).toNat + 1) := by decide
  exact (rootFraction_eq (hle i) (hlt i)).symm

/-! ## Mixing -/

section Mixing

variable {v : Vector Word 16} {lane : Fin 4 → Fin 16}

theorem get_setWord (v : Vector Word 16) (a b : Fin 16) (x : Word) :
    (setWord v a x).get b = if a = b then x else v.get b := by
  show (v.set a x)[b.val] = if a = b then x else v[b.val]
  rw [Vector.getElem_set]
  simp only [Fin.ext_iff]

/-- One half of the mixing. -/
def gHalf (v : Vector Word 16) (a b c d : Fin 16) (x : Word) (first second : ℕ) : Vector Word 16 :=
  let v := setWord v a (v.get a + v.get b + x)
  let v := setWord v d ((v.get d ^^^ v.get a).rotateRight first)
  let v := setWord v c (v.get c + v.get d)
  setWord v b ((v.get b ^^^ v.get c).rotateRight second)

theorem g_eq (a b c d : Fin 16) (x y : Word) :
    g v a b c d x y = gHalf (gHalf v a b c d x 32 24) a b c d y 16 63 := rfl

theorem get_gHalf (hlane : Function.Injective lane) (x : Word) {first second : ℕ}
    (hfirst : 0 < first ∧ first < 64) (hsecond : 0 < second ∧ second < 64) (row : Fin 4) :
    (gHalf v (lane 0) (lane 1) (lane 2) (lane 3) x first second).get (lane row) =
      mixHalf (fun row => v.get (lane row)) x first second row := by
  unfold gHalf mixHalf
  simp only [get_setWord, hlane.eq_iff, rotate_eq _ hfirst.1 hfirst.2, rotate_eq _ hsecond.1 hsecond.2]
  match row with
  | 0 => simp
  | 1 => simp
  | 2 => simp
  | 3 => simp

/-- The four words that are mixed. -/
theorem get_g (hlane : Function.Injective lane) (x y : Word) (row : Fin 4) :
    (g v (lane 0) (lane 1) (lane 2) (lane 3) x y).get (lane row) =
      mix (fun row => v.get (lane row)) x y row := by
  have hfirst : (fun row => (gHalf v (lane 0) (lane 1) (lane 2) (lane 3) x 32 24).get (lane row)) =
      mixHalf (fun row => v.get (lane row)) x 32 24 :=
    funext fun row => get_gHalf hlane x (by decide) (by decide) row
  rw [g_eq, get_gHalf hlane y (by decide) (by decide), hfirst]
  rfl

/-- Every other word is unchanged. -/
theorem get_g_of_ne {k : Fin 16} (hk : ∀ row, lane row ≠ k) (x y : Word) :
    (g v (lane 0) (lane 1) (lane 2) (lane 3) x y).get k = v.get k := by
  simp only [g, get_setWord, hk, if_false]

end Mixing

/-- Lanes of words, mixed one after the other. -/
def mixLanes (place : Fin 4 → Fin 4 → Fin 16) (x y : Fin 4 → Word) (lanes : List (Fin 4))
    (v : Vector Word 16) : Vector Word 16 :=
  lanes.foldl (fun v i => g v (place 0 i) (place 1 i) (place 2 i) (place 3 i) (x i) (y i)) v

/-- Lanes without a common word are mixed as if at once. -/
theorem get_mixLanes {place : Fin 4 → Fin 4 → Fin 16} (hplace : Function.Injective2 place)
    {x y : Fin 4 → Word} {lanes : List (Fin 4)} (hnodup : lanes.Nodup) (v : Vector Word 16)
    (row i : Fin 4) :
    (mixLanes place x y lanes v).get (place row i) =
      if i ∈ lanes then mix (fun row => v.get (place row i)) (x i) (y i) row
      else v.get (place row i) := by
  induction lanes generalizing v with
  | nil => rfl
  | cons first lanes ih =>
    rw [List.nodup_cons] at hnodup
    show (mixLanes place x y lanes (g v (place 0 first) (place 1 first) (place 2 first) (place 3 first)
      (x first) (y first))).get (place row i) = _
    rw [ih hnodup.2]
    rcases eq_or_ne i first with rfl | hne
    · rw [if_neg hnodup.1, if_pos List.mem_cons_self]
      exact get_g (hplace.left i) (x i) (y i) row
    · have hplaces : ∀ row other, (fun row => place row first) other ≠ place row i :=
        fun row other heq => hne (hplace heq).2.symm
      have hother : ∀ row,
          (g v (place 0 first) (place 1 first) (place 2 first) (place 3 first) (x first)
            (y first)).get (place row i) = v.get (place row i) :=
        fun row => get_g_of_ne (hplaces row) (x first) (y first)
      simp only [hother, List.mem_cons, hne, false_or]

/-! ## Rounds -/

/-- The place of a word of the work vector, in rows of four. -/
def place (row column : Fin 4) : Fin 16 := ⟨4 * row.val + column.val, by omega⟩

/-- The place of a word of a diagonal. -/
def diagonal (row column : Fin 4) : Fin 16 := place row (column + row)

def matrix (v : Vector Word 16) : Matrix := fun row column => v.get (place row column)

theorem matrix_apply (v : Vector Word 16) {row column : Fin 4} {k : Fin 16}
    (h : k.val = 4 * row.val + column.val) : matrix v row column = v.get k :=
  congrArg v.get (Fin.ext h.symm)

theorem place_injective : Function.Injective2 place := by
  intro row row' column column' h
  have hval : 4 * row.val + column.val = 4 * row'.val + column'.val := congrArg Fin.val h
  exact ⟨Fin.ext (by omega), Fin.ext (by omega)⟩

theorem diagonal_injective : Function.Injective2 diagonal := by
  intro row row' column column' h
  obtain ⟨rfl, hcolumn⟩ := place_injective h
  exact ⟨rfl, add_right_cancel hcolumn⟩

theorem diagonal_sub (row column : Fin 4) : diagonal row (column - row) = place row column := by
  unfold diagonal
  rw [sub_add_cancel]

/-- The body of the loop mixes the columns and then the diagonals. -/
theorem mixRound_eq (m : Vector Word 16) (v : Vector Word 16) (i : ℕ) :
    mixRound m v i =
      mixLanes diagonal (messageWords m.get i 8) (messageWords m.get i 9) (List.finRange 4)
        (mixLanes place (messageWords m.get i 0) (messageWords m.get i 1) (List.finRange 4) v) := by
  have hlanes : List.finRange 4 = [0, 1, 2, 3] := rfl
  simp only [mixRound, SIGMA_eq, mixLanes, hlanes, List.foldl_cons, List.foldl_nil, messageWords]
  rfl

theorem matrix_mixColumns (x y : Fin 4 → Word) (v : Vector Word 16) :
    matrix (mixLanes place x y (List.finRange 4) v) = mixColumns (matrix v) x y := by
  funext row column
  show (mixLanes place x y (List.finRange 4) v).get (place row column) = _
  rw [get_mixLanes place_injective (List.nodup_finRange 4), if_pos (List.mem_finRange column)]
  rfl

theorem matrix_mixDiagonals (x y : Fin 4 → Word) (v : Vector Word 16) :
    matrix (mixLanes diagonal x y (List.finRange 4) v) =
      unshear (mixColumns (shear (matrix v)) x y) := by
  funext row column
  show (mixLanes diagonal x y (List.finRange 4) v).get (place row column) = _
  rw [← diagonal_sub row column, get_mixLanes diagonal_injective (List.nodup_finRange 4),
    if_pos (List.mem_finRange _)]
  rfl

theorem matrix_mixRound (m : Vector Word 16) (v : Vector Word 16) (i : ℕ) :
    matrix (mixRound m v i) = round m.get i (matrix v) := by
  rw [mixRound_eq, matrix_mixDiagonals, matrix_mixColumns]
  rfl

theorem matrix_rounds (m : Vector Word 16) (v : Vector Word 16) (count : ℕ) :
    matrix ((List.range count).foldl (mixRound m) v) = rounds m.get (matrix v) count := by
  induction count with
  | zero => rfl
  | succ count ih =>
    rw [List.range_succ, List.foldl_append, List.foldl_cons, List.foldl_nil, matrix_mixRound, ih]
    rfl

/-! ## Compression -/

section Compression

variable (h : Vector Word 8) (t : Word × Word) (f : Bool)

/-- The state stands before the initialization vector. -/
theorem get_append_castAdd (k : Fin 8) : (h ++ IV).get (Fin.castAdd 8 k) = h.get k :=
  Vector.getElem_append_left k.isLt

theorem get_append_natAdd (k : Fin 8) : (h ++ IV).get (Fin.natAdd 8 k) = iv k := by
  rw [← IV_eq]
  have hlt : 8 + k.val < 8 + 8 := (Fin.natAdd 8 k).isLt
  show (h ++ IV)[8 + k.val] = IV[k.val]
  rw [Vector.getElem_append_right hlt (Nat.le_add_right 8 k.val)]
  simp only [Nat.add_sub_cancel_left]

theorem get_workVector {row : Fin 4} (hrow : row.val < 3) (column : Fin 4) :
    (workVector h t f).get (place row column) = (h ++ IV).get (place row column) := by
  have h12 : 12 ≠ place row column := Fin.ne_of_val_ne (show 12 ≠ 4 * row.val + column.val by omega)
  have h13 : 13 ≠ place row column := Fin.ne_of_val_ne (show 13 ≠ 4 * row.val + column.val by omega)
  have h14 : 14 ≠ place row column := Fin.ne_of_val_ne (show 14 ≠ 4 * row.val + column.val by omega)
  cases f <;> simp [workVector, get_setWord, h12, h13, h14]

/-- The last row is masked. -/
theorem get_workVector_last (column : Fin 4) :
    (workVector h t f).get (place 3 column) = (h ++ IV).get (place 3 column) ^^^ mask t f column := by
  match column with
  | 0 => cases f <;> simp [workVector, get_setWord, place, mask]
  | 1 => cases f <;> simp [workVector, get_setWord, place, mask]
  | 2 =>
    cases f
    · simp [workVector, get_setWord, place, mask]
    · rw [show mask t true 2 = .allOnes 64 from rfl, BitVec.xor_allOnes]
      simp [workVector, get_setWord, place]
  | 3 => cases f <;> simp [workVector, get_setWord, place, mask]

theorem matrix_workVector : matrix (workVector h t f) = start h.get t f := by
  funext row column
  show (workVector h t f).get (place row column) = _
  match row with
  | 0 =>
    have hplace : place 0 column = Fin.castAdd 8 (Fin.castAdd 4 column) :=
      Fin.ext (show 4 * 0 + column.val = column.val by omega)
    rw [get_workVector h t f (by decide), hplace, get_append_castAdd]
    rfl
  | 1 =>
    have hplace : place 1 column = Fin.castAdd 8 (Fin.natAdd 4 column) := rfl
    rw [get_workVector h t f (by decide), hplace, get_append_castAdd]
    rfl
  | 2 =>
    have hplace : place 2 column = Fin.natAdd 8 (Fin.castAdd 4 column) := rfl
    rw [get_workVector h t f (by decide), hplace, get_append_natAdd]
    rfl
  | 3 =>
    have hplace : place 3 column = Fin.natAdd 8 (Fin.natAdd 4 column) :=
      Fin.ext (show 4 * 3 + column.val = 8 + (4 + column.val) by omega)
    rw [get_workVector_last, hplace, get_append_natAdd]
    rfl

/-- The compression is the function of the format, for any number of rounds. -/
theorem compress_eq (m : Vector Word 16) (count : ℕ) (i : Fin 8) :
    (compress h m t f count).get i = Blake2b.compress h.get m.get t f count i := by
  have hget : (compress h m t f count).get i = h.get i ^^^
      (((List.range count).foldl (mixRound m) (workVector h t f)).get (Fin.castAdd 8 i) ^^^
        ((List.range count).foldl (mixRound m) (workVector h t f)).get (Fin.addNat i 8)) :=
    Vector.getElem_ofFn i.isLt
  rw [hget, Blake2b.compress, ← matrix_workVector, ← matrix_rounds]
  generalize (List.range count).foldl (mixRound m) (workVector h t f) = v
  refine congrArg (h.get i ^^^ ·) ?_
  refine Fin.addCases (m := 4) (n := 4) (fun i => ?_) (fun i => ?_) i
  · have hupper : matrix v 0 i = v.get (Fin.castAdd 8 (Fin.castAdd 4 i)) :=
      matrix_apply v (show i.val = 4 * 0 + i.val by omega)
    have hlower : matrix v 2 i = v.get (Fin.addNat (Fin.castAdd 4 i) 8) :=
      matrix_apply v (show i.val + 8 = 4 * 2 + i.val by omega)
    rw [Fin.addCases_left, hupper, hlower]
  · have hupper : matrix v 1 i = v.get (Fin.castAdd 8 (Fin.natAdd 4 i)) :=
      matrix_apply v (show 4 + i.val = 4 * 1 + i.val by omega)
    have hlower : matrix v 3 i = v.get (Fin.addNat (Fin.natAdd 4 i) 8) :=
      matrix_apply v (show 4 + i.val + 8 = 4 * 3 + i.val by omega)
    rw [Fin.addCases_right, hupper, hlower]

end Compression

end Shadows.Precompiles.Eip152

namespace Shadows.Precompiles.Blake2F

open Foundations Exec

variable {input : Bytes} {cost : UInt64}

/-- Bytes are copied only into a buffer of their own number. -/
theorem readBuf_of_ne {data : Bytes} {first last length : ℕ} (h : last - first ≠ length) :
    readBuf data first last length = panicked := by
  unfold readBuf slice
  split_ifs with hbounds
  · have hslice : ((data.drop first).take (last - first)).length ≠ length := by
      rw [List.length_take, List.length_drop]
      omega
    rw [Option.bind_some, copyFromSlice, if_neg hslice]
    rfl
  · rfl

theorem readBuf_eq {data : Bytes} {first last length : ℕ} (h : last - first = length)
    (hfirst : first ≤ last) (hlast : last ≤ data.length) :
    readBuf data first last length = pure ((data.drop first).take length) := by
  subst h
  unfold readBuf
  rw [slice_eq hfirst hlast, Option.bind_some, copyFromSlice, if_pos]
  · rfl
  · rw [List.length_take, List.length_drop]
    omega

/-- The first word is read from no bytes. -/
theorem readWords_panics (count : ℕ) (buf : Bytes) : readWords (count + 1) buf = panicked := by
  have hfirst : readBuf buf (0 + 8) ((0 + 1) * 8) 8 = panicked := readBuf_of_ne (by decide)
  unfold readWords
  rw [Vector.ofFnM_succ']
  show (readBuf buf (0 + 8) ((0 + 1) * 8) 8 >>= _) >>= _ = panicked
  rw [hfirst]
  rfl

/-- An input of any other length is refused, and one of the right length panics. -/
theorem execute_eq (input : Bytes) (cost : UInt64) :
    execute input cost =
      if input.length = 213 then panicked
      else throw (.other "input length for Blake2 F precompile should be exactly 213 bytes") := by
  unfold execute
  split_ifs with hlength
  · have hstate : readBuf input 4 48 64 = panicked := readBuf_of_ne (by decide)
    rw [refuseIf_neg (not_not.2 hlength), readBuf_eq rfl (by decide) (by omega), hstate]
    rfl
  · exact refuseIf_pos hlength _ _

/-- No input of the format is answered as the format says. -/
theorem execute_panics (input : Bytes) (cost : UInt64) (hlength : input.length = 213)
    (_hflag : input.getLast? = some 0 ∨ input.getLast? = some 1) :
    execute input cost = panicked ∧
      execute input cost ≠ pure (.returned, formatOutput input) := by
  have hpanics : execute input cost = panicked := by rw [execute_eq, if_pos hlength]
  exact ⟨hpanics, hpanics ▸ pure_ne_panicked.symm⟩

/-- Zero bytes in the length of the format. -/
def zeroInput : Bytes := List.replicate 213 0

theorem execute_panics_zeroInput :
    execute zeroInput 0 = panicked ∧
      execute zeroInput 0 ≠ pure (.returned, formatOutput zeroInput) :=
  execute_panics zeroInput 0 List.length_replicate (.inl rfl)

theorem zeroInput_not_answered :
    ¬ ∀ (input : Bytes) (cost : UInt64), input.length = 213 →
      input.getLast? = some 0 ∨ input.getLast? = some 1 →
      execute input cost = pure (.returned, formatOutput input) := by
  intro h
  have hlength : zeroInput.length = 213 := List.length_replicate
  have hpanics : execute zeroInput 0 = panicked := by rw [execute_eq, if_pos hlength]
  exact pure_ne_panicked ((h zeroInput 0 hlength (.inl rfl)).symm.trans hpanics)

end Shadows.Precompiles.Blake2F
