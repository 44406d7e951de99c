import Shadows.Precompiles.Modexp

/-!
# Proofs: modular exponentiation

An input with all of its operands is answered with the power modulo the modulus, in as many bytes as the
modulus has. The lengths and the operands are those of the zero extension of the input, but an input
without all of them is refused.
-/

namespace Shadows.Precompiles.Modexp

open Foundations Exec

variable {num : BigUintApi} {input : Bytes} {cost : UInt64}

/-! ## Reading -/

theorem slice_extended {first len : ℕ} (h : first + len ≤ input.length) :
    slice input first (first + len) = some (extended input first len) := by
  rw [slice_eq (Nat.le_add_right first len) h, extended_eq h, Nat.add_sub_cancel_left]

theorem readLength_bind (hnum : num.Correct) {first : ℕ} (h : first + 32 ≤ input.length)
    (message : String) {β : Type} (f : ℕ → Exec β) :
    readLength num input first message >>= f =
      if 1024 < fromBigEndian (extended input first 32) then throw (.other message)
      else f (fromBigEndian (extended input first 32)) := by
  unfold readLength
  rw [slice_extended h, Option.bind_some, copyFromSlice, if_pos length_extended]
  show (refuseIf (maxSize < num.fromBytesBe _) message >>= fun _ => pure (num.fromBytesBe _)) >>= f = _
  rw [hnum.fromBytesBe]
  unfold maxSize
  split_ifs with hlarge
  · rw [refuseIf_pos hlarge]
    rfl
  · rw [refuseIf_neg hlarge]
    rfl

/-- A length that is not above the limit is a `usize`. -/
theorem toUsize_bind {n : ℕ} (h : n ≤ 1024) {β : Type} (f : ℕ → Exec β) :
    orPanic (toUsize n) >>= f = f n := by
  unfold toUsize
  rw [if_pos (by omega)]
  rfl

/-- With all operands, the power modulo the modulus is computed, or zero for no modulus. -/
theorem power_eq (hnum : num.Correct) (htotal : totalLength input ≤ input.length) :
    power num input (baseLength input) (exponentLength input) (modulusLength input) =
      pure (result input) := by
  unfold totalLength at htotal
  have hbase : 96 + baseLength input ≤ input.length := by omega
  have hexponent : 96 + baseLength input + exponentLength input ≤ input.length := by omega
  unfold power
  split_ifs with hempty
  · have hzero : modulus input = 0 := by
      unfold modulus
      rw [hempty.2]
      rfl
    unfold result
    rw [if_pos hzero]
  · dsimp only
    rw [slice_extended hbase, slice_extended hexponent, slice_extended htotal]
    show (if num.fromBytesBe _ = 0 ∨ num.fromBytesBe _ = 1 then pure 0
      else orPanic (num.modpow _ _ _)) = _
    rw [hnum.fromBytesBe, hnum.fromBytesBe, hnum.fromBytesBe]
    show (if modulus input = 0 ∨ modulus input = 1 then pure 0
      else orPanic (num.modpow (base input) (exponent input) (modulus input))) = _
    unfold result
    split_ifs with hsmall hzero hzero
    · rfl
    · rw [hsmall.resolve_left hzero, Nat.mod_one]
    · exact absurd (.inl hzero) hsmall
    · rw [hnum.modpow _ _ _ hzero]
      rfl

/-! ## The whole precompile -/

theorem execute_short (h : input.length < 96) :
    execute num input cost = throw (.other "input must contain at least 96 bytes") :=
  refuseIf_pos h _ _

/-- What is computed from an input with all lengths. -/
theorem execute_eq (hnum : num.Correct) (h : 96 ≤ input.length) :
    execute num input cost =
      if 1024 < baseLength input then throw (.other "unreasonably large base length")
      else if 1024 < exponentLength input then throw (.other "unreasonably large exponent length")
      else if 1024 < modulusLength input then throw (.other "unreasonably large exponent length")
      else if input.length < totalLength input then throw (.other "insufficient input size")
      else writeOutput (num.toBytesBe (result input)) (modulusLength input) := by
  have h0 : 0 + 32 ≤ input.length := by omega
  have h32 : 32 + 32 ≤ input.length := by omega
  have h64 : 64 + 32 ≤ input.length := by omega
  have htotal : baseLength input + exponentLength input + modulusLength input + 96 =
      totalLength input := by
    unfold totalLength
    omega
  unfold execute
  rw [refuseIf_neg (Nat.not_lt.2 h), readLength_bind hnum h0]
  refine ite_congr rfl (fun _ => rfl) fun hbase => ?_
  rw [readLength_bind hnum h32]
  refine ite_congr rfl (fun _ => rfl) fun hexponent => ?_
  rw [readLength_bind hnum h64]
  refine ite_congr rfl (fun _ => rfl) fun hmodulus => ?_
  have hb : fromBigEndian (extended input 0 32) ≤ 1024 := Nat.not_lt.1 hbase
  have he : fromBigEndian (extended input 32 32) ≤ 1024 := Nat.not_lt.1 hexponent
  have hm : fromBigEndian (extended input 64 32) ≤ 1024 := Nat.not_lt.1 hmodulus
  rw [toUsize_bind hb, toUsize_bind he, toUsize_bind hm]
  show (refuseIf (input.length < baseLength input + exponentLength input + modulusLength input + 96) _ >>=
    _) = _
  rw [htotal]
  split_ifs with hinput
  · exact refuseIf_pos hinput _ _
  · rw [refuseIf_neg hinput]
    show power num input (baseLength input) (exponentLength input) (modulusLength input) >>= _ = _
    rw [power_eq hnum (Nat.not_lt.1 hinput)]
    rfl

/-! ## The output -/

/-- The power fits into the bytes of the modulus. -/
theorem result_lt : result input < 256 ^ modulusLength input := by
  have hmodulus : modulus input < 256 ^ modulusLength input := by
    have hlt := fromBigEndian_lt (extended input
      (96 + baseLength input + exponentLength input) (modulusLength input))
    rw [length_extended] at hlt
    exact hlt
  unfold result
  split_ifs with hzero
  · exact Nat.pow_pos (by decide)
  · exact (Nat.mod_lt _ (Nat.pos_of_ne_zero hzero)).trans hmodulus

/-- The bytes of the power are no more than those of a modulus that is not empty. -/
theorem length_toBytesBe_le (hnum : num.Correct) (hne : 1 ≤ modulusLength input) :
    (num.toBytesBe (result input)).length ≤ modulusLength input := by
  rcases Nat.eq_zero_or_pos (result input) with hzero | hpos
  · rw [hzero, hnum.toBytesBe_zero]
    exact hne
  · apply length_le_of_fromBigEndian_lt (hnum.toBytesBe_head _ (Nat.ne_of_gt hpos))
    rw [hnum.toBytesBe]
    exact result_lt

theorem writeOutput_eq {bytes : Bytes} {modLen : ℕ} (h : bytes.length ≤ modLen) :
    writeOutput bytes modLen =
      pure (.returned, List.replicate (modLen - bytes.length) 0 ++ bytes) := by
  unfold writeOutput
  split_ifs with heq hlt
  · rw [heq, Nat.sub_self]
    rfl
  · rfl
  · omega

/-- The output is the power, in as many bytes as the modulus has. -/
theorem writeOutput_result (hnum : num.Correct) (hne : 1 ≤ modulusLength input) :
    ∃ output, writeOutput (num.toBytesBe (result input)) (modulusLength input) =
        pure (.returned, output) ∧
      output.length = modulusLength input ∧ fromBigEndian output = result input := by
  have hle := length_toBytesBe_le hnum hne
  refine ⟨_, writeOutput_eq hle, ?_, ?_⟩
  · rw [List.length_append, List.length_replicate]
    omega
  · rw [fromBigEndian_zeros_append, hnum.toBytesBe]

theorem execute_complete (hnum : num.Correct) (hallowed : LengthsAllowed input)
    (htotal : totalLength input ≤ input.length) :
    execute num input cost =
      writeOutput (num.toBytesBe (result input)) (modulusLength input) := by
  obtain ⟨hbase, hexponent, hmodulus⟩ := hallowed
  have h96 : 96 ≤ input.length := by
    unfold totalLength at htotal
    omega
  rw [execute_eq hnum h96, if_neg (Nat.not_lt.2 hbase), if_neg (Nat.not_lt.2 hexponent),
    if_neg (Nat.not_lt.2 hmodulus), if_neg (Nat.not_lt.2 htotal)]

/-! ## Bytes behind the operands -/

/-- The inputs have the same lengths, and the same power. -/
structure SameOperands (input input' : Bytes) : Prop where
  baseLength : baseLength input' = baseLength input
  exponentLength : exponentLength input' = exponentLength input
  modulusLength : modulusLength input' = modulusLength input
  result : result input' = result input

theorem SameOperands.totalLength {input' : Bytes} (h : SameOperands input input') :
    totalLength input' = totalLength input := by
  unfold Modexp.totalLength
  rw [h.baseLength, h.exponentLength, h.modulusLength]

theorem sameOperands {input' : Bytes}
    (h : ∀ first len, first + len ≤ totalLength input →
      extended input' first len = extended input first len) : SameOperands input input' := by
  unfold totalLength at h
  have hbaseLen : baseLength input' = baseLength input :=
    congrArg fromBigEndian (h 0 32 (by omega))
  have hexponentLen : exponentLength input' = exponentLength input :=
    congrArg fromBigEndian (h 32 32 (by omega))
  have hmodulusLen : modulusLength input' = modulusLength input :=
    congrArg fromBigEndian (h 64 32 (by omega))
  have hbase : base input' = base input := by
    unfold base
    rw [hbaseLen, h _ _ (by omega)]
  have hexponent : exponent input' = exponent input := by
    unfold exponent
    rw [hbaseLen, hexponentLen, h _ _ (by omega)]
  have hmodulus : modulus input' = modulus input := by
    unfold modulus
    rw [hbaseLen, hexponentLen, hmodulusLen, h _ _ (by omega)]
  refine ⟨hbaseLen, hexponentLen, hmodulusLen, ?_⟩
  unfold result
  rw [hbase, hexponent, hmodulus]

theorem sameOperands_append (htotal : totalLength input ≤ input.length) (extra : Bytes) :
    SameOperands input (input ++ extra) :=
  sameOperands fun _ _ hle => extended_append (hle.trans htotal) extra

theorem sameOperands_zeros (k : ℕ) : SameOperands input (input ++ List.replicate k 0) :=
  sameOperands fun _ _ _ => extended_append_zeros k

/-! ## The format -/

/-- **Modular exponentiation.** An input with all operands, and with a modulus that is not empty, is
answered with the power modulo the modulus, whatever follows the operands. -/
theorem execute_correct (hnum : num.Correct) (hallowed : LengthsAllowed input)
    (htotal : totalLength input ≤ input.length) (hne : 1 ≤ modulusLength input) :
    (∃ output, execute num input cost = pure (.returned, output) ∧
        output.length = modulusLength input ∧ fromBigEndian output = result input) ∧
      ∀ extra, execute num (input ++ extra) cost = execute num input cost := by
  constructor
  · rw [execute_complete hnum hallowed htotal]
    exact writeOutput_result hnum hne
  · intro extra
    have hsame := sameOperands_append htotal extra
    have hallowed' : LengthsAllowed (input ++ extra) := by
      unfold LengthsAllowed
      rw [hsame.baseLength, hsame.exponentLength, hsame.modulusLength]
      exact hallowed
    have htotal' : totalLength (input ++ extra) ≤ (input ++ extra).length := by
      rw [hsame.totalLength, List.length_append]
      exact htotal.trans (Nat.le_add_right _ _)
    rw [execute_complete hnum hallowed htotal, execute_complete hnum hallowed' htotal',
      hsame.result, hsame.modulusLength]

/-- What is too short, with its zero extension, is refused. -/
theorem execute_insufficient (hnum : num.Correct) (hallowed : LengthsAllowed input)
    (hshort : input.length < totalLength input) :
    execute num input cost = throw (.other
      (if input.length < 96 then "input must contain at least 96 bytes"
      else "insufficient input size")) := by
  obtain ⟨hbase, hexponent, hmodulus⟩ := hallowed
  split_ifs with h96
  · exact execute_short h96
  · rw [execute_eq hnum (Nat.not_lt.1 h96), if_neg (Nat.not_lt.2 hbase),
      if_neg (Nat.not_lt.2 hexponent), if_neg (Nat.not_lt.2 hmodulus), if_pos hshort]

/-- Zero bytes at the end of an input that is not too short make no difference. -/
theorem execute_append_zeros (hnum : num.Correct) (h96 : 96 ≤ input.length)
    (htotal : LengthsAllowed input → totalLength input ≤ input.length) (k : ℕ) :
    execute num (input ++ List.replicate k 0) cost = execute num input cost := by
  have hsame : SameOperands input (input ++ List.replicate k 0) := sameOperands_zeros k
  have hlength : (input ++ List.replicate k 0).length = input.length + k := by
    rw [List.length_append, List.length_replicate]
  rw [execute_eq hnum h96, execute_eq hnum (by omega), hsame.baseLength, hsame.exponentLength,
    hsame.modulusLength, hsame.totalLength, hsame.result]
  split_ifs with hbase hexponent hmodulus hshort hshort' hshort'
  · rfl
  · rfl
  · rfl
  · rfl
  · omega
  · have hle := htotal ⟨Nat.not_lt.1 hbase, Nat.not_lt.1 hexponent, Nat.not_lt.1 hmodulus⟩
    omega
  · rfl

/-- **The domain of the precompile.** Inputs without all of their operands are refused, and the others are
answered unless the modulus is empty. Zero bytes at the end make a difference only where operands are
missing. -/
theorem execute_domain (hnum : num.Correct) (input : Bytes) (cost : UInt64) :
    (LengthsAllowed input → input.length < totalLength input →
      execute num input cost = throw (.other
        (if input.length < 96 then "input must contain at least 96 bytes"
        else "insufficient input size"))) ∧
    (LengthsAllowed input → totalLength input ≤ input.length → 1 ≤ modulusLength input →
      ∃ output, execute num input cost = pure (.returned, output) ∧
        output.length = modulusLength input) ∧
    (96 ≤ input.length → (LengthsAllowed input → totalLength input ≤ input.length) →
      ∀ k, execute num (input ++ List.replicate k 0) cost = execute num input cost) := by
  refine ⟨execute_insufficient hnum, fun hallowed htotal hne => ?_, execute_append_zeros hnum⟩
  obtain ⟨output, hwrite, hlength, -⟩ := writeOutput_result hnum hne
  exact ⟨output, (execute_complete hnum hallowed htotal).trans hwrite, hlength⟩

/-! ## Big integers as natural numbers -/

theorem head?_bigEndian {w n : ℕ} (hle : 256 ^ w ≤ n) (hlt : n < 256 ^ (w + 1)) :
    (bigEndian (w + 1) n).head? ≠ some 0 := by
  have hpos : 0 < n / 256 ^ w := Nat.div_pos hle (Nat.pow_pos (by decide))
  have hbyte : n / 256 ^ w < 256 := by
    rw [Nat.div_lt_iff_lt_mul (Nat.pow_pos (by decide)), ← pow_succ']
    exact hlt
  rw [bigEndian_succ, List.head?_cons]
  intro hzero
  have hval : (UInt8.ofNat (n / 256 ^ w)).toNat = 0 := by
    rw [Option.some.inj hzero]
    rfl
  rw [UInt8.toNat_ofNat', Nat.mod_eq_of_lt hbyte] at hval
  omega

/-- The bytes that a number needs. -/
theorem byteLength_spec {n : ℕ} (h : n ≠ 0) :
    256 ^ (Nat.log2 n / 8) ≤ n ∧ n < 256 ^ (Nat.log2 n / 8 + 1) := by
  have hlog : 2 ^ Nat.log2 n ≤ n := Nat.log2_self_le h
  have hlog' : n < 2 ^ (Nat.log2 n + 1) := Nat.lt_log2_self
  have hpow : ∀ w, 256 ^ w = 2 ^ (8 * w) := fun w => (pow_mul 2 8 w).symm
  rw [hpow, hpow]
  exact ⟨(Nat.pow_le_pow_right (by decide) (by omega)).trans hlog,
    hlog'.trans_le (Nat.pow_le_pow_right (by decide) (by omega))⟩

theorem natural_correct : natural.Correct where
  fromBytesBe _ := rfl
  toBytesBe n := by
    show fromBigEndian (minimalBytes n) = n
    unfold minimalBytes
    split_ifs with hzero
    · rw [hzero]
      rfl
    · rw [fromBigEndian_bigEndian, Nat.mod_eq_of_lt (byteLength_spec hzero).2]
  toBytesBe_zero := rfl
  toBytesBe_head n hne := by
    show (minimalBytes n).head? ≠ some 0
    unfold minimalBytes
    rw [if_neg hne]
    exact head?_bigEndian (byteLength_spec hne).1 (byteLength_spec hne).2
  modpow base exponent modulus hne := if_neg hne

theorem execute_correct_small :
    (∃ output, execute natural smallPower 0 = pure (.returned, output) ∧
        output.length = modulusLength smallPower ∧ fromBigEndian output = result smallPower) ∧
      ∀ extra, execute natural (smallPower ++ extra) 0 = execute natural smallPower 0 :=
  execute_correct natural_correct (by decide +kernel) (by decide +kernel) (by decide +kernel)

example : execute natural smallPower 0 = pure (.returned, [5]) := by rfl

theorem execute_domain_small :
    (LengthsAllowed smallPower → smallPower.length < totalLength smallPower →
      execute natural smallPower 0 = throw (.other
        (if smallPower.length < 96 then "input must contain at least 96 bytes"
        else "insufficient input size"))) ∧
    (LengthsAllowed smallPower → totalLength smallPower ≤ smallPower.length →
      1 ≤ modulusLength smallPower →
      ∃ output, execute natural smallPower 0 = pure (.returned, output) ∧
        output.length = modulusLength smallPower) ∧
    (96 ≤ smallPower.length →
      (LengthsAllowed smallPower → totalLength smallPower ≤ smallPower.length) →
      ∀ k, execute natural (smallPower ++ List.replicate k 0) 0 = execute natural smallPower 0) :=
  execute_domain natural_correct smallPower 0

/-- Lengths without operands are refused, though their zero extension has operands. -/
theorem oneByteLengths_refused :
    natural.Correct ∧ LengthsAllowed oneByteLengths ∧
      execute natural oneByteLengths 0 = throw (.other "insufficient input size") ∧
      execute natural (oneByteLengths ++ List.replicate 3 0) 0 = pure (.returned, [0]) :=
  ⟨natural_correct, by decide +kernel, by rfl, by rfl⟩

end Shadows.Precompiles.Modexp
