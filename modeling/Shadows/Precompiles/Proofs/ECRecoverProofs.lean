import Shadows.Precompiles.Simple

/-!
# Proofs: recovery of the signer

The key is recovered for the last byte of the number `v` as the host reads it, and an input for which
there is none is refused.
-/

namespace Shadows.Precompiles.ECRecover

open Foundations Exec

variable {spIo : SpIo} {recoverKey : Bytes → Bytes → ℕ → Bytes → Option Bytes} {i : Bytes}

/-- The host is asked about the zero extension of the input. -/
theorem recoverPublicKey_eq (hspIo : spIo.Recovers recoverKey) (i : Bytes) :
    recoverPublicKey spIo i =
      orRefuse "Public key recover failed"
        (if recoveryId (vByte i) ≤ 3 then recoverKey (r i) (s i) (recoveryId (vByte i)) (message i)
          else none) := by
  have hmessage : (extended i 0 128).take 32 = message i :=
    take_drop_extended (show 0 + 32 ≤ 128 by decide)
  have hv : (extended i 0 128).getD 63 0 = vByte i := by
    rw [List.getD_eq_getElem?_getD, getElem?_extended (by decide), Option.getD_some, Nat.zero_add]
    rfl
  unfold recoverPublicKey
  dsimp only
  rw [take_append_zeros, hmessage, take_drop_extended (by decide), take_drop_extended (by decide), hv]
  exact congrArg _ (hspIo.recover (r i) (s i) (message i) (vByte i) length_extended length_extended
    length_extended)

/-- A small number is its last byte. -/
theorem vByte_of_vWord (h : vWord i < 256) : (vByte i).toNat = vWord i := by
  have hlast : vWord i = fromBigEndian (extended i 32 31) * 256 + (vByte i).toNat := by
    unfold vWord
    rw [extended_succ, fromBigEndian_append_singleton]
    rfl
  omega

/-- What is answered for every input. -/
theorem execute_eq (hspIo : spIo.Recovers recoverKey) (i : Bytes) (cost : UInt64) :
    execute spIo i cost =
      (orRefuse "Public key recover failed"
        (if recoveryId (vByte i) ≤ 3 then recoverKey (r i) (s i) (recoveryId (vByte i)) (message i)
          else none)) >>= fun key => pure (addressOutput spIo key) := by
  unfold execute
  rw [recoverPublicKey_eq hspIo]
  rfl

theorem recoveryId_vByte (h : vWord i = 27 ∨ vWord i = 28) : recoveryId (vByte i) = vWord i - 27 := by
  have hbyte : (vByte i).toNat = vWord i := vByte_of_vWord (by omega)
  unfold recoveryId
  rw [hbyte, if_pos (by omega)]

/-- A signature with a number `v` of 27 or 28 is answered with the address of the signer. Where the host
recovers no key, the input is refused. -/
theorem execute_address (hspIo : spIo.Recovers recoverKey) (i : Bytes) (cost : UInt64) :
    (∀ key, vWord i = 27 ∨ vWord i = 28 →
      recoverKey (r i) (s i) (vWord i - 27) (message i) = some key →
        execute spIo i cost = pure (addressOutput spIo key)) ∧
    (3 < recoveryId (vByte i) ∨ recoverKey (r i) (s i) (recoveryId (vByte i)) (message i) = none →
      execute spIo i cost = throw (.other "Public key recover failed")) := by
  constructor
  · intro key hv hkey
    rw [execute_eq hspIo, recoveryId_vByte hv, if_pos (by omega), hkey]
    rfl
  · intro hnone
    rw [execute_eq hspIo]
    rcases hnone with hid | hnone
    · rw [if_neg (Nat.not_le.2 hid)]
      rfl
    · rw [hnone, ite_self]
      rfl

theorem knownHost_recovers : knownHost.Recovers recoverKnown where
  recover r s msg v hr hs _ := by
    have hv : (r ++ s ++ [v]).getD 64 0 = v := by
      rw [List.getD_eq_getElem?_getD, List.getElem?_append_right (by rw [List.length_append]; omega),
        List.length_append, hr, hs]
      rfl
    have htake : (r ++ s ++ [v]).take 32 = r := by
      rw [List.append_assoc, List.take_append_of_le_length (by omega), List.take_of_length_le (by omega)]
    have hdrop : ((r ++ s ++ [v]).drop 32).take 32 = s := by
      rw [List.append_assoc, ← hr, List.drop_left, hr, List.take_append_of_le_length (by omega),
        List.take_of_length_le (by omega)]
    unfold knownHost
    dsimp only
    rw [hv, htake, hdrop]

/-- The address of the signer of the known message. -/
theorem execute_address_known :
    execute knownHost knownInput 0 =
      pure (.returned, bigEndian 32 0x7156526fbd7a3c72969b54f64e42c10fbb768c8a) := by
  have hhash : knownHost.keccak256 knownKey =
      0x77ac0c9589bd2f77da4cc6227156526fbd7a3c72969b54f64e42c10fbb768c8a := by
    unfold knownHost
    dsimp only
    rw [if_pos rfl]
  have haddress : List.replicate 12 0 ++
      (H256.asBytes 0x77ac0c9589bd2f77da4cc6227156526fbd7a3c72969b54f64e42c10fbb768c8a).drop 12 =
        bigEndian 32 0x7156526fbd7a3c72969b54f64e42c10fbb768c8a := by decide
  have hv : vWord knownInput = 28 := by decide
  have hkey : recoverKnown (r knownInput) (s knownInput) (vWord knownInput - 27)
      (message knownInput) = some knownKey := if_pos (by decide)
  rw [(execute_address knownHost_recovers knownInput 0).1 knownKey (.inr hv) hkey, addressOutput, hhash,
    haddress]

/-- The empty input has no signer, and is refused. -/
theorem empty_input_refused :
    ¬ ∀ (spIo : SpIo) (recoverKey : Bytes → Bytes → ℕ → Bytes → Option Bytes),
      spIo.Recovers recoverKey → ∀ (i : Bytes) (cost : UInt64),
        execute spIo i cost =
          match if vWord i = 27 ∨ vWord i = 28 then recoverKey (r i) (s i) (vWord i - 27) (message i)
            else none with
          | some key => pure (addressOutput spIo key)
          | none => pure (.returned, []) := by
  intro h
  have hempty := h knownHost recoverKnown knownHost_recovers [] 0
  have hv : ¬ (vWord [] = 27 ∨ vWord [] = 28) := by decide
  have hnone : recoverKnown (r []) (s []) (recoveryId (vByte [])) (message []) = none :=
    if_neg (by decide)
  rw [if_neg hv, execute_eq knownHost_recovers, hnone, ite_self, orRefuse, throw_bind] at hempty
  exact pure_ne_throw hempty.symm

end Shadows.Precompiles.ECRecover
