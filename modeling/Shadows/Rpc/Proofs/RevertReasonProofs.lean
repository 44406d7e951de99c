import Shadows.Rpc.ExecutionFailure

/-!
# Proofs: the reason of a revert

The length of the reason is taken as the sum of its bytes. This is the length up to 255 bytes; beyond
that the sum is too small, where it does not overflow.
-/

namespace Shadows.Rpc

open Foundations

/-! ## Sums of bytes -/

section Sum

variable (overflowChecks : Bool)

/-- A sum that starts with `s`: without the checks it is the exact one modulo 256. -/
theorem foldlM_sumU8 (bytes : Bytes) : ∀ s : UInt8,
    bytes.foldlM (fun sum b =>
      if overflowChecks ∧ 256 ≤ sum.toNat + b.toNat then none else some (sum + b)) s =
    if overflowChecks ∧ 256 ≤ s.toNat + (bytes.map UInt8.toNat).sum then none
    else some (UInt8.ofNat (s.toNat + (bytes.map UInt8.toNat).sum)) := by
  induction bytes with
  | nil =>
    intro s
    have hlt := s.toNat_lt
    rw [List.map_nil, List.sum_nil, Nat.add_zero, if_neg (by omega), UInt8.ofNat_toNat]
    rfl
  | cons b bytes ih =>
    intro s
    rw [List.foldlM_cons, List.map_cons, List.sum_cons, ← Nat.add_assoc]
    by_cases hover : overflowChecks ∧ 256 ≤ s.toNat + b.toNat
    · rw [if_pos hover, if_pos ⟨hover.1, by omega⟩]
      rfl
    · rw [if_neg hover]
      show List.foldlM _ (s + b) bytes = _
      rw [ih, UInt8.toNat_add]
      cases overflowChecks with
      | false =>
        simp only [Bool.false_eq_true, false_and, if_false, Option.some.injEq]
        apply UInt8.toNat_inj.1
        rw [UInt8.toNat_ofNat', UInt8.toNat_ofNat']
        omega
      | true =>
        -- so far there is no overflow, and the sum is exact
        have hsmall : s.toNat + b.toNat < 256 := by simpa using hover
        rw [Nat.mod_eq_of_lt hsmall]

theorem sumU8_eq (bytes : Bytes) :
    sumU8 overflowChecks bytes =
      if overflowChecks ∧ 256 ≤ (bytes.map UInt8.toNat).sum then none
      else some (UInt8.ofNat (bytes.map UInt8.toNat).sum) := by
  unfold sumU8
  rw [foldlM_sumU8]
  simp

/-- The bytes of a number below 256 add up to it. -/
theorem sum_bigEndian (w : ℕ) {n : ℕ} (h : n < 256) :
    ((bigEndian (w + 1) n).map UInt8.toNat).sum = n := by
  have hzeros : ∀ w, ((bigEndian w 0).map UInt8.toNat).sum = 0 := by
    intro w
    induction w with
    | zero => rfl
    | succ w ih =>
      rw [bigEndian, Nat.zero_div, List.map_append, List.sum_append, ih]
      rfl
  rw [bigEndian, Nat.div_eq_of_lt h, List.map_append, List.sum_append, hzeros, List.map_singleton,
    List.sum_singleton, UInt8.toNat_ofNat', Nat.zero_add]
  exact Nat.mod_eq_of_lt h

end Sum

/-! ## Reading the reason -/

section Read

variable (overflowChecks : Bool) {data : Bytes}

theorem slice_length (h : 68 < data.length) : slice data 36 68 = some ((data.drop 36).take 32) :=
  if_pos ⟨by decide, by omega⟩

theorem revertMessage_short (h : data.length ≤ 68) :
    revertMessage overflowChecks data = some revertPrefix := if_neg (by omega)

/-- The reason is read in full, or there is no message. -/
theorem revertMessage_long (h : 68 < data.length) :
    revertMessage overflowChecks data =
      if overflowChecks ∧ 256 ≤ lengthSum data ∨ data.length < 68 + lengthSum data % 256 then none
      else some (withReason ((data.drop 68).take (lengthSum data % 256))) := by
  unfold revertMessage
  rw [if_pos h, slice_length h, Option.bind_some, sumU8_eq]
  unfold lengthSum
  split_ifs with hover hany hnot
  · rfl
  · exact absurd (Or.inl hover) hany
  · have hlt := hnot.resolve_left hover
    rw [Option.bind_some, UInt8.toNat_ofNat']
    unfold slice
    rw [if_neg (by omega)]
    rfl
  · rw [Option.bind_some, UInt8.toNat_ofNat']
    unfold slice
    rw [if_pos (by omega), Option.map_some, Nat.add_sub_cancel_left]

/-- The message of a revert exists in every build exactly if its data can be read. -/
theorem revertMessage_isSome_iff :
    (∀ overflowChecks, (revertMessage overflowChecks data).isSome) ↔ Readable data := by
  by_cases hshort : data.length ≤ 68
  · refine iff_of_true (fun overflowChecks => ?_) (.inl hshort)
    rw [revertMessage_short overflowChecks hshort]
    rfl
  · have hlong : 68 < data.length := by omega
    unfold Readable
    simp only [revertMessage_long _ hlong]
    constructor
    · intro h
      have hchecked := h true
      split_ifs at hchecked with hpanics
      · cases hchecked
      · simp only [true_and] at hpanics
        omega
    · intro h overflowChecks
      rw [if_neg (by omega)]
      rfl

theorem errorOnExecutionFailure_revert (debug : ExitReason → String) :
    (∃ err, errorOnExecutionFailure overflowChecks debug .revert data = some (.error err)) ↔
      (revertMessage overflowChecks data).isSome := by
  unfold errorOnExecutionFailure
  cases revertMessage overflowChecks data with
  | none => simp
  | some message => simp

theorem revert_reported_iff (debug : ExitReason → String) {message : String} :
    errorOnExecutionFailure overflowChecks debug .revert data =
        some (.error ⟨message, some (toHex data)⟩) ↔
      revertMessage overflowChecks data = some message := by
  unfold errorOnExecutionFailure
  cases revertMessage overflowChecks data with
  | none => simp
  | some message => simp

/-- **Revert data.** The data of a revert leads to an error, without a panic in any build, exactly if
the bytes that stand for the length add up to at most 255 and to no more than there are bytes. -/
theorem revert_safe_iff (debug : ExitReason → String) (data : Bytes) :
    (∀ overflowChecks,
      ∃ err, errorOnExecutionFailure overflowChecks debug .revert data = some (.error err)) ↔
        Readable data := by
  simp only [errorOnExecutionFailure_revert]
  exact revertMessage_isSome_iff

end Read

/-- The contract asks for 32 bytes, and there is only one. -/
theorem shortData_panics :
    ¬ ∀ overflowChecks, ∃ err, errorOnExecutionFailure overflowChecks (fun _ => "") .revert
      shortData = some (.error err) := by
  intro h
  obtain ⟨err, herr⟩ := h false
  have hpanic : errorOnExecutionFailure false (fun _ => "") .revert shortData = none := by decide
  rw [hpanic] at herr
  cases herr

/-! ## Calls that revert -/

section Calls

variable (debug : ExitReason → String)

theorem exists_map_error_iff {α β ε : Type} (f : α → β) (x : Option (Except ε α)) :
    (∃ err, x.map (fun result => result.map f) = some (.error err)) ↔ ∃ err, x = some (.error err) := by
  cases x with
  | none => simp
  | some result => cases result <;> simp [Except.map]

theorem checkExecution_revert_iff {R : Type} (data : R → Bytes) {info : ExecutionInfo R}
    (hrevert : info.exitReason = .revert) :
    (∀ overflowChecks, ∃ err,
      checkExecution overflowChecks debug data (.ok (.ok info)) = some (.error err)) ↔
        Readable (data info.value) := by
  rw [← revertMessage_isSome_iff]
  refine forall_congr' fun overflowChecks => ?_
  rw [← errorOnExecutionFailure_revert overflowChecks debug, ← hrevert]
  exact exists_map_error_iff _ _

/-- A call of a contract that reverts is answered with an error exactly if the data can be read. -/
theorem call_revert_iff (api : ExecutionApi) (request : CallRequest) {target : H160}
    {info : ExecutionInfo Bytes} (hto : request.to = some target)
    (hcall : api.call target (request.input false) = .ok (.ok info))
    (hrevert : info.exitReason = .revert) :
    (∀ overflowChecks, ∃ err, call overflowChecks debug api request = some (.error err)) ↔
      Readable info.value := by
  refine Iff.trans ?_ (checkExecution_revert_iff debug id hrevert)
  refine forall_congr' fun overflowChecks => ?_
  unfold call
  rw [hto]
  dsimp only
  rw [hcall]
  exact exists_map_error_iff _ _

end Calls

/-! ## Encoded reasons -/

theorem length_utf8 (s : String) : (utf8 s).length = s.utf8ByteSize := rfl

theorem fromUtf8_utf8 (s : String) : fromUtf8 (utf8 s) = some s := by
  have hbytes : (utf8 s).toByteArray = s.toByteArray := by
    apply ByteArray.ext
    rw [List.data_toByteArray]
    exact Array.toArray_toList
  unfold fromUtf8 String.fromUTF8?
  rw [dif_pos (hbytes.symm ▸ s.isValidUTF8)]
  refine congrArg some (String.toByteArray_inj.1 ?_)
  exact hbytes

theorem utf8ByteSize_of_fromUtf8 {bytes : Bytes} {s : String} (h : fromUtf8 bytes = some s) :
    s.utf8ByteSize = bytes.length := by
  unfold fromUtf8 String.fromUTF8? at h
  split_ifs at h with hvalid
  cases h
  show bytes.toByteArray.size = bytes.length
  exact List.size_toByteArray

section Encoded

variable (overflowChecks : Bool) {s : String}

theorem length_encodeError (s : String) :
    (encodeError s).length = 68 + s.utf8ByteSize + paddingLength s.utf8ByteSize := by
  unfold encodeError
  simp only [List.length_append, length_bigEndian, List.length_replicate, length_utf8,
    List.length_cons, List.length_nil]

theorem drop_encodeError (s : String) :
    (encodeError s).drop 68 = utf8 s ++ List.replicate (paddingLength s.utf8ByteSize) 0 := by
  unfold encodeError
  rw [List.append_assoc _ (utf8 s)]
  exact List.drop_left' (by simp)

theorem lengthSum_encodeError (s : String) :
    lengthSum (encodeError s) = ((bigEndian 32 s.utf8ByteSize).map UInt8.toNat).sum := by
  unfold lengthSum encodeError
  rw [List.append_assoc _ (utf8 s), List.append_assoc _ (bigEndian 32 s.utf8ByteSize),
    List.drop_left' (by simp), List.take_left' (by simp)]

/-- A reason of less than 256 bytes is reported in full. -/
theorem revertMessage_encodeError (h : s.utf8ByteSize < 256) :
    revertMessage overflowChecks (encodeError s) = some (reportedReason s) := by
  have hsum : lengthSum (encodeError s) = s.utf8ByteSize := by
    rw [lengthSum_encodeError]
    exact sum_bigEndian 31 h
  have hlength := length_encodeError s
  unfold reportedReason
  by_cases hs : s = ""
  · subst hs
    have hzero : ("" : String).utf8ByteSize = 0 := rfl
    have hpadding : paddingLength 0 = 0 := rfl
    rw [hzero, hpadding] at hlength
    rw [if_pos rfl, revertMessage_short overflowChecks (by omega)]
  · have hpos : 0 < s.utf8ByteSize :=
      Nat.pos_of_ne_zero (mt String.utf8ByteSize_eq_zero_iff.1 hs)
    have hreason : ((encodeError s).drop 68).take s.utf8ByteSize = utf8 s := by
      rw [drop_encodeError]
      exact List.take_left' (length_utf8 s)
    rw [if_neg hs, revertMessage_long overflowChecks (by omega), hsum, Nat.mod_eq_of_lt h,
      if_neg (by omega), hreason, withReason, fromUtf8_utf8]

/-- What is read of a longer reason is shorter than it. -/
theorem revertMessage_ne_of_le (h : 256 ≤ s.utf8ByteSize) :
    revertMessage overflowChecks (encodeError s) ≠ some (reportedReason s) := by
  have hne : s ≠ "" := by
    rintro rfl
    exact absurd h (by decide)
  have hlong : 68 < (encodeError s).length := by
    rw [length_encodeError]
    omega
  have hreported : (reportedReason s).utf8ByteSize =
      revertPrefix.utf8ByteSize + " ".utf8ByteSize + s.utf8ByteSize := by
    unfold reportedReason
    rw [if_neg hne, String.utf8ByteSize_append, String.utf8ByteSize_append]
  rw [revertMessage_long overflowChecks hlong]
  split_ifs with hpanics
  · exact nofun
  · intro heq
    have hsize := congrArg (Option.map String.utf8ByteSize) heq
    rw [Option.map_some, Option.map_some, Option.some.injEq, hreported, withReason] at hsize
    split at hsize
    · next reason hreason =>
      have hshort := utf8ByteSize_of_fromUtf8 hreason
      rw [List.length_take] at hshort
      rw [String.utf8ByteSize_append, String.utf8ByteSize_append] at hsize
      omega
    · omega

/-- **Reasons.** The reason of a revert is reported in full exactly if it has less than 256 bytes. -/
theorem revertReason_iff (debug : ExitReason → String) (s : String) :
    errorOnExecutionFailure overflowChecks debug .revert (encodeError s) =
        some (.error ⟨reportedReason s, some (toHex (encodeError s))⟩) ↔
      s.utf8ByteSize < 256 := by
  rw [revert_reported_iff]
  constructor
  · intro h
    by_contra hlong
    exact revertMessage_ne_of_le overflowChecks (not_lt.1 hlong) h
  · exact revertMessage_encodeError overflowChecks

end Encoded

theorem utf8ByteSize_replicate (n : ℕ) : (String.ofList (List.replicate n 'a')).utf8ByteSize = n := by
  induction n with
  | zero => rfl
  | succ n ih =>
    rw [List.replicate_succ', String.ofList_append, String.utf8ByteSize_append, ih]
    rfl

/-- A reason of 256 bytes is not reported in full. -/
theorem longReason_truncated :
    errorOnExecutionFailure false (fun _ => "") .revert (encodeError longReason) ≠
      some (.error ⟨reportedReason longReason, some (toHex (encodeError longReason))⟩) := by
  have hsize : longReason.utf8ByteSize = 256 := utf8ByteSize_replicate 256
  rw [Ne, revert_reported_iff]
  exact revertMessage_ne_of_le false hsize.ge

end Shadows.Rpc
