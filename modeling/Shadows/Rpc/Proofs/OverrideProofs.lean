import Shadows.Rpc.Overrides

/-!
# Proofs: the override reads another slot

The override asks for the slot whose bytes are those of the index in little-endian order, the runtime
for the one in big-endian order. The two agree on every state only if the bytes of the index read the
same in both directions.
-/

namespace Shadows

open Foundations

theorem H160.length_asBytes (a : H160) : a.asBytes.length = 20 := by
  unfold H160.asBytes
  exact length_bigEndian 20 a.toNat

theorem H256.length_asBytes (h : H256) : h.asBytes.length = 32 := by
  unfold H256.asBytes
  exact length_bigEndian 32 h.toNat

theorem U256.length_toBigEndian (n : U256) : n.toBigEndian.length = 32 := by
  unfold U256.toBigEndian
  exact length_bigEndian 32 n.val

theorem H256.asBytes_fromSlice {bytes : Bytes} (h : bytes.length = 32) :
    (H256.fromSlice bytes).asBytes = bytes := by
  unfold H256.asBytes H256.fromSlice
  have hlt : fromBigEndian bytes < 2 ^ 256 := by
    have := fromBigEndian_lt bytes
    rw [h] at this
    exact this
  rw [BitVec.toNat_ofNat, Nat.mod_eq_of_lt hlt, ← h]
  exact bigEndian_fromBigEndian bytes

theorem H256.fromSlice_asBytes (h : H256) : H256.fromSlice h.asBytes = h := by
  unfold H256.asBytes H256.fromSlice
  apply BitVec.eq_of_toNat_eq
  have hlt : h.toNat < 256 ^ 32 := h.isLt
  rw [fromBigEndian_bigEndian, Nat.mod_eq_of_lt hlt, BitVec.toNat_ofNat]
  exact Nat.mod_eq_of_lt h.isLt

theorem U256.toLittleEndian_eq (n : U256) : n.toLittleEndian = n.toBigEndian.reverse :=
  littleEndian_eq_reverse 32 n.val

namespace Rpc

variable (hashing : KeyHashing) (decodeVec : Bytes → Option Bytes)

/-- Different slots have different keys: a key ends with the bytes of its slot. -/
theorem accountStoragesKey_inj (address : H160) {slot slot' : H256}
    (h : accountStoragesKey hashing address slot = accountStoragesKey hashing address slot') :
    slot = slot' := by
  have hsplit : ∀ s : H256, accountStoragesKey hashing address s =
      (hashing.twox128 (ascii "EVM") ++ hashing.twox128 (ascii "AccountStorages") ++
        blake2_128Concat hashing address.asBytes ++ hashing.blake2_128 s.asBytes) ++ s.asBytes :=
    fun s => (List.append_assoc _ _ _).symm
  rw [hsplit slot, hsplit slot'] at h
  have hbytes : slot.asBytes = slot'.asBytes := by
    refine List.append_inj_right' h ?_
    rw [H256.length_asBytes, H256.length_asBytes]
  rw [← H256.fromSlice_asBytes slot, hbytes, H256.fromSlice_asBytes]

theorem accountStoragesKey_ne_schema (address : H160) (slot : H256) :
    accountStoragesKey hashing address slot ≠ palletEthereumSchema := by
  intro h
  have hlen := congrArg List.length h
  have hschema : palletEthereumSchema.length = 16 := by decide
  unfold accountStoragesKey blake2_128Concat at hlen
  simp only [List.length_append, hschema, H160.length_asBytes, H256.length_asBytes] at hlen
  omega

/-- The override reads the slot of the reversed bytes. -/
theorem schemaV1Override_storageAt (state : ChainState) (address : H160) (index : U256) :
    ((schemaV1Override hashing decodeVec).storageAt state address index).getD 0 =
      accountStorages hashing state address (H256.fromSlice index.toBigEndian.reverse) := by
  have hlen : index.toBigEndian.reverse.length = 32 := by
    rw [List.length_reverse]
    exact index.length_toBigEndian
  unfold accountStorages accountStoragesKey
  rw [H256.asBytes_fromSlice hlen, ← index.toLittleEndian_eq]
  rfl

/-- On a state of schema V1 the two answers agree exactly if the two slots hold the same value. -/
theorem overrideAgrees_iff_slots {state : ChainState} (hv1 : onchainStorageSchema state = .v1)
    (address : H160) (index : U256) :
    OverrideAgrees hashing decodeVec state address index ↔
      accountStorages hashing state address (H256.fromSlice index.toBigEndian.reverse) =
        accountStorages hashing state address (H256.fromSlice index.toBigEndian) := by
  have hnode : handler hashing decodeVec (nodeOverrides hashing decodeVec) state =
      schemaV1Override hashing decodeVec := by
    unfold handler
    rw [hv1]
    rfl
  have hcode : ethCodeAt hashing decodeVec (nodeOverrides hashing decodeVec) state address =
      ethCodeAt hashing decodeVec (fun _ => none) state address := by
    unfold ethCodeAt
    rw [hnode]
    rfl
  have hstorage : ethStorageAt hashing decodeVec (nodeOverrides hashing decodeVec) state address
      index = accountStorages hashing state address (H256.fromSlice index.toBigEndian.reverse) := by
    unfold ethStorageAt
    rw [hnode]
    exact schemaV1Override_storageAt hashing decodeVec state address index
  constructor
  · intro h
    rw [← hstorage]
    exact h.2
  · intro h
    refine ⟨hcode, ?_⟩
    rw [hstorage]
    exact h

/-! ## A state that tells the slots apart -/

theorem oneSlotState_schema (address : H160) (slot value : H256) :
    onchainStorageSchema (oneSlotState hashing address slot value) = .v1 := by
  unfold onchainStorageSchema readStorage oneSlotState
  rw [if_pos rfl]
  rfl

theorem oneSlotState_slot (address : H160) (slot value slot' : H256) :
    accountStorages hashing (oneSlotState hashing address slot value) address slot' =
      if slot' = slot then value else 0 := by
  unfold accountStorages readStorage oneSlotState
  rw [if_neg (accountStoragesKey_ne_schema hashing address slot')]
  by_cases h : slot' = slot
  · have hlen : value.asBytes.length = 32 := value.length_asBytes
    have hdecode : decodeH256 value.asBytes = some value := by
      unfold decodeH256
      rw [if_pos hlen.ge, List.take_of_length_le hlen.le, H256.fromSlice_asBytes]
    rw [h, if_pos rfl, if_pos rfl, Option.bind_some, hdecode]
    rfl
  · have hkey : ¬ accountStoragesKey hashing address slot' = accountStoragesKey hashing address slot :=
      fun he => h (accountStoragesKey_inj hashing address he)
    rw [if_neg hkey, if_neg h]
    rfl

/-- If the bytes of the index do not read the same in both directions, the answers differ on the
state that holds a value in the slot of the index alone. -/
theorem not_overrideAgrees_oneSlotState {index : U256} (address : H160)
    (h : index.toBigEndian.reverse ≠ index.toBigEndian) :
    ¬ OverrideAgrees hashing decodeVec
      (oneSlotState hashing address (H256.fromSlice index.toBigEndian) 1) address index := by
  rw [overrideAgrees_iff_slots hashing decodeVec (oneSlotState_schema hashing address _ _),
    oneSlotState_slot, oneSlotState_slot, if_pos rfl]
  have hne : H256.fromSlice index.toBigEndian.reverse ≠ H256.fromSlice index.toBigEndian := by
    intro he
    have hbytes := congrArg H256.asBytes he
    rw [H256.asBytes_fromSlice (by rw [List.length_reverse]; exact index.length_toBigEndian),
      H256.asBytes_fromSlice index.length_toBigEndian] at hbytes
    exact h hbytes
  rw [if_neg hne]
  decide

/-- **The override and the runtime.** On a state of schema V1 the two answers for an index are the
same exactly if the account holds the same value in the slot of the index and in the slot with its
bytes reversed. They are the same on all such states exactly if the bytes of the index read the same
in both directions. -/
theorem overrideAgrees_iff (address : H160) (index : U256) :
    (∀ state, onchainStorageSchema state = .v1 →
      (OverrideAgrees hashing decodeVec state address index ↔
        accountStorages hashing state address (H256.fromSlice index.toBigEndian.reverse) =
          accountStorages hashing state address (H256.fromSlice index.toBigEndian))) ∧
    ((∀ state, onchainStorageSchema state = .v1 →
        OverrideAgrees hashing decodeVec state address index) ↔
      index.toBigEndian.reverse = index.toBigEndian) := by
  refine ⟨fun state hv1 => overrideAgrees_iff_slots hashing decodeVec hv1 address index, ?_, ?_⟩
  · intro hall
    by_contra hne
    exact not_overrideAgrees_oneSlotState hashing decodeVec address hne
      (hall _ (oneSlotState_schema hashing address _ _))
  · intro hpal state hv1
    rw [overrideAgrees_iff_slots hashing decodeVec hv1, hpal]

theorem overrideAgrees_iff_zero :
    OverrideAgrees slotHashing decodeShortVec
      (oneSlotState slotHashing 0 (H256.fromSlice (U256.toBigEndian 0)) 5) 0 0 :=
  (overrideAgrees_iff slotHashing decodeShortVec 0 0).2.2 (by decide) _
    (oneSlotState_schema slotHashing 0 _ _)

/-- Whatever the hash functions are, the answers for the slot `1` differ on some state. -/
theorem override_disagrees_at_one :
    ¬ ∃ hashing decodeVec, ∀ state, onchainStorageSchema state = .v1 →
      OverrideAgrees hashing decodeVec state 0 1 := by
  rintro ⟨hashing, decodeVec, hall⟩
  exact not_overrideAgrees_oneSlotState hashing decodeVec 0 (by decide)
    (hall _ (oneSlotState_schema hashing 0 _ _))

end Rpc

end Shadows
