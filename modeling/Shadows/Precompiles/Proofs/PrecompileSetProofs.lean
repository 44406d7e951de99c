import Shadows.Precompiles.PrecompileSet
import Shadows.Precompiles.Proofs.CostProofs

/-!
# Proofs: the precompiles of the runtime

A tuple answers at an address with the member of that number. Each member of the runtime is metered, so
that the gas that there is decides whether an input is executed, but not what comes of it.
-/

namespace Shadows.Precompiles

open Exec

/-! ## Addresses -/

namespace PrecompileSet

theorem toNat_fromLowU64Be (n : UInt64) : (fromLowU64Be n).toNat = n.toNat :=
  Nat.mod_eq_of_lt (n.toNat_lt.trans (by decide))

variable {address : H160} {input : Bytes} {targetGas : Option UInt64}

theorem executeFrom_eq {set : PrecompileSet} {index : UInt64}
    (hlength : index.toNat + set.length < 2 ^ 64) :
    executeFrom address input targetGas index set =
      if index.toNat < address.toNat then
        set[address.toNat - index.toNat - 1]?.map fun member => member.run input targetGas
      else none := by
  induction set generalizing index with
  | nil => simp [executeFrom]
  | cons member members ih =>
    rw [List.length_cons] at hlength
    have hnext : (index + 1).toNat = index.toNat + 1 := by
      rw [UInt64.toNat_add]
      exact Nat.mod_eq_of_lt (by show index.toNat + 1 < 2 ^ 64; omega)
    unfold executeFrom
    dsimp only
    by_cases haddress : address = fromLowU64Be (index + 1)
    · have hnumber : address.toNat = index.toNat + 1 := by
        rw [haddress, toNat_fromLowU64Be, hnext]
      rw [if_pos haddress, if_pos (by omega), show address.toNat - index.toNat - 1 = 0 by omega]
      rfl
    · have hnumber : address.toNat ≠ index.toNat + 1 := by
        intro h
        refine haddress (BitVec.eq_of_toNat_eq ?_)
        rw [toNat_fromLowU64Be, hnext, h]
      rw [if_neg haddress, ih (by omega), hnext]
      by_cases hlt : index.toNat < address.toNat
      · rw [if_pos (by omega), if_pos hlt,
          show address.toNat - index.toNat - 1 = address.toNat - (index.toNat + 1) - 1 + 1 by omega,
          List.getElem?_cons_succ]
      · rw [if_neg (by omega), if_neg hlt]

/-- A tuple answers with the member that has the number of the address, from `1` on. -/
theorem execute_eq {set : PrecompileSet} (hlength : set.length < 2 ^ 64) :
    set.execute address input targetGas =
      if 0 < address.toNat then
        set[address.toNat - 1]?.map fun member => member.run input targetGas
      else none :=
  executeFrom_eq (by show 0 + set.length < 2 ^ 64; omega)

end PrecompileSet

/-! ## Members -/

/-- A precompile whose outcome does not depend on the cost is metered. -/
theorem metered_of_outcome {precompile : LinearCostPrecompile} {input : Bytes} {length : ℕ}
    {outcome : Exec Output} (hlen : input.length < 2 ^ 63)
    (hexecute : ∀ cost, precompile.execute input cost = outcome) (hpanic : outcome ≠ panicked)
    (hlength : ∀ output, outcome = pure output → output.1 = .returned ∧ output.2.length = length) :
    Metered precompile input length := by
  refine ⟨outcome, hpanic, fun targetGas => ?_, hlength⟩
  have hwords : (UInt64.ofNat input.length).toNat = input.length :=
    UInt64.toNat_ofNat_of_lt' (by show input.length < 2 ^ 64; omega)
  have hprice : precompile.price input.length = precompile.base.toNat +
      precompile.word.toNat * (((UInt64.ofNat input.length).toNat + 31) / 32) := by
    rw [hwords]
    rfl
  have hcost := ensureLinearCost_eq targetGas precompile.base precompile.word (by omega) hprice
  unfold LinearCostPrecompile.run
  rw [hcost]
  split_ifs with hfits
  · exact congrArg (fun x : Exec Output => x >>= fun output =>
      pure (output, UInt64.ofNat (precompile.price input.length))) (hexecute _)
  · rfl

/-- A precompile that always returns. -/
theorem metered_of_returns {precompile : LinearCostPrecompile} {input bytes : Bytes}
    (hlen : input.length < 2 ^ 63)
    (hexecute : ∀ cost, precompile.execute input cost = pure (.returned, bytes)) :
    Metered precompile input bytes.length :=
  metered_of_outcome hlen hexecute pure_ne_panicked fun output h => by
    obtain rfl := pure_injective h
    exact ⟨rfl, rfl⟩

section Runtime

variable {spIo : SpIo} {hash : HashApi} {input : Bytes}

/-- A precompile that returns something of a recovered key. -/
theorem metered_of_key {precompile : LinearCostPrecompile} {f : Bytes → Bytes} {length : ℕ}
    (hkeys : spIo.KeySized) (hlen : input.length < 2 ^ 63)
    (hexecute : ∀ cost, precompile.execute input cost =
      recoverPublicKey spIo input >>= fun key => pure (.returned, f key))
    (hlength : ∀ key : Bytes, key.length = 64 → (f key).length = length) :
    Metered precompile input length := by
  have hrecover : ∃ key, recoverPublicKey spIo input = orRefuse "Public key recover failed" key ∧
      ∀ k, key = some k → k.length = 64 := ⟨_, rfl, fun k hk => hkeys _ _ k hk⟩
  obtain ⟨key, hkey, hsized⟩ := hrecover
  rw [hkey] at hexecute
  cases key with
  | none =>
    exact metered_of_outcome hlen hexecute throw_ne_panicked
      fun output h => absurd h.symm pure_ne_throw
  | some key =>
    rw [← hlength key (hsized key rfl)]
    exact metered_of_returns hlen hexecute

theorem length_addressOutput (key : Bytes) :
    (List.replicate 12 0 ++ (spIo.keccak256 key).asBytes.drop 12).length = 32 := by
  rw [List.length_append, List.length_replicate, List.length_drop]
  unfold H256.asBytes
  rw [Foundations.length_bigEndian]

theorem ripemd160_metered (hhash : hash.Sized) (hlen : input.length < 2 ^ 63) :
    Metered (Ripemd160.precompile hash) input 32 := by
  have hreturns : ∀ cost, (Ripemd160.precompile hash).execute input cost =
      pure (.returned, List.replicate 12 0 ++ hash.ripemd160 input) := by
    intro cost
    show Ripemd160.execute hash input cost = _
    unfold Ripemd160.execute copyFromSlice
    rw [if_pos (hhash.ripemd160 input)]
    rfl
  have hlength : (List.replicate 12 0 ++ hash.ripemd160 input).length = 32 := by
    rw [List.length_append, List.length_replicate, hhash.ripemd160]
  have hmetered := metered_of_returns hlen hreturns
  rwa [hlength] at hmetered

/-- The members of the runtime. -/
theorem runtime_members (hhash : hash.Sized) (hkeys : spIo.KeySized) (hlen : input.length < 2 ^ 63)
    {k : ℕ} {member : LinearCostPrecompile}
    (hmember : (PrecompileSet.runtime spIo hash)[k]? = some member) :
    Metered member input (outputLength (k + 1) input.length) := by
  rcases k with _ | _ | _ | _ | _ | _ | _ | k
  · -- `ECRecover`
    obtain rfl := Option.some.inj hmember
    exact metered_of_key hkeys hlen (fun _ => rfl) fun key _ => length_addressOutput key
  · -- `Sha256`
    obtain rfl := Option.some.inj hmember
    rw [show outputLength 2 input.length = (hash.sha2256 input).length from (hhash.sha2256 input).symm]
    exact metered_of_returns hlen fun _ => rfl
  · -- `Ripemd160`
    obtain rfl := Option.some.inj hmember
    exact ripemd160_metered hhash hlen
  · -- `Identity`
    obtain rfl := Option.some.inj hmember
    exact metered_of_returns hlen fun _ => rfl
  · -- `ECRecoverPublicKey`
    obtain rfl := Option.some.inj hmember
    exact metered_of_key hkeys hlen (fun _ => rfl) fun key hkey => hkey
  · -- `Sha3FIPS256`
    obtain rfl := Option.some.inj hmember
    rw [show outputLength 6 input.length = (hash.sha3v256 input).length from
      (hhash.sha3v256 input).symm]
    exact metered_of_returns hlen fun _ => rfl
  · -- `Sha3FIPS512`
    obtain rfl := Option.some.inj hmember
    rw [show outputLength 7 input.length = (hash.sha3v512 input).length from
      (hhash.sha3v512 input).symm]
    exact metered_of_returns hlen fun _ => rfl
  · cases hmember

/-- **The precompiles of the runtime.** There are precompiles at the addresses from `1` to `7` and nowhere
else. None of them panics for any input, and the gas that there is decides whether the input is executed,
but neither what comes of it nor what it costs. -/
theorem runtime_metered (hhash : hash.Sized) (hkeys : spIo.KeySized) (address : H160)
    (hlen : input.length < 2 ^ 63) :
    (1 ≤ address.toNat ∧ address.toNat ≤ 7 → ∃ member,
      (PrecompileSet.runtime spIo hash)[address.toNat - 1]? = some member ∧
      (∀ targetGas, (PrecompileSet.runtime spIo hash).execute address input targetGas =
        some (member.run input targetGas)) ∧
      Metered member input (outputLength address.toNat input.length)) ∧
    (¬ (1 ≤ address.toNat ∧ address.toNat ≤ 7) → ∀ targetGas,
      (PrecompileSet.runtime spIo hash).execute address input targetGas = none) := by
  have hsize : (PrecompileSet.runtime spIo hash).length = 7 := rfl
  have hexecute : ∀ targetGas, (PrecompileSet.runtime spIo hash).execute address input targetGas =
      if 0 < address.toNat then
        (PrecompileSet.runtime spIo hash)[address.toNat - 1]?.map fun member =>
          member.run input targetGas
      else none := fun targetGas => PrecompileSet.execute_eq (by rw [hsize]; decide)
  constructor
  · rintro ⟨hlow, hhigh⟩
    have hmember := List.getElem?_eq_getElem (l := PrecompileSet.runtime spIo hash)
      (i := address.toNat - 1) (by rw [hsize]; omega)
    refine ⟨_, hmember, fun targetGas => ?_, ?_⟩
    · rw [hexecute, if_pos (by omega), hmember]
      rfl
    · have hmetered := runtime_members hhash hkeys hlen hmember
      rwa [Nat.sub_add_cancel hlow] at hmetered
  · intro hout targetGas
    rw [hexecute]
    split_ifs with hpos
    · rw [List.getElem?_eq_none (by rw [hsize]; omega)]
      rfl
    · rfl

end Runtime

theorem zeroHashes_sized : zeroHashes.Sized where
  sha2256 := fun _ => rfl
  ripemd160 := fun _ => rfl
  sha3v256 := fun _ => rfl
  sha3v512 := fun _ => rfl

/-- The identity on a byte. -/
theorem runtime_metered_byte :
    (1 ≤ (4 : H160).toNat ∧ (4 : H160).toNat ≤ 7 → ∃ member,
      (PrecompileSet.runtime keylessHost zeroHashes)[(4 : H160).toNat - 1]? = some member ∧
      (∀ targetGas, (PrecompileSet.runtime keylessHost zeroHashes).execute 4 [9] targetGas =
        some (member.run [9] targetGas)) ∧
      Metered member [9] (outputLength (4 : H160).toNat 1)) ∧
    (¬ (1 ≤ (4 : H160).toNat ∧ (4 : H160).toNat ≤ 7) → ∀ targetGas,
      (PrecompileSet.runtime keylessHost zeroHashes).execute 4 [9] targetGas = none) :=
  runtime_metered zeroHashes_sized (fun _ _ key h => absurd h.symm (Option.some_ne_none key)) 4 (by decide)

end Shadows.Precompiles
