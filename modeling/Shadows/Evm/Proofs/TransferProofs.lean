import Shadows.Evm.Currency

/-!
# Proofs: what `transfer` moves

The currency is asked for the value modulo `2 ^ 128`. Below `2 ^ 128` that is the value itself, and
only the shortcut for equal accounts goes wrong; from there on a success is never right.
-/

namespace Shadows.Evm

variable {S AccountId : Type} {cfg : Config S AccountId} {usableBalance : S → AccountId → ℕ}

theorem transfer_of_refused {source target : H160} {value : U256} {world : World S}
    (h : TransferRefused cfg source target value world) :
    transfer cfg source target value world = (.error .outOfFund, world) := by
  unfold TransferRefused at h
  unfold transfer
  rw [h]

theorem transferSound_of_refused {source target : H160} {value : U256} {world : World S}
    (h : TransferRefused cfg source target value world) :
    TransferSound cfg source target value world := by
  unfold TransferSound
  rw [transfer_of_refused h]
  intro who
  rfl

theorem transferRefused_iff (hlaws : CurrencyLaws cfg.system usableBalance) {source target : H160}
    {value : U256} {world : World S} : TransferRefused cfg source target value world ↔
      LowerHalfUncovered cfg usableBalance source target value world := by
  unfold TransferRefused
  by_cases hnothing : value.lowU128 = 0 ∨ cfg.intoAccountId source = cfg.intoAccountId target
  · rw [hlaws.transfer_nothing _ _ _ _ hnothing]
    constructor
    · exact nofun
    · rintro ⟨hamount, hne, -⟩
      exact absurd hnothing (not_or.2 ⟨hamount, hne⟩)
  · obtain ⟨hamount, hne⟩ := not_or.1 hnothing
    rw [hlaws.transfer_none _ _ _ _ hamount hne]
    exact ⟨fun hrefused => ⟨hamount, hne, hrefused⟩, fun h => h.2.2⟩

/-- Equal accounts: `Ok`, and no balance changes. -/
theorem transferSound_same (hlaws : CurrencyLaws cfg.system usableBalance) {source target : H160} {value : U256}
    {world : World S} (h : cfg.intoAccountId source = cfg.intoAccountId target) :
    TransferSound cfg source target value world ↔
      value.val ≤ freeOf cfg world (cfg.intoAccountId source) := by
  have hcall := hlaws.transfer_nothing _ _ value.lowU128 world.system (Or.inr h)
  have htransfer : transfer cfg source target value world = (.ok (), world) := by
    unfold transfer
    rw [hcall]
  unfold TransferSound
  rw [htransfer]
  constructor
  · exact fun hsound => hsound.1
  · exact fun hle => ⟨hle, fun hne => absurd h hne, fun _ _ => rfl⟩

/-- Different accounts and a value that fits: all of it moves, or nothing does. -/
theorem transferSound_small (hlaws : CurrencyLaws cfg.system usableBalance) {source target : H160} {value : U256}
    {world : World S} (h : cfg.intoAccountId source ≠ cfg.intoAccountId target)
    (hsmall : value.val < 2 ^ 128) : TransferSound cfg source target value world := by
  have hlow : value.lowU128 = value.val := Nat.mod_eq_of_lt hsmall
  cases hcall : cfg.system.transfer (cfg.intoAccountId source) (cfg.intoAccountId target)
      value.lowU128 world.system with
  | none => exact transferSound_of_refused hcall
  | some s =>
    have htransfer : transfer cfg source target value world = (.ok (), { world with system := s }) := by
      unfold transfer
      rw [hcall]
    have hmoved : Moved (cfg.intoAccountId source) (cfg.intoAccountId target) value.val
        (freeOf cfg world) (freeOf cfg { world with system := s }) := by
      by_cases hzero : value.val = 0
      · have hnothing := hlaws.transfer_nothing (cfg.intoAccountId source)
          (cfg.intoAccountId target) value.lowU128 world.system (Or.inl (hlow.trans hzero))
        rw [hcall, Option.some.injEq] at hnothing
        subst hnothing
        rw [hzero]
        exact ⟨rfl, rfl, fun _ _ _ => rfl⟩
      · have hne : value.lowU128 ≠ 0 := hlow ▸ hzero
        have hmoves := hlaws.transfer_moves _ _ _ _ _ hne h hcall
        rw [hlow] at hmoves
        exact hmoves
    unfold TransferSound
    rw [htransfer]
    refine ⟨?_, fun _ => hmoved, fun he => absurd he h⟩
    have := hmoved.debited
    omega

/-- A value that no balance can cover: the currency has to refuse. -/
theorem transferSound_large (hlaws : CurrencyLaws cfg.system usableBalance) {source target : H160}
    {value : U256} {world : World S} (hfree : ∀ who, freeOf cfg world who < 2 ^ 128)
    (hlarge : 2 ^ 128 ≤ value.val) : TransferSound cfg source target value world ↔
      LowerHalfUncovered cfg usableBalance source target value world := by
  rw [← transferRefused_iff hlaws]
  constructor
  · intro hsound
    unfold TransferRefused
    cases hcall : cfg.system.transfer (cfg.intoAccountId source) (cfg.intoAccountId target)
        value.lowU128 world.system with
    | none => rfl
    | some s =>
      unfold TransferSound transfer at hsound
      simp only [hcall] at hsound
      have hle := hsound.1
      have := hfree (cfg.intoAccountId source)
      omega
  · exact transferSound_of_refused

/-- **Moving value.** `transfer` does what its result says exactly if the value fits into 128 bits
and, between equal accounts, is covered, or if it does not fit and not even its lower half can be
moved. -/
theorem transferSound_iff (hlaws : CurrencyLaws cfg.system usableBalance) (source target : H160) (value : U256)
    {world : World S} (hfree : ∀ who, freeOf cfg world who < 2 ^ 128) :
    TransferSound cfg source target value world ↔
      (value.val < 2 ^ 128 ∧ (cfg.intoAccountId source = cfg.intoAccountId target →
        value.val ≤ freeOf cfg world (cfg.intoAccountId source))) ∨
      (2 ^ 128 ≤ value.val ∧ LowerHalfUncovered cfg usableBalance source target value world) := by
  by_cases hlarge : 2 ^ 128 ≤ value.val
  · rw [transferSound_large hlaws hfree hlarge]
    constructor
    · exact fun huncovered => Or.inr ⟨hlarge, huncovered⟩
    · rintro (⟨hsmall, -⟩ | ⟨-, huncovered⟩)
      · exact absurd hsmall (not_lt.2 hlarge)
      · exact huncovered
  · have hsmall : value.val < 2 ^ 128 := not_le.1 hlarge
    by_cases hsame : cfg.intoAccountId source = cfg.intoAccountId target
    · rw [transferSound_same hlaws hsame]
      constructor
      · exact fun hle => Or.inl ⟨hsmall, fun _ => hle⟩
      · rintro (⟨-, hle⟩ | ⟨hlarge', -⟩)
        · exact hle hsame
        · exact absurd hlarge' hlarge
    · constructor
      · exact fun _ => Or.inl ⟨hsmall, fun he => absurd he hsame⟩
      · exact fun _ => transferSound_small hlaws hsame hsmall

/-! ## Purses -/

theorem Purses.transfer_moves {source target : H160} {amount : ℕ} {l l' : Purses}
    (hamount : amount ≠ 0) (hne : source ≠ target) (h : Purses.transfer source target amount l = some l') :
    Moved source target amount l l' := by
  unfold Purses.transfer at h
  have hcheck : ¬ (amount = 0 ∨ source = target) := by
    rintro (hzero | hsame)
    · exact hamount hzero
    · exact hne hsame
  rw [if_neg hcheck] at h
  split_ifs at h with hlow
  rw [Option.some.injEq] at h
  subst h
  have hle : amount ≤ l source := by omega
  exact
    { debited := by rw [if_pos rfl]; omega
      credited := by rw [if_neg hne.symm, if_pos rfl]
      others := fun who hsource htarget => by rw [if_neg hsource, if_neg htarget] }

theorem Purses.transfer_none {source target : H160} {amount : ℕ} {l : Purses} (hamount : amount ≠ 0)
    (hne : source ≠ target) : Purses.transfer source target amount l = none ↔
      l source < amount ∨ 2 ^ 128 ≤ l target + amount := by
  unfold Purses.transfer
  rw [if_neg (not_or.2 ⟨hamount, hne⟩)]
  split_ifs with hlow
  · exact ⟨fun _ => hlow, fun _ => rfl⟩
  · exact ⟨nofun, fun h => absurd h hlow⟩

/-- Nothing is locked in a purse. -/
theorem purseSystem_laws : CurrencyLaws purseSystem fun l who => l who where
  transfer_nothing := fun _ _ _ _ h => if_pos h
  transfer_moves := fun _ _ _ _ _ hamount hne h => Purses.transfer_moves hamount hne h
  transfer_none := fun _ _ _ _ hamount hne => Purses.transfer_none hamount hne

theorem onePurse_free (who : H160) : freeOf purseConfig onePurse who < 2 ^ 128 := by
  show Function.update (fun _ => 0) 7 10 who < 2 ^ 128
  by_cases h : who = 7
  · rw [h, Function.update_self]
    decide
  · rw [Function.update_of_ne h]
    decide

theorem transferSound_iff_onePurse : TransferSound purseConfig 7 8 4 onePurse :=
  (transferSound_iff purseSystem_laws 7 8 4 onePurse_free).2
    (Or.inl ⟨by decide, fun h => absurd h (by decide)⟩)

/-- The account `7` sends `2 ^ 128` out of its `10`: `Ok`, and nothing moves. -/
theorem transfer_truncates :
    CurrencyLaws purseSystem (fun l who => l who) ∧
      (∀ who, freeOf purseConfig onePurse who < 2 ^ 128) ∧
      transfer purseConfig 7 8 (Fin.ofNat _ (2 ^ 128)) onePurse = (.ok (), onePurse) ∧
      ¬ TransferSound purseConfig 7 8 (Fin.ofNat _ (2 ^ 128)) onePurse := by
  have hlarge : 2 ^ 128 ≤ (Fin.ofNat (2 ^ 256) (2 ^ 128)).val := by decide
  have hlow : U256.lowU128 (Fin.ofNat (2 ^ 256) (2 ^ 128)) = 0 := by decide
  refine ⟨purseSystem_laws, onePurse_free, ?_, fun hsound => ?_⟩
  · unfold transfer
    rw [hlow]
    rfl
  · obtain ⟨hamount, -⟩ := (transferSound_large purseSystem_laws onePurse_free hlarge).1 hsound
    exact hamount hlow

end Shadows.Evm
