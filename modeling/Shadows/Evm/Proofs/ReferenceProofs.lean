import Shadows.Evm.References

/-!
# Proofs: references and stored code

`create_account` keeps the references in step with the code exactly if the reference can be taken,
`remove_account` always does. The genesis builder stores code for every account it is given, and
takes no reference.
-/

namespace Shadows.Evm

open Foundations

variable {S AccountId : Type} {cfg : Config S AccountId} {refs : References S AccountId}

/-- Contracts are safe once the references match. -/
theorem referencesSound_iff {world : World S} :
    ReferencesSound cfg refs world ↔ ReferencesMatch cfg refs world := by
  constructor
  · exact fun h => h.1
  · intro h
    refine ⟨h, fun address hcode s hs halive => ?_⟩
    by_contra hdead
    have hzero := hs.removed _ halive hdead
    have hone := h address
    rw [if_pos hcode] at hone
    omega

theorem BalanceChange.refl (s : S) : BalanceChange refs s s where
  own := fun _ => rfl
  removed := fun _ halive hdead => absurd halive hdead

/-! ## Steps -/

theorem createAccount_isSome {world : World S} {address : H160} {code : Bytes} (hcode : code ≠ []) :
    ((createAccount cfg address code world).accountCodes address).isSome := by
  have hne : ¬ code.isEmpty = true := by rwa [List.isEmpty_iff]
  unfold createAccount
  rw [if_neg hne]
  simp only [Function.update_self, Option.isSome_some]

section Steps

variable (hlaws : ReferenceLaws cfg.system refs) (hinj : Function.Injective cfg.intoAccountId)

theorem ReferencesMatch.balanceChange {world : World S} (h : ReferencesMatch cfg refs world) {s : S}
    (hs : BalanceChange refs world.system s) :
    ReferencesMatch cfg refs { world with system := s } := by
  intro address
  have hown := hs.own (cfg.intoAccountId address)
  have hmatch := h address
  show refs.consumers s _ = refs.others s _ + if (world.accountCodes address).isSome then 1 else 0
  omega

include hlaws hinj

/-- A new contract whose account has a provider. -/
theorem ReferencesMatch.createAccount {world : World S} (h : ReferencesMatch cfg refs world)
    (address : H160) (code : Bytes)
    (hprovided : code ≠ [] → world.accountCodes address = none →
      refs.provided world.system (cfg.intoAccountId address)) :
    ReferencesMatch cfg refs (Evm.createAccount cfg address code world) := by
  by_cases hcode : code.isEmpty = true
  · unfold Evm.createAccount
    rw [if_pos hcode]
    exact h
  · intro other
    have hmatch := h other
    unfold Evm.createAccount
    rw [if_neg hcode]
    by_cases hnew : world.accountCodes address = none
    · have hinc : (world.accountCodes address).isNone = true := by rw [hnew]; rfl
      simp only [hinc, if_true]
      by_cases hother : other = address
      · subst hother
        have hprovided' := hprovided (mt List.isEmpty_iff.2 hcode) hnew
        rw [hnew] at hmatch
        simp only [Option.isSome_none, Bool.false_eq_true, if_false, Nat.add_zero] at hmatch
        simp only [Function.update_self, Option.isSome_some, if_true, hlaws.inc_others,
          hlaws.inc_provided _ _ hprovided', hmatch]
      · have hne : cfg.intoAccountId other ≠ cfg.intoAccountId address := fun he => hother (hinj he)
        simp only [Function.update_of_ne hother, hlaws.inc_others, hlaws.inc_other _ _ _ hne]
        exact hmatch
    · have hold : ¬ (world.accountCodes address).isNone = true := by rwa [Option.isNone_iff_eq_none]
      simp only [hold, Bool.false_eq_true, if_false]
      by_cases hother : other = address
      · subst hother
        rw [if_pos (Option.isSome_iff_ne_none.2 hnew)] at hmatch
        simp only [Function.update_self, Option.isSome_some, if_true]
        exact hmatch
      · simp only [Function.update_of_ne hother]
        exact hmatch

theorem ReferencesMatch.removeAccount {world : World S} (h : ReferencesMatch cfg refs world)
    (address : H160) : ReferencesMatch cfg refs (Evm.removeAccount cfg address world) := by
  intro other
  have hmatch := h other
  unfold Evm.removeAccount
  by_cases hcode : (world.accountCodes address).isSome = true
  · simp only [hcode, if_true]
    by_cases hother : other = address
    · subst hother
      rw [if_pos hcode] at hmatch
      have hdec := hlaws.dec_positive (cfg.intoAccountId other) world.system (by omega)
      simp only [Function.update_self, Option.isSome_none, Bool.false_eq_true, if_false,
        hlaws.dec_others]
      omega
    · have hne : cfg.intoAccountId other ≠ cfg.intoAccountId address := fun he => hother (hinj he)
      simp only [Function.update_of_ne hother, hlaws.dec_others, hlaws.dec_other _ _ _ hne]
      exact hmatch
  · simp only [hcode, Bool.false_eq_true, if_false]
    by_cases hother : other = address
    · subst hother
      rw [if_neg hcode] at hmatch
      simp only [Function.update_self, Option.isSome_none, Bool.false_eq_true, if_false]
      exact hmatch
    · simp only [Function.update_of_ne hother]
      exact hmatch

omit hinj

/-- A new contract whose account has no provider gets no reference. -/
theorem not_referencesMatch_createAccount {world : World S} (h : ReferencesMatch cfg refs world)
    {address : H160} {code : Bytes} (hcode : code ≠ []) (hnew : world.accountCodes address = none)
    (hunprovided : ¬ refs.provided world.system (cfg.intoAccountId address)) :
    ¬ ReferencesMatch cfg refs (Evm.createAccount cfg address code world) := by
  intro hafter
  have hbefore := h address
  have hone := hafter address
  rw [if_pos (createAccount_isSome hcode)] at hone
  have hne : ¬ code.isEmpty = true := by rwa [List.isEmpty_iff]
  have hinc : (world.accountCodes address).isNone = true := by rw [hnew]; rfl
  unfold Evm.createAccount at hone
  rw [if_neg hne] at hone
  simp only [hinc, if_true, hlaws.inc_unprovided _ _ hunprovided] at hone
  rw [hnew] at hbefore
  simp only [Option.isSome_none, Bool.false_eq_true, if_false] at hbefore
  omega

include hinj

/-- The condition on the steps is exact. -/
theorem referencesSound_step {world world' : World S} {op : AccountOp}
    (h : ReferencesSound cfg refs world) (hstep : AccountStep cfg refs world op world') :
    ReferencesSound cfg refs world' ↔ CreatesProvided cfg refs world op world' := by
  rw [referencesSound_iff] at h ⊢
  cases hstep with
  | createAccount address code =>
    constructor
    · intro hafter hcode hnew
      by_contra hunprovided
      exact not_referencesMatch_createAccount hlaws h hcode hnew hunprovided hafter
    · exact h.createAccount hlaws hinj address code
  | removeAccount address => exact iff_of_true (h.removeAccount hlaws hinj address) trivial
  | balanceChange s hs => exact iff_of_true (h.balanceChange hs) trivial

end Steps

/-! ## Genesis -/

section Genesis

variable (hlaws : ReferenceLaws cfg.system refs)

include hlaws

theorem incAccountNonce_iterate_own (who other : AccountId) (n : ℕ) : ∀ s : S,
    refs.consumers ((cfg.system.incAccountNonce who)^[n] s) other + refs.others s other =
      refs.consumers s other + refs.others ((cfg.system.incAccountNonce who)^[n] s) other := by
  induction n with
  | zero => exact fun _ => rfl
  | succ n ih =>
    intro s
    rw [Function.iterate_succ_apply]
    have hfirst := (hlaws.incAccountNonce who s).own other
    have hrest := ih (cfg.system.incAccountNonce who s)
    omega

/-- The genesis builder takes no references. -/
theorem buildAccount_own (address : H160) (account : GenesisAccount) (world : World S)
    (who : AccountId) :
    refs.consumers (buildAccount cfg address account world).system who +
        refs.others world.system who =
      refs.consumers world.system who +
        refs.others (buildAccount cfg address account world).system who := by
  have hnonce := incAccountNonce_iterate_own hlaws (cfg.intoAccountId address) who
    account.nonce.lowU128 world.system
  have hdeposit := (hlaws.depositCreating (cfg.intoAccountId address) account.balance.lowU128
    ((cfg.system.incAccountNonce (cfg.intoAccountId address))^[account.nonce.lowU128]
      world.system)).own who
  unfold buildAccount
  dsimp only
  omega

theorem foldl_buildAccount_own (accounts : List (H160 × GenesisAccount)) (who : AccountId) :
    ∀ world : World S,
      let world' := accounts.foldl (fun world entry => buildAccount cfg entry.1 entry.2 world) world
      refs.consumers world'.system who + refs.others world.system who =
        refs.consumers world.system who + refs.others world'.system who := by
  induction accounts with
  | nil => exact fun _ => rfl
  | cons entry rest ih =>
    intro world
    have hfirst := buildAccount_own hlaws entry.1 entry.2 world who
    have hrest := ih (buildAccount cfg entry.1 entry.2 world)
    rw [List.foldl_cons]
    dsimp only at hrest ⊢
    omega

omit hlaws

/-- The genesis builder stores code for every account, be it empty. -/
theorem buildGenesis_isSome {accounts : List (H160 × GenesisAccount)} (hne : accounts ≠ []) (s : S) :
    ∃ address, ((buildGenesis cfg accounts s).accountCodes address).isSome := by
  obtain ⟨front, last, rfl⟩ := (List.eq_nil_or_concat' accounts).resolve_left hne
  refine ⟨last.1, ?_⟩
  unfold buildGenesis
  rw [List.foldl_append, List.foldl_cons, List.foldl_nil]
  unfold buildAccount
  simp only [Function.update_self, Option.isSome_some]

include hlaws

/-- At genesis the references match exactly if no accounts are configured. -/
theorem referencesMatch_buildGenesis {s : S} (hfresh : ∀ who, refs.consumers s who = refs.others s who)
    (accounts : List (H160 × GenesisAccount)) :
    ReferencesMatch cfg refs (buildGenesis cfg accounts s) ↔ accounts = [] := by
  constructor
  · intro hmatch
    by_contra hne
    obtain ⟨address, hcode⟩ := buildGenesis_isSome hne s
    have hone := hmatch address
    rw [if_pos hcode] at hone
    have hown := foldl_buildAccount_own hlaws accounts (cfg.intoAccountId address)
      ⟨s, fun _ => none, fun _ _ => none, []⟩
    have hbase := hfresh (cfg.intoAccountId address)
    unfold buildGenesis at hone
    dsimp only at hown
    omega
  · rintro rfl address
    exact hfresh _

end Genesis

/-- **References and code.** In a run from genesis every state has its references in step with the
stored code, so that no account with code is removed, exactly if no accounts are configured at
genesis and every new contract finds its account with a provider. -/
theorem referencesSound_run (hlaws : ReferenceLaws cfg.system refs)
    (hinj : Function.Injective cfg.intoAccountId) {s : S}
    (hfresh : ∀ who, refs.consumers s who = refs.others s who)
    (accounts : List (H160 × GenesisAccount)) {run : List (AccountOp × World S)}
    (hrun : IsRun (AccountStep cfg refs) (buildGenesis cfg accounts s) run) :
    Always (ReferencesSound cfg refs) (buildGenesis cfg accounts s) run ↔
      accounts = [] ∧ Each (CreatesProvided cfg refs) (buildGenesis cfg accounts s) run := by
  have hgenesis := referencesMatch_buildGenesis hlaws hfresh accounts
  rw [← referencesSound_iff] at hgenesis
  have hexact : ∀ world op world', ReferencesSound cfg refs world →
      AccountStep cfg refs world op world' →
        (ReferencesSound cfg refs world' ↔ CreatesProvided cfg refs world op world') :=
    fun _ _ _ => referencesSound_step hlaws hinj
  constructor
  · intro halways
    exact ⟨hgenesis.1 halways.head, (always_iff_each hexact halways.head hrun).1 halways⟩
  · rintro ⟨hnil, heach⟩
    exact (always_iff_each hexact (hgenesis.2 hnil) hrun).2 heach

/-! ## On the ledger -/

theorem update_consumers (l : Ledger) (who : H160) (account : LedgerAccount)
    (h : account.consumers = (l who).consumers) (other : H160) :
    (Function.update l who account other).consumers = (l other).consumers := by
  by_cases hother : other = who
  · rw [hother, Function.update_self, h]
  · rw [Function.update_of_ne hother]

/-- Changes of the ledger that keep the consumers and do not lower a balance. -/
theorem ledger_balanceChange {l l' : Ledger}
    (hconsumers : ∀ who, (l' who).consumers = (l who).consumers)
    (hfree : ∀ who, (l who).free ≤ (l' who).free) : BalanceChange ledgerReferences l l' where
  own := hconsumers
  removed := by
    intro who halive hdead
    have hpositive : (l who).free ≠ 0 := halive
    have hzero : (l' who).free = 0 := not_not.1 hdead
    have := hfree who
    omega

theorem update_free (l : Ledger) (who : H160) (account : LedgerAccount)
    (h : (l who).free ≤ account.free) (other : H160) :
    (l other).free ≤ (Function.update l who account other).free := by
  by_cases hother : other = who
  · rw [hother, Function.update_self]
    exact h
  · rw [Function.update_of_ne hother]

theorem depositCreating_balanceChange (who : H160) (amount : ℕ) (l : Ledger) :
    BalanceChange ledgerReferences l (Ledger.depositCreating who amount l) := by
  unfold Ledger.depositCreating
  split_ifs
  · exact BalanceChange.refl l
  · exact ledger_balanceChange (update_consumers l who _ rfl)
      (update_free l who _ (Nat.le_add_right _ _))

theorem ledgerSystem_referenceLaws : ReferenceLaws ledgerSystem ledgerReferences where
  inc_provided := by
    intro who l h
    have hprovided : ¬ (l who).free = 0 := h
    show (Ledger.incConsumers who l who).consumers = _
    unfold Ledger.incConsumers
    rw [if_neg hprovided, Function.update_self]
    rfl
  inc_unprovided := by
    intro who l h
    exact if_pos (not_not.1 h)
  inc_other := by
    intro who other l hne
    show (Ledger.incConsumers who l other).consumers = _
    unfold Ledger.incConsumers
    split_ifs
    · rfl
    · rw [Function.update_of_ne hne]
      rfl
  inc_others := fun _ _ _ => rfl
  dec_positive := by
    intro who l h
    have hpositive : 0 < (l who).consumers := h
    show (Ledger.decConsumers who l who).consumers + 1 = (l who).consumers
    unfold Ledger.decConsumers
    rw [Function.update_self]
    show (l who).consumers - 1 + 1 = (l who).consumers
    omega
  dec_other := by
    intro who other l hne
    show (Ledger.decConsumers who l other).consumers = _
    unfold Ledger.decConsumers
    rw [Function.update_of_ne hne]
    rfl
  dec_others := fun _ _ _ => rfl
  incAccountNonce := fun who l =>
    ledger_balanceChange (update_consumers l who _ rfl) (update_free l who _ (le_refl _))
  depositCreating := depositCreating_balanceChange

theorem referencesSound_run_ledger :
    Always (ReferencesSound ledgerConfig ledgerReferences) (buildGenesis ledgerConfig [] emptyLedger)
      [(AccountOp.balanceChange, fundedContract),
        (AccountOp.createAccount 5 [0], createAccount ledgerConfig 5 [0] fundedContract)] := by
  have hrun : IsRun (AccountStep ledgerConfig ledgerReferences)
      (buildGenesis ledgerConfig [] emptyLedger)
      [(AccountOp.balanceChange, fundedContract),
        (AccountOp.createAccount 5 [0], createAccount ledgerConfig 5 [0] fundedContract)] :=
    ⟨AccountStep.balanceChange _ _ (depositCreating_balanceChange 5 1000 emptyLedger),
      AccountStep.createAccount _ 5 [0], trivial⟩
  refine (referencesSound_run ledgerSystem_referenceLaws Function.injective_id (fun _ => rfl) []
    hrun).2 ⟨rfl, trivial, fun _ _ => ?_, trivial⟩
  show (Ledger.depositCreating 5 1000 emptyLedger 5).free ≠ 0
  decide

/-- The contract at genesis has its balance, and nothing else. -/
theorem buildGenesis_genesisContract :
    (buildGenesis ledgerConfig [(5, genesisContract)] emptyLedger).system =
      Ledger.depositCreating 5 1000 emptyLedger := by
  have hnonce : (0 : U256).lowU128 = 0 := by decide
  have hbalance : (1000 : U256).lowU128 = 1000 := by decide
  show Ledger.depositCreating 5 (U256.lowU128 1000)
    ((Ledger.incAccountNonce 5)^[U256.lowU128 0] emptyLedger) = _
  rw [hnonce, hbalance]
  rfl

/-- A contract configured at genesis has no reference, and sending its balance away removes the
account while its code is stored. -/
theorem genesisContract_unreferenced :
    ¬ Always (ReferencesSound ledgerConfig ledgerReferences)
        (buildGenesis ledgerConfig [(5, genesisContract)] emptyLedger)
        ([] : List (AccountOp × World Ledger)) ∧
      ∃ l, Ledger.transfer 5 6 1000
          (buildGenesis ledgerConfig [(5, genesisContract)] emptyLedger).system = some l ∧
        (l 5).free = 0 ∧
        (buildGenesis ledgerConfig [(5, genesisContract)] emptyLedger).accountCodes 5 = some [0] := by
  constructor
  · intro halways
    have hnil := (referencesMatch_buildGenesis ledgerSystem_referenceLaws (fun _ => rfl) _).1
      (Always.head halways).1
    exact absurd hnil (List.cons_ne_nil _ _)
  · rw [buildGenesis_genesisContract]
    have hsent : ∃ l, Ledger.transfer 5 6 1000 (Ledger.depositCreating 5 1000 emptyLedger) = some l ∧
        (l 5).free = 0 := by
      simp [Ledger.transfer, Ledger.depositCreating, Ledger.take, Ledger.give, emptyLedger,
        existentialDeposit]
    obtain ⟨l, hl, hfree⟩ := hsent
    exact ⟨l, hl, hfree, rfl⟩

end Shadows.Evm
