import Shadows.Evm.Fees
import Shadows.Evm.Genesis
import Shadows.Evm.Proofs.LedgerProofs
import Shadows.Foundations.KeyedFolds

/-!
# Proofs: the state at genesis

The builder of an account changes only what is stored of its address. Since the addresses of a
configuration differ, each of its accounts reads back as it was written.
-/

namespace Shadows.Evm

open Foundations

variable {S AccountId : Type} {cfg : Config S AccountId} {hold : Holdings S AccountId}

/-! ## One account -/

theorem iterate_balance {balance : S → AccountId → ℕ} {existentialDeposit : ℕ}
    (hendow : EndowmentLaws cfg.system balance existentialDeposit) (who other : AccountId) (n : ℕ)
    (s : S) : balance ((cfg.system.incAccountNonce who)^[n] s) other = balance s other := by
  induction n with
  | zero => rfl
  | succ n ih => rw [Function.iterate_succ_apply', hendow.incAccountNonce, ih]

theorem accountBasic_of_shows {world : World S} {address : H160} {account : GenesisAccount}
    (h : (accountView cfg world address).Shows account) (hfits : account.Fits hold.existentialDeposit) :
    accountBasic cfg world address = ⟨account.nonce, account.balance⟩ := by
  have hnonce : saturatedU128 (accountView cfg world address).nonce.toNat = account.nonce := by
    rw [h.nonce]
    exact Fin.ext (Nat.min_eq_left (by have := hfits.nonce; omega))
  have hbalance : saturatedU128 (accountView cfg world address).balance = account.balance := by
    rw [h.balance]
    exact Fin.ext (Nat.min_eq_left (by have := hfits.balance; omega))
  rw [← hnonce, ← hbalance]
  rfl

section Account

variable (hsys : SystemLaws cfg.system hold)

include hsys

theorem iterate_nonce_other {who other : AccountId} (hother : other ≠ who) (n : ℕ) (s : S) :
    cfg.system.accountNonce ((cfg.system.incAccountNonce who)^[n] s) other =
      cfg.system.accountNonce s other := by
  induction n with
  | zero => rfl
  | succ n ih => rw [Function.iterate_succ_apply', hsys.inc_other _ _ _ hother, ih]

theorem iterate_nonce {who : AccountId} {n : ℕ} {s : S}
    (h : (cfg.system.accountNonce s who).toNat + n < 2 ^ 32) :
    (cfg.system.accountNonce ((cfg.system.incAccountNonce who)^[n] s) who).toNat =
      (cfg.system.accountNonce s who).toNat + n := by
  induction n with
  | zero => rfl
  | succ n ih =>
    have hn := ih (by omega)
    rw [Function.iterate_succ_apply', hsys.inc_self _ _ (by omega), hn]
    rfl

variable (hendow : EndowmentLaws cfg.system cfg.system.freeBalance hold.existentialDeposit)

include hendow

/-- An address of which nothing was stored before. -/
theorem buildAccount_shows {address : H160} {account : GenesisAccount} {world : World S}
    (hfits : account.Fits hold.existentialDeposit)
    (hempty : accountView cfg world address = ⟨0, 0, none, fun _ => none⟩) :
    (accountView cfg (buildAccount cfg address account world) address).Shows account := by
  unfold accountView at hempty
  rw [AccountView.mk.injEq] at hempty
  obtain ⟨hnonce, hbalance, -, hstorage⟩ := hempty
  have hlowNonce : account.nonce.lowU128 = account.nonce.val :=
    Nat.mod_eq_of_lt (hfits.nonce.trans (by decide))
  have hlowBalance : account.balance.lowU128 = account.balance.val :=
    Nat.mod_eq_of_lt hfits.balance
  have hbefore : cfg.system.freeBalance
      ((cfg.system.incAccountNonce (cfg.intoAccountId address))^[account.nonce.val] world.system)
      (cfg.intoAccountId address) = 0 := by
    rw [iterate_balance hendow, hbalance]
  unfold accountView buildAccount
  dsimp only
  refine ⟨?_, ?_, Function.update_self _ _ _, fun index value => ?_⟩
  · have hzero : (cfg.system.accountNonce world.system (cfg.intoAccountId address)).toNat = 0 := by
      rw [hnonce]
      rfl
    rw [hsys.depositCreating, hlowNonce, iterate_nonce hsys, hzero, Nat.zero_add]
    rw [hzero, Nat.zero_add]
    exact hfits.nonce
  · rw [hlowNonce, hlowBalance, hendow.depositCreating _ _ _ hfits.endowed, hbefore, Nat.zero_add]
    rw [hbefore, Nat.zero_add]
    exact hfits.balance
  · show Function.update world.accountStorages address _ address index = some value ↔ _
    rw [Function.update_self]
    exact foldl_update_eq_some hfits.keys fun key => congrFun hstorage key

variable (hinj : Function.Injective cfg.intoAccountId)

include hinj

/-- The builder changes only what is stored of the address. -/
theorem buildAccount_local :
    Local (fun world (entry : H160 × GenesisAccount) => buildAccount cfg entry.1 entry.2 world)
      (accountView cfg) := by
  intro world entry address hne
  have hid : cfg.intoAccountId address ≠ cfg.intoAccountId entry.1 := fun h => hne (hinj h)
  have hnonce : cfg.system.accountNonce (buildAccount cfg entry.1 entry.2 world).system
      (cfg.intoAccountId address) =
        cfg.system.accountNonce world.system (cfg.intoAccountId address) := by
    unfold buildAccount
    dsimp only
    rw [hsys.depositCreating, iterate_nonce_other hsys hid]
  have hbalance : cfg.system.freeBalance (buildAccount cfg entry.1 entry.2 world).system
      (cfg.intoAccountId address) =
        cfg.system.freeBalance world.system (cfg.intoAccountId address) := by
    unfold buildAccount
    dsimp only
    rw [hendow.depositCreating_other _ _ _ _ hid, iterate_balance hendow]
  unfold accountView
  rw [hnonce, hbalance]
  unfold buildAccount
  dsimp only
  rw [Function.update_of_ne hne, Function.update_of_ne hne]

/-! ## All accounts -/

/-- **Genesis.** The accounts of a configuration read back as they are written there, in nonce, balance,
code and storage, and of any other address nothing is stored or changed. -/
theorem genesis_reads_back {accounts : List (H160 × GenesisAccount)} {system : S}
    (hgenesis : GenesisFits cfg hold.existentialDeposit accounts system) :
    (∀ address account, (address, account) ∈ accounts →
      (accountView cfg (buildGenesis cfg accounts system) address).Shows account ∧
        accountBasic cfg (buildGenesis cfg accounts system) address =
          ⟨account.nonce, account.balance⟩) ∧
      ∀ address, address ∉ accounts.map Prod.fst →
        accountView cfg (buildGenesis cfg accounts system) address =
          ⟨cfg.system.accountNonce system (cfg.intoAccountId address),
            cfg.system.freeBalance system (cfg.intoAccountId address), none, fun _ => none⟩ := by
  have hlocal := buildAccount_local hsys hendow hinj
  constructor
  · intro address account hentry
    obtain ⟨world, hbefore, hafter⟩ := hlocal.foldl_of_mem hgenesis.keys hentry
      ⟨system, fun _ => none, fun _ _ => none, []⟩
    have hempty : accountView cfg world address = ⟨0, 0, none, fun _ => none⟩ := by
      rw [hbefore]
      unfold accountView
      rw [hgenesis.nonce _ hentry, hgenesis.balance _ hentry]
    have hfits := hgenesis.fits _ hentry
    have hshows : (accountView cfg (buildGenesis cfg accounts system) address).Shows account := by
      unfold buildGenesis
      rw [hafter]
      exact buildAccount_shows hsys hendow hfits hempty
    exact ⟨hshows, accountBasic_of_shows hshows hfits⟩
  · intro address haddress
    exact hlocal.foldl_of_not_mem haddress _

end Account

/-! ## The total -/

section Total

variable {totalBalance : S → AccountId → ℕ} {existentialDeposit : ℕ}

theorem sumsTo_buildAccount (hendow : EndowmentLaws cfg.system totalBalance existentialDeposit)
    {address : H160} {account : GenesisAccount} (hfits : account.Fits existentialDeposit)
    {world : World S} {total : ℕ} (htotal : SumsTo (totalBalance world.system) total)
    (hissuance : total + account.balance.val < 2 ^ 128) :
    SumsTo (totalBalance (buildAccount cfg address account world).system)
      (total + account.balance.val) := by
  obtain ⟨s, hs⟩ : ∃ s, (cfg.system.incAccountNonce (cfg.intoAccountId address))^[
    account.nonce.lowU128] world.system = s := ⟨_, rfl⟩
  have hmid : SumsTo (totalBalance s) total := by
    refine htotal.congr fun who => ?_
    rw [← hs]
    exact iterate_balance hendow _ _ _ _
  have hlow : account.balance.lowU128 = account.balance.val := Nat.mod_eq_of_lt hfits.balance
  have hle := hmid.le (cfg.intoAccountId address)
  unfold buildAccount
  dsimp only
  rw [hs, hlow]
  exact hmid.credit (hendow.depositCreating _ _ _ hfits.endowed (by omega))
    fun who hwho => hendow.depositCreating_other _ _ _ _ hwho

theorem sumsTo_foldl (hendow : EndowmentLaws cfg.system totalBalance existentialDeposit)
    {accounts : List (H160 × GenesisAccount)}
    (hfits : ∀ entry ∈ accounts, entry.2.Fits existentialDeposit) {world : World S} {total : ℕ}
    (htotal : SumsTo (totalBalance world.system) total)
    (hissuance : total + endowment accounts < 2 ^ 128) :
    SumsTo (totalBalance (accounts.foldl
      (fun world entry => buildAccount cfg entry.1 entry.2 world) world).system)
      (total + endowment accounts) := by
  induction accounts generalizing world total with
  | nil => exact htotal
  | cons entry accounts ih =>
    have hsum : endowment (entry :: accounts) = entry.2.balance.val + endowment accounts :=
      List.sum_cons
    rw [hsum, ← Nat.add_assoc] at hissuance ⊢
    rw [List.forall_mem_cons] at hfits
    exact ih hfits.2 (sumsTo_buildAccount hendow hfits.1 htotal (by omega)) hissuance

/-- The builder adds to the total what it gives. -/
theorem sumsTo_buildGenesis (hendow : EndowmentLaws cfg.system totalBalance existentialDeposit)
    {accounts : List (H160 × GenesisAccount)}
    (hfits : ∀ entry ∈ accounts, entry.2.Fits existentialDeposit) {system : S} {total : ℕ}
    (htotal : SumsTo (totalBalance system) total) (hissuance : total + endowment accounts < 2 ^ 128) :
    SumsTo (totalBalance (buildGenesis cfg accounts system).system) (total + endowment accounts) :=
  sumsTo_foldl hendow hfits htotal hissuance

end Total

/-! ## On the ledger and on the till -/

theorem endowmentLaws_till : EndowmentLaws tillConfig.system (fun l who => l who) 0 where
  incAccountNonce := fun _ _ _ => rfl
  depositCreating := by
    intro who amount l _ hlt
    show Purses.deposit who amount l who = l who + amount
    unfold Purses.deposit
    rw [if_neg (Nat.not_le.2 hlt), Function.update_self]
  depositCreating_other := by
    intro who amount l other hother
    show Purses.deposit who amount l other = l other
    unfold Purses.deposit
    split_ifs with hhigh
    · rfl
    · rw [Function.update_of_ne hother]

theorem tillAccounts_fits : ∀ entry ∈ tillAccounts, entry.2.Fits 0 := by
  intro entry hentry
  obtain rfl := List.mem_singleton.1 hentry
  exact ⟨by decide, by decide, .inr (Nat.zero_le _), List.nodup_nil⟩

theorem endowmentLaws_ledger :
    EndowmentLaws ledgerSystem ledgerSystem.freeBalance ledgerHoldings.existentialDeposit where
  incAccountNonce := by
    intro who l other
    show (Function.update l who { l who with nonce := (l who).nonce + 1 } other).free = (l other).free
    by_cases hother : other = who
    · rw [hother, Function.update_self]
    · rw [Function.update_of_ne hother]
  depositCreating := by
    intro who amount l hamount _
    show (Ledger.depositCreating who amount l who).free = (l who).free + amount
    unfold Ledger.depositCreating
    split_ifs with hlow
    · obtain rfl : amount = 0 := hamount.resolve_right (by
        show ¬ existentialDeposit ≤ amount
        omega)
      rfl
    · unfold Ledger.give
      rw [Function.update_self]
  depositCreating_other := by
    intro who amount l other hother
    show (Ledger.depositCreating who amount l other).free = (l other).free
    unfold Ledger.depositCreating
    split_ifs with hlow
    · rfl
    · unfold Ledger.give
      rw [Function.update_of_ne hother]

theorem twoAccounts_fits :
    GenesisFits ledgerConfig ledgerHoldings.existentialDeposit twoAccounts emptyLedger where
  keys := by decide
  fits := by
    intro entry hentry
    rcases List.mem_pair.1 hentry with rfl | rfl
    · exact ⟨by decide, by decide, .inr (by decide), by decide⟩
    · exact ⟨by decide, by decide, .inl rfl, by decide⟩
  nonce := fun _ _ => rfl
  balance := fun _ _ => rfl

theorem genesis_reads_back_two :
    (∀ address account, (address, account) ∈ twoAccounts →
      (accountView ledgerConfig (buildGenesis ledgerConfig twoAccounts emptyLedger) address).Shows
          account ∧
        accountBasic ledgerConfig (buildGenesis ledgerConfig twoAccounts emptyLedger) address =
          ⟨account.nonce, account.balance⟩) ∧
      ∀ address, address ∉ twoAccounts.map Prod.fst →
        accountView ledgerConfig (buildGenesis ledgerConfig twoAccounts emptyLedger) address =
          ⟨0, 0, none, fun _ => none⟩ :=
  genesis_reads_back ledgerSystem_laws endowmentLaws_ledger Function.injective_id twoAccounts_fits

end Shadows.Evm
