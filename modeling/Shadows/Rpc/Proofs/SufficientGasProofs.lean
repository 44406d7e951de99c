import Mathlib.Order.Bounds.Basic
import Mathlib.Order.WellFounded
import Shadows.Rpc.Proofs.EstimateGasProofs

/-!
# Proofs: whether an estimate suffices

The estimate is the gas used by the last success of the search, which need not suffice as a limit. The
limits that the search tries are those of a bisection for the least limit of the call. If the call fails
with every limit, the estimate is the first limit of the search.
-/

namespace Shadows.Rpc

open Foundations

variable {ε : Type} {outcome : U256 → Except ε U256} {s s' : GasSearch}

/-! ## The last success -/

/-- The search ends after a success with a small change, and the estimate is the gas that it used. -/
theorem TriesSuccess.estimate (hwithin : WithinLimit outcome) (hmono : MonotoneOutcome outcome)
    {usedGas : U256} (h : TriesSuccess outcome s usedGas) (hsmall : SmallChange s.best usedGas) :
    searchEstimate (fun gasLimit => some (outcome gasLimit)) = some (.ok usedGas) := by
  obtain ⟨s', hnext, hafter⟩ := estimateTurn_success
    (Searched.inBounds hwithin h.searched) h.running h.succeeds (hmono.usesNoMore.le_best hwithin h)
  have hdone : ¬ thresholdPct < s'.changePct := fun hrun => hafter.running_iff.1 hrun hsmall
  obtain ⟨-, -, -, hbest, -⟩ := hafter
  obtain ⟨last, result, -, -, hloop⟩ := exists_exit hwithin
  have hresult := (h.searched.next hnext).eq_of_exit (estimateTurn_done hdone) hloop
  unfold searchEstimate
  rw [hloop, hresult, hbest]
  rfl

/-- Where the call succeeds with the first limit, the search ends after a success. -/
theorem exists_lastSuccess (hwithin : WithinLimit outcome) (hmono : MonotoneOutcome outcome)
    (hfirst : Succeeds outcome initialSearch.upper) :
    ∃ s usedGas, TriesSuccess outcome s usedGas ∧ SmallChange s.best usedGas := by
  obtain ⟨last, result, hlast, hexit, -⟩ := exists_exit hwithin
  have hdone : ¬ thresholdPct < last.changePct := by
    rcases estimateTurn_exit (Searched.inBounds hwithin hlast) hexit with
      ⟨-, hdone | ⟨-, hmeet, err, herr⟩⟩ | ⟨hrun, usedGas, hused, hlt⟩
    · exact hdone
    · -- the call succeeds with the upper bound
      have hupper : Succeeds outcome last.upper := by
        rcases Searched.bestAtUpper hwithin hlast with ⟨hupper, -⟩ | hupper
        · rwa [hupper]
        · exact ⟨_, hupper⟩
      obtain ⟨usedGas, hused⟩ := hupper
      rw [← hmeet, herr] at hused
      cases hused
    · have hsuccess : TriesSuccess outcome last usedGas := ⟨hlast, hrun, hused⟩
      exact absurd (hmono.usesNoMore.le_best hwithin hsuccess) (not_le.2 hlt)
  rcases hlast.cases_next with rfl | ⟨s, hsearched, hturn⟩
  · exact absurd (by decide) hdone
  · obtain ⟨hrun, ⟨usedGas, hused, -, hafter⟩ | ⟨-, -, -, -, -, -, hpct, -⟩⟩ :=
      estimateTurn_next (Searched.inBounds hwithin hsearched) hturn
    · refine ⟨s, usedGas, ⟨hsearched, hrun, hused⟩, ?_⟩
      by_contra hlarge
      exact hdone (hafter.running_iff.2 hlarge)
    · rw [hpct] at hdone
      exact absurd hrun hdone

/-- Where the call fails with the first limit, this is the estimate. -/
theorem estimate_of_failure {err : ε} (h : outcome initialSearch.upper = .error err) :
    searchEstimate (fun gasLimit => some (outcome gasLimit)) = some (.ok initialSearch.upper) := by
  have hexit : estimateTurn (fun gasLimit => some (outcome gasLimit)) initialSearch =
      .exit (some initialSearch.best) := by
    rcases estimateTurn_failure inBounds_initial (by decide) h with ⟨-, hexit⟩ | ⟨hne, -⟩
    · exact hexit
    · exact absurd rfl hne
  have hloop : loop (estimateTurn fun gasLimit => some (outcome gasLimit)) (2 ^ 31)
      initialSearch = some (some initialSearch.best) := by
    show loop _ (2147483647 + 1) _ = _
    unfold loop
    rw [hexit]
  unfold searchEstimate
  rw [hloop]
  rfl

/-! ## The limits of the search -/

section Limits

variable {leastLimit : U256} {usedWith : U256 → U256}

/-- A monotone call that succeeds with a limit has a least one. -/
theorem exists_demand (hmono : MonotoneOutcome outcome) {gasLimit : U256}
    (h : Succeeds outcome gasLimit) :
    ∃ leastLimit usedWith, Demand outcome leastLimit usedWith ∧ leastLimit ≤ gasLimit := by
  obtain ⟨leastLimit, ⟨usedGas, hleast⟩, hmin⟩ :=
    (wellFounded_lt (α := U256)).has_min {limit | Succeeds outcome limit} ⟨gasLimit, h⟩
  refine ⟨leastLimit, fun limit => (outcome limit).toOption.getD 0, ⟨?_, ?_⟩,
    not_lt.1 (hmin gasLimit h)⟩
  · intro limit hlt
    cases hout : outcome limit with
    | ok usedGas => exact absurd hlt (hmin limit ⟨usedGas, hout⟩)
    | error err => exact ⟨err, rfl⟩
  · intro limit hge
    obtain ⟨usedGas', hused, -⟩ := hmono leastLimit limit usedGas hge hleast
    rw [hused]
    rfl

/-- More gas is used with larger limits. -/
theorem Demand.mono (hdemand : Demand outcome leastLimit usedWith) (hmono : MonotoneOutcome outcome)
    {gasLimit gasLimit' : U256} (hle : leastLimit ≤ gasLimit) (hle' : gasLimit ≤ gasLimit') :
    usedWith gasLimit ≤ usedWith gasLimit' := by
  obtain ⟨usedGas', hused, hless⟩ := hmono _ _ _ hle' (hdemand.uses _ hle)
  cases hused.symm.trans (hdemand.uses _ (hle.trans hle'))
  exact hless

theorem Demand.succeeds_iff (hdemand : Demand outcome leastLimit usedWith) {gasLimit : U256} :
    Succeeds outcome gasLimit ↔ leastLimit ≤ gasLimit := by
  constructor
  · rintro ⟨usedGas, hused⟩
    by_contra hlt
    obtain ⟨err, herr⟩ := hdemand.fails gasLimit (not_le.1 hlt)
    cases hused.symm.trans herr
  · exact fun hle => ⟨_, hdemand.uses gasLimit hle⟩

/-- The search has tried `n + 1` limits of the bisection, and none has settled it if it goes on. -/
structure HasTried (leastLimit : U256) (usedWith : U256 → U256) (s : GasSearch) (n : ℕ) : Prop where
  lower : s.lower = (bisected middleLimit leastLimit limitBounds n).lower
  upper : s.upper = (bisected middleLimit leastLimit limitBounds n).upper
  mid : s.mid = middleLimit s.lower s.upper
  best : s.best = usedWith s.upper
  unsettled : thresholdPct < s.changePct → ∀ m ≤ n, ¬ Settles leastLimit usedWith m

theorem HasTried.mid_eq {n : ℕ} (h : HasTried leastLimit usedWith s n) :
    s.mid = triedLimit leastLimit (n + 1) := by
  rw [h.mid, h.lower, h.upper]
  rfl

theorem HasTried.best_eq {n : ℕ} (h : HasTried leastLimit usedWith s n) :
    s.best = usedBefore leastLimit usedWith (n + 1) := by
  rw [h.best, h.upper]
  rfl

/-- The first turn tries the upper bound, which suffices. -/
theorem hasTried_first (hdemand : Demand outcome leastLimit usedWith)
    (hle : leastLimit ≤ limitBounds.upper)
    (hturn : estimateTurn (fun gasLimit => some (outcome gasLimit)) initialSearch = .next s) :
    HasTried leastLimit usedWith s 0 := by
  have husedWith := hdemand.uses _ hle
  obtain ⟨-, ⟨usedGas, hused, -, hafter⟩ | ⟨⟨err, herr⟩, -⟩⟩ :=
    estimateTurn_next inBounds_initial hturn
  · cases hused.symm.trans husedWith
    have hgoes := hafter.running_iff
    obtain ⟨hlower, hupper, hmid, hbest, -⟩ := hafter
    refine ⟨hlower, hupper, ?_, ?_, fun hgo m hm hsettles => ?_⟩
    · rw [hlower, hupper]
      exact Fin.ext hmid
    · rw [hbest, hupper]
      rfl
    · cases Nat.le_zero.1 hm
      exact hgoes.1 hgo hsettles.small
  · cases herr.symm.trans husedWith

/-- A turn tries the next limit of the bisection, and halves the bounds as it does. -/
theorem HasTried.next (hdemand : Demand outcome leastLimit usedWith) (hs : InBounds s) {n : ℕ}
    (h : HasTried leastLimit usedWith s n)
    (hturn : estimateTurn (fun gasLimit => some (outcome gasLimit)) s = .next s') :
    HasTried leastLimit usedWith s' (n + 1) := by
  obtain ⟨hrun, ⟨usedGas, hused, -, hafter⟩ | ⟨⟨err, herr⟩, -, hafter⟩⟩ :=
    estimateTurn_next hs hturn
  · have hsuffices : leastLimit ≤ s.mid := hdemand.succeeds_iff.1 ⟨usedGas, hused⟩
    cases hused.symm.trans (hdemand.uses _ hsuffices)
    have hgoes := hafter.running_iff
    obtain ⟨hlower, hupper, hmid, hbest, -⟩ := hafter
    have hbounds := bisected_succ_of_le (h.mid_eq ▸ hsuffices)
    refine ⟨?_, ?_, ?_, ?_, fun hgo m hm hsettles => ?_⟩
    · rw [hlower, hbounds, h.lower]
    · rw [hupper, hbounds, h.mid_eq]
      rfl
    · rw [hlower, hupper]
      exact Fin.ext hmid
    · rw [hbest, hupper]
    · rcases Nat.le_succ_iff.1 hm with hm | rfl
      · exact h.unsettled hrun m hm hsettles
      · refine hgoes.1 hgo ?_
        rw [h.best_eq, h.mid_eq]
        exact hsettles.small
  · have hlt : s.mid < leastLimit := by
      refine not_le.1 fun hle => ?_
      cases herr.symm.trans (hdemand.uses _ hle)
    obtain ⟨hlower, hupper, hmid, hbest, -⟩ := hafter
    have hbounds := bisected_succ_of_lt (h.mid_eq ▸ hlt)
    refine ⟨?_, ?_, ?_, ?_, fun hgo m hm hsettles => ?_⟩
    · rw [hlower, hbounds, h.mid_eq]
      rfl
    · rw [hupper, hbounds, h.upper]
    · rw [hlower, hupper]
      exact Fin.ext hmid
    · rw [hbest, hupper, h.best]
    · rcases Nat.le_succ_iff.1 hm with hm | rfl
      · exact h.unsettled hrun m hm hsettles
      · exact absurd hsettles.sufficient (not_le.2 (h.mid_eq ▸ hlt))

theorem Searched.hasTried (hwithin : WithinLimit outcome)
    (hdemand : Demand outcome leastLimit usedWith) (hle : leastLimit ≤ limitBounds.upper)
    (h : Searched outcome s) : s = initialSearch ∨ ∃ n, HasTried leastLimit usedWith s n :=
  h.invariant (P := fun s => s = initialSearch ∨ ∃ n, HasTried leastLimit usedWith s n) (.inl rfl)
    fun s s' hsearched htried hturn => by
      rcases htried with rfl | ⟨n, htried⟩
      · exact .inr ⟨0, hasTried_first hdemand hle hturn⟩
      · exact .inr ⟨n + 1, htried.next hdemand (Searched.inBounds hwithin hsearched) hturn⟩

/-- The estimate is the gas used with the first limit that settles the bisection. -/
theorem estimate_bisected (hwithin : WithinLimit outcome) (hmono : MonotoneOutcome outcome)
    (hdemand : Demand outcome leastLimit usedWith) (hle : leastLimit ≤ limitBounds.upper) :
    ∃ n, IsLeast {n | Settles leastLimit usedWith n} n ∧
      searchEstimate (fun gasLimit => some (outcome gasLimit)) =
        some (.ok (usedWith (triedLimit leastLimit n))) := by
  obtain ⟨s, usedGas, h, hsmall⟩ :=
    exists_lastSuccess hwithin hmono (hdemand.succeeds_iff.2 hle)
  have hsuffices : leastLimit ≤ s.mid := hdemand.succeeds_iff.1 ⟨usedGas, h.succeeds⟩
  have husedWith : usedGas = usedWith s.mid :=
    Except.ok.inj (h.succeeds.symm.trans (hdemand.uses _ hsuffices))
  have hestimate := h.estimate hwithin hmono hsmall
  rw [husedWith] at hestimate hsmall
  rcases h.searched.hasTried hwithin hdemand hle with rfl | ⟨n, htried⟩
  · exact ⟨0, ⟨⟨hsuffices, hsmall⟩, fun m _ => Nat.zero_le m⟩, hestimate⟩
  · rw [htried.mid_eq] at hsuffices hestimate hsmall
    rw [htried.best_eq] at hsmall
    refine ⟨n + 1, ⟨⟨hsuffices, hsmall⟩, fun m hsettles => ?_⟩, hestimate⟩
    by_contra hlt
    exact htried.unsettled h.running m (by omega) hsettles

end Limits

theorem middleLimit_mem (lower upper : U256) (hle : lower ≤ upper) :
    lower ≤ middleLimit lower upper ∧ middleLimit lower upper ≤ upper := by
  rw [Fin.le_def] at hle
  unfold middleLimit
  rw [Fin.le_def, Fin.le_def]
  dsimp only
  omega

/-- **Estimates that suffice.** The call succeeds with the estimate, and there is none if the call fails
with every limit, if the call has a least limit, not above the first limit of the search, and uses all of
it; or if it uses as much with the first limit, and this one settles the search. It has to use as much
with the first limit. -/
theorem estimate_suffices (hwithin : WithinLimit outcome) (hmono : MonotoneOutcome outcome) :
    ((∃ leastLimit usedWith, Demand outcome leastLimit usedWith ∧ leastLimit ≤ limitBounds.upper ∧
        (leastLimit ≤ usedWith leastLimit ∨
          SettlesFirst outcome ∧ leastLimit ≤ usedWith limitBounds.upper)) →
      SufficientSearch outcome) ∧
    (SufficientSearch outcome →
      ∃ leastLimit usedWith, Demand outcome leastLimit usedWith ∧ leastLimit ≤ limitBounds.upper ∧
        leastLimit ≤ usedWith limitBounds.upper) := by
  constructor
  · rintro ⟨leastLimit, usedWith, hdemand, hle, hexact⟩
    refine ⟨fun gas hgas => ?_, fun hfails => absurd (hdemand.succeeds_iff.2 hle) (hfails _ (le_refl _))⟩
    obtain ⟨n, hn, hestimate⟩ := estimate_bisected hwithin hmono hdemand hle
    cases hgas.symm.trans hestimate
    rw [hdemand.succeeds_iff]
    rcases hexact with hexact | ⟨hsettles, hfirst⟩
    · exact hexact.trans (hdemand.mono hmono (le_refl _) hn.1.sufficient)
    · obtain rfl := Nat.le_zero.1 (hn.2 ⟨hle, hsettles _ (hdemand.uses _ hle)⟩)
      exact hfirst
  · rintro ⟨hsuffices, -⟩
    have hfirst : Succeeds outcome initialSearch.upper := by
      cases hout : outcome initialSearch.upper with
      | ok usedGas => exact ⟨usedGas, hout⟩
      | error err => exact hsuffices _ (estimate_of_failure hout)
    obtain ⟨leastLimit, usedWith, hdemand, hle⟩ := exists_demand hmono hfirst
    obtain ⟨n, hn, hestimate⟩ := estimate_bisected hwithin hmono hdemand hle
    have hsettled := hdemand.succeeds_iff.1 (hsuffices _ hestimate)
    have htried : triedLimit leastLimit n ≤ limitBounds.upper :=
      bisectionTry_le middleLimit_mem (by decide) n
    exact ⟨leastLimit, usedWith, hdemand, hle,
      hsettled.trans (hdemand.mono hmono hn.1.sufficient htried)⟩

/-! ## A call that reserves gas -/

theorem reservingCall_withinLimit : WithinLimit reservingCall := by
  intro gasLimit usedGas h
  unfold reservingCall at h
  split_ifs at h with hlimit
  cases h
  exact ⟨by decide, le_trans (by decide) hlimit⟩

theorem reservingCall_monotone : MonotoneOutcome reservingCall := by
  intro gasLimit gasLimit' usedGas hle h
  unfold reservingCall at h ⊢
  split_ifs at h with hlimit
  exact ⟨usedGas, (if_pos (hlimit.trans hle)).trans h, le_refl _⟩

/-- A call that uses the whole limit that it needs, whatever the limit. -/
theorem exactCall_demand : Demand exactCall 40000 fun _ => 40000 where
  fails _ hlt := ⟨(), if_neg (not_le.2 hlt)⟩
  uses _ hle := if_pos hle

theorem estimate_suffices_calls : SufficientSearch exactCall ∧ ¬ SufficientSearch reservingCall := by
  constructor
  · exact (estimate_suffices exactCall_withinLimit exactCall_monotone).1
      ⟨40000, _, exactCall_demand, by decide, .inl (le_refl _)⟩
  · intro h
    obtain ⟨leastLimit, usedWith, hdemand, hle, hfirst⟩ :=
      (estimate_suffices reservingCall_withinLimit reservingCall_monotone).2 h
    have hused : usedWith limitBounds.upper = 25000 :=
      Except.ok.inj ((hdemand.uses _ hle).symm.trans rfl)
    rw [hused] at hfirst
    obtain ⟨usedGas, hsucceeds⟩ := hdemand.succeeds_iff.2 hfirst
    cases hsucceeds

/-- The estimate is the gas used, and the call fails with this limit; and there is an estimate for a
call that always fails. -/
theorem reservingCall_insufficient :
    (WithinLimit reservingCall ∧ MonotoneOutcome reservingCall ∧
      searchEstimate (fun gasLimit => some (reservingCall gasLimit)) = some (.ok 25000) ∧
      ¬ Succeeds reservingCall 25000) ∧
    searchEstimate (fun gasLimit => some (failingCall gasLimit)) = some (.ok 1000000000) := by
  refine ⟨⟨reservingCall_withinLimit, reservingCall_monotone, by decide, ?_⟩, by decide⟩
  rintro ⟨usedGas, h⟩
  cases h

end Shadows.Rpc
