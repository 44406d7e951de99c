import Shadows.Rpc.EstimateGas

/-!
# Proofs: the search for a gas limit

The bounds of the search stay in order and come closer to each other, or the gas used by the last
success decreases. Only the subtraction of the gas used can go wrong: if a call with a smaller limit
uses more.
-/

namespace Shadows.Rpc

open Foundations

/-! ## Arithmetic -/

theorem midpoint_spec (lower upper : U256) (hlower : lower.val ≤ 1000000000)
    (hupper : upper.val ≤ 1000000000) :
    ∃ mid, midpoint lower upper = some mid ∧ mid.val = (lower.val + upper.val + 1) / 2 := by
  have hsum : lower.checkedAdd upper = some ⟨lower.val + upper.val, by omega⟩ :=
    U256.checkedAdd_eq_some.2 rfl
  have hsucc : U256.checkedAdd ⟨lower.val + upper.val, by omega⟩ 1 =
      some ⟨lower.val + upper.val + 1, by omega⟩ := U256.checkedAdd_eq_some.2 rfl
  obtain ⟨mid, hmid, hval⟩ :=
    U256.checkedDiv_of_pos (a := ⟨lower.val + upper.val + 1, by omega⟩) (b := 2) Nat.zero_lt_two
  unfold midpoint
  rw [hsum, Option.bind_some, hsucc, Option.bind_some]
  exact ⟨mid, hmid, hval⟩

/-- The change is a percentage of the gas used before. -/
theorem changePct_spec {oldBest best : U256} (hle : best ≤ oldBest) (hpos : 0 < oldBest.val)
    (hold : oldBest.val ≤ 1000000000) :
    ∃ pct, changePct oldBest best = some pct ∧
      pct.val = 100 * (oldBest.val - best.val) / oldBest.val := by
  have hsub : oldBest.checkedSub best = some ⟨oldBest.val - best.val, by omega⟩ := if_pos hle
  have hmul : U256.checkedMul 100 ⟨oldBest.val - best.val, by omega⟩ =
      some ⟨100 * (oldBest.val - best.val), by omega⟩ := U256.checkedMul_eq_some.2 rfl
  obtain ⟨pct, hpct, hval⟩ :=
    U256.checkedDiv_of_pos (a := ⟨100 * (oldBest.val - best.val), by omega⟩) hpos
  unfold changePct
  rw [hsub, Option.bind_some, hmul, Option.bind_some]
  exact ⟨pct, hpct, hval⟩

/-- The subtraction panics if more gas is used than before. -/
theorem changePct_of_lt {oldBest best : U256} (h : oldBest < best) : changePct oldBest best = none := by
  unfold changePct U256.checkedSub
  rw [if_neg (Nat.not_le.2 h)]
  rfl

/-! ## The bounds -/

/-- The bounds of the search. The limit to try is the upper bound or in the middle. -/
structure InBounds (s : GasSearch) : Prop where
  lower_le : s.lower.val ≤ s.mid.val
  le_upper : s.mid.val ≤ s.upper.val
  upper_le : s.upper.val ≤ 1000000000
  mid : s.mid = s.upper ∨ s.mid.val = (s.lower.val + s.upper.val + 1) / 2
  best_pos : 0 < s.best.val
  best_le : s.best.val ≤ 1000000000

theorem inBounds_initial : InBounds initialSearch where
  lower_le := by decide
  le_upper := by decide
  upper_le := by decide
  mid := .inl rfl
  best_pos := by decide
  best_le := by decide

section Turns

variable {ε : Type} {outcome : U256 → Except ε U256} {s s' : GasSearch}

/-- The gas used by a success becomes the best, and its limit the upper bound. -/
def AfterSuccess (s s' : GasSearch) (usedGas : U256) : Prop :=
  s'.lower = s.lower ∧ s'.upper = s.mid ∧ s'.mid.val = (s.lower.val + s.mid.val + 1) / 2 ∧
    s'.best = usedGas ∧ s'.changePct.val = 100 * (s.best.val - usedGas.val) / s.best.val

/-- The limit of a failure becomes the lower bound. -/
def AfterFailure (s s' : GasSearch) : Prop :=
  s'.lower = s.mid ∧ s'.upper = s.upper ∧ s'.mid.val = (s.mid.val + s.upper.val + 1) / 2 ∧
    s'.best = s.best ∧ s'.changePct = s.changePct ∧ s'.mid ≠ s.mid

theorem estimateTurn_done (h : ¬ thresholdPct < s.changePct) :
    estimateTurn (fun gasLimit => some (outcome gasLimit)) s = .exit (some s.best) := if_neg h

theorem estimateTurn_success (hs : InBounds s) (h : thresholdPct < s.changePct) {usedGas : U256}
    (hused : outcome s.mid = .ok usedGas) (hle : usedGas ≤ s.best) :
    ∃ s', estimateTurn (fun gasLimit => some (outcome gasLimit)) s = .next s' ∧
      AfterSuccess s s' usedGas := by
  obtain ⟨pct, hpct, hpctval⟩ := changePct_spec hle hs.best_pos hs.best_le
  obtain ⟨mid, hmid, hmidval⟩ := midpoint_spec s.lower s.mid
    (by have := hs.lower_le; have := hs.le_upper; have := hs.upper_le; omega)
    (hs.le_upper.trans hs.upper_le)
  refine ⟨⟨s.lower, s.mid, mid, usedGas, pct⟩, ?_, rfl, rfl, hmidval, rfl, hpctval⟩
  unfold estimateTurn
  rw [if_pos h]
  dsimp only
  rw [hused]
  dsimp only
  rw [hpct, hmid]

theorem estimateTurn_panic (h : thresholdPct < s.changePct) {usedGas : U256}
    (hused : outcome s.mid = .ok usedGas) (hlt : s.best < usedGas) :
    estimateTurn (fun gasLimit => some (outcome gasLimit)) s = .exit none := by
  unfold estimateTurn
  rw [if_pos h]
  dsimp only
  rw [hused]
  dsimp only
  rw [changePct_of_lt hlt]

theorem estimateTurn_failure (hs : InBounds s) (h : thresholdPct < s.changePct) {err : ε}
    (herr : outcome s.mid = .error err) :
    (s.mid = s.upper ∧
      estimateTurn (fun gasLimit => some (outcome gasLimit)) s = .exit (some s.best)) ∨
    (s.mid ≠ s.upper ∧
      ∃ s', estimateTurn (fun gasLimit => some (outcome gasLimit)) s = .next s' ∧
        AfterFailure s s') := by
  obtain ⟨mid, hmid, hmidval⟩ := midpoint_spec _ _ (hs.le_upper.trans hs.upper_le) hs.upper_le
  have hle := hs.le_upper
  have hsame : mid = s.mid ↔ s.mid = s.upper := by
    rw [Fin.ext_iff, Fin.ext_iff, hmidval]
    omega
  have hturn : estimateTurn (fun gasLimit => some (outcome gasLimit)) s =
      if mid = s.mid then .exit (some s.best)
      else .next { s with lower := s.mid, mid := mid } := by
    unfold estimateTurn
    rw [if_pos h]
    dsimp only
    rw [herr]
    dsimp only
    rw [hmid]
  rw [hturn]
  by_cases hmeet : s.mid = s.upper
  · exact .inl ⟨hmeet, if_pos (hsame.2 hmeet)⟩
  · exact .inr ⟨hmeet, _, if_neg (mt hsame.1 hmeet), rfl, rfl, hmidval, rfl, rfl,
      mt hsame.1 hmeet⟩

/-- A turn leads on after a success with no more gas used than before, or after a failure. -/
theorem estimateTurn_next (hs : InBounds s)
    (hturn : estimateTurn (fun gasLimit => some (outcome gasLimit)) s = .next s') :
    thresholdPct < s.changePct ∧
      ((∃ usedGas, outcome s.mid = .ok usedGas ∧ usedGas ≤ s.best ∧ AfterSuccess s s' usedGas) ∨
        (∃ err, outcome s.mid = .error err) ∧ s.mid ≠ s.upper ∧ AfterFailure s s') := by
  by_cases h : thresholdPct < s.changePct
  · refine ⟨h, ?_⟩
    cases hout : outcome s.mid with
    | ok usedGas =>
      rcases le_or_gt usedGas s.best with hle | hlt
      · obtain ⟨s'', hnext, hafter⟩ := estimateTurn_success hs h hout hle
        obtain rfl := Turn.next.inj (hturn.symm.trans hnext)
        exact .inl ⟨usedGas, rfl, hle, hafter⟩
      · cases hturn.symm.trans (estimateTurn_panic h hout hlt)
    | error err =>
      rcases estimateTurn_failure hs h hout with ⟨-, hexit⟩ | ⟨hne, s'', hnext, hafter⟩
      · cases hturn.symm.trans hexit
      · obtain rfl := Turn.next.inj (hturn.symm.trans hnext)
        exact .inr ⟨⟨err, rfl⟩, hne, hafter⟩
  · cases hturn.symm.trans (estimateTurn_done h)

/-- A turn ends the search after a small change, after a failure at the upper bound, or after a success
with more gas used than before. -/
theorem estimateTurn_exit (hs : InBounds s) {result : Option U256}
    (hexit : estimateTurn (fun gasLimit => some (outcome gasLimit)) s = .exit result) :
    result = some s.best ∧ (¬ thresholdPct < s.changePct ∨
        thresholdPct < s.changePct ∧ s.mid = s.upper ∧ ∃ err, outcome s.mid = .error err) ∨
      thresholdPct < s.changePct ∧ ∃ usedGas, outcome s.mid = .ok usedGas ∧ s.best < usedGas := by
  by_cases h : thresholdPct < s.changePct
  · cases hout : outcome s.mid with
    | ok usedGas =>
      rcases le_or_gt usedGas s.best with hle | hlt
      · obtain ⟨s', hnext, -⟩ := estimateTurn_success hs h hout hle
        cases hexit.symm.trans hnext
      · exact .inr ⟨h, usedGas, rfl, hlt⟩
    | error err =>
      rcases estimateTurn_failure hs h hout with ⟨hmeet, hdone⟩ | ⟨-, s', hnext, -⟩
      · cases hexit.symm.trans hdone
        exact .inl ⟨rfl, .inr ⟨h, hmeet, err, rfl⟩⟩
      · cases hexit.symm.trans hnext
  · cases hexit.symm.trans (estimateTurn_done h)
    exact .inl ⟨rfl, .inl h⟩

theorem InBounds.next (hwithin : WithinLimit outcome) (hs : InBounds s)
    (hturn : estimateTurn (fun gasLimit => some (outcome gasLimit)) s = .next s') :
    InBounds s' := by
  have hlower := hs.lower_le
  have hupper := hs.le_upper
  have hmax := hs.upper_le
  obtain ⟨-, ⟨usedGas, hused, hle, hl, hu, hmid, hbest, -⟩ |
    ⟨-, -, hl, hu, hmid, hbest, -, -⟩⟩ := estimateTurn_next hs hturn
  · obtain ⟨hpos, hlimit⟩ := hwithin _ _ hused
    rw [Fin.lt_def] at hpos
    rw [Fin.le_def] at hlimit
    constructor
    · rw [hl]; omega
    · rw [hu]; omega
    · rw [hu]; omega
    · rw [hl, hu]; exact .inr hmid
    · rw [hbest]; exact hpos
    · rw [hbest]; omega
  · constructor
    · rw [hl]; omega
    · rw [hu]; omega
    · rw [hu]; exact hmax
    · rw [hl, hu]; exact .inr hmid
    · rw [hbest]; exact hs.best_pos
    · rw [hbest]; exact hs.best_le

theorem Searched.inBounds (hwithin : WithinLimit outcome) (h : Searched outcome s) : InBounds s :=
  h.invariant inBounds_initial fun _ _ _ hs hturn => hs.next hwithin hturn

/-! ## The end of the search -/

/-- What is left to do: the distance of the bounds and the gas used, until the change is small. -/
def GasSearch.variant (s : GasSearch) : ℕ :=
  if thresholdPct < s.changePct then s.best.val + (s.upper.val - s.lower.val) + 1 else 0

theorem variant_next (hs : InBounds s)
    (hturn : estimateTurn (fun gasLimit => some (outcome gasLimit)) s = .next s') :
    s'.variant < s.variant := by
  have hlower := hs.lower_le
  have hupper := hs.le_upper
  obtain ⟨hrun, ⟨usedGas, -, hle, hl, hu, -, hbest, hpct⟩ |
    ⟨-, hne, hl, hu, hmid, hbest, hpct, hmoved⟩⟩ := estimateTurn_next hs hturn
  · unfold GasSearch.variant
    rw [if_pos hrun]
    split_ifs with hrun'
    · -- a change above the threshold is a decrease of the gas used
      have hless : usedGas.val < s.best.val := by
        rw [Fin.le_def] at hle
        rcases Nat.lt_or_ge usedGas.val s.best.val with hless | hge
        · exact hless
        · rw [Fin.lt_def, hpct, Nat.sub_eq_zero_of_le hge, Nat.mul_zero, Nat.zero_div] at hrun'
          exact absurd hrun' (Nat.not_lt_zero _)
      rw [hl, hu, hbest]
      omega
    · exact Nat.zero_lt_succ _
  · -- the bounds have come closer, as the limit was above the lower one
    have hless : s.lower.val < s.mid.val := by
      have hmid' : s.mid.val = s.upper.val ∨ _ := hs.mid.imp_left (congrArg Fin.val)
      rw [Ne, Fin.ext_iff] at hne
      omega
    unfold GasSearch.variant
    rw [if_pos hrun, hpct, if_pos hrun, hl, hu, hbest]
    rw [Ne, Fin.ext_iff] at hne
    omega

theorem exists_exit (hwithin : WithinLimit outcome) :
    ∃ s result, Searched outcome s ∧
      estimateTurn (fun gasLimit => some (outcome gasLimit)) s = .exit result ∧
      loop (estimateTurn fun gasLimit => some (outcome gasLimit)) (2 ^ 31) initialSearch =
        some result :=
  exists_exit_of_variant GasSearch.variant
    (fun _ _ hs hturn => variant_next (Searched.inBounds hwithin hs) hturn) (by decide)

/-- The search is safe exactly if no call that succeeds on the way uses more gas than the success
before. -/
theorem safeSearch_iff (hwithin : WithinLimit outcome) :
    SafeSearch outcome ↔ ∀ s usedGas, TriesSuccess outcome s usedGas → usedGas ≤ s.best := by
  obtain ⟨last, result, hlast, hexit, hloop⟩ := exists_exit hwithin
  have hestimate : searchEstimate (fun gasLimit => some (outcome gasLimit)) =
      result.map .ok := by
    unfold searchEstimate
    rw [hloop]
    rfl
  unfold SafeSearch
  rw [hestimate]
  constructor
  · rintro ⟨⟨gas, hgas⟩, -⟩ s usedGas h
    by_contra hlt
    have hpanic := estimateTurn_panic h.running h.succeeds (not_le.1 hlt)
    rw [h.searched.eq_of_exit hpanic hloop] at hgas
    cases hgas
  · intro h
    constructor
    · rcases estimateTurn_exit (Searched.inBounds hwithin hlast) hexit with
        ⟨rfl, -⟩ | ⟨hrun, usedGas, hused, hlt⟩
      · exact ⟨last.best, rfl⟩
      · exact absurd (h last usedGas ⟨hlast, hrun, hused⟩) (not_le.2 hlt)
    · intro s hsearched
      have hs := Searched.inBounds hwithin hsearched
      exact ⟨hs.lower_le, hs.le_upper⟩

/-! ## The gas used on the way -/

/-- The best is the gas used with the upper bound, unless nothing has succeeded yet. -/
def BestAtUpper (outcome : U256 → Except ε U256) (s : GasSearch) : Prop :=
  s.upper = initialSearch.upper ∧ s.best = initialSearch.best ∨ outcome s.upper = .ok s.best

theorem Searched.bestAtUpper (hwithin : WithinLimit outcome) (h : Searched outcome s) :
    BestAtUpper outcome s := by
  refine h.invariant (.inl ⟨rfl, rfl⟩) fun s s' hsearched hbest hturn => ?_
  obtain ⟨-, ⟨usedGas, hused, -, -, hu, -, hbest', -⟩ | ⟨-, -, -, hu, -, hbest', -, -⟩⟩ :=
    estimateTurn_next (Searched.inBounds hwithin hsearched) hturn
  · refine .inr ?_
    rw [hu, hbest']
    exact hused
  · unfold BestAtUpper
    rw [hu, hbest']
    exact hbest

/-- The lower bound does not fall. -/
theorem Searched.initial_le (hwithin : WithinLimit outcome) (h : Searched outcome s) :
    initialSearch.lower ≤ s.lower := by
  refine h.invariant (P := fun s => initialSearch.lower ≤ s.lower) (le_refl _)
    fun s s' hsearched hle hturn => ?_
  have hs := Searched.inBounds hwithin hsearched
  obtain ⟨-, ⟨-, -, -, hl, -⟩ | ⟨-, -, hl, -⟩⟩ := estimateTurn_next hs hturn
  · rw [hl]
    exact hle
  · rw [hl]
    exact hle.trans hs.lower_le

theorem MonotoneOutcome.usesNoMore (hmono : MonotoneOutcome outcome) : UsesNoMore outcome := by
  intro gasLimit gasLimit' usedGas usedGas' _ hle _ hused hused'
  obtain ⟨usedGas'', hused'', hless⟩ := hmono gasLimit gasLimit' usedGas hle hused
  cases hused'.symm.trans hused''
  exact hless

/-- Where a call never uses more gas with a lower limit, no success uses more than the one before. -/
theorem UsesNoMore.le_best (hwithin : WithinLimit outcome) (hnoMore : UsesNoMore outcome)
    {usedGas : U256} (h : TriesSuccess outcome s usedGas) : usedGas ≤ s.best := by
  have hs := Searched.inBounds hwithin h.searched
  rcases Searched.bestAtUpper hwithin h.searched with ⟨hupper, hbest⟩ | hupper
  · have hlimit := (hwithin _ _ h.succeeds).2
    have hle : s.mid ≤ s.upper := hs.le_upper
    rw [hupper] at hle
    rw [hbest]
    exact hlimit.trans hle
  · exact hnoMore _ _ _ _ ((Searched.initial_le hwithin h.searched).trans hs.lower_le) hs.le_upper
      hs.upper_le h.succeeds hupper

/-- The search goes on after a success exactly if the change was not small. -/
theorem AfterSuccess.running_iff {usedGas : U256} (h : AfterSuccess s s' usedGas) :
    thresholdPct < s'.changePct ↔ ¬ SmallChange s.best usedGas := by
  obtain ⟨-, -, -, -, hpct⟩ := h
  rw [Fin.lt_def, hpct]
  exact Nat.not_le.symm

/-- Where the first limit settles the search, no other one is tried. -/
theorem SettlesFirst.eq_initial (hwithin : WithinLimit outcome) (hsettles : SettlesFirst outcome)
    (h : Searched outcome s) (hrun : thresholdPct < s.changePct) : s = initialSearch := by
  refine h.invariant (P := fun s => thresholdPct < s.changePct → s = initialSearch) (fun _ => rfl)
    (fun s s' hsearched hinitial hturn hrun' => ?_) hrun
  obtain ⟨hrun, ⟨usedGas, hused, -, hafter⟩ | ⟨-, hne, -⟩⟩ :=
    estimateTurn_next (Searched.inBounds hwithin hsearched) hturn
  · obtain rfl := hinitial hrun
    exact absurd (hsettles usedGas hused) (hafter.running_iff.1 hrun')
  · obtain rfl := hinitial hrun
    exact absurd rfl hne

/-- The second limit is in the middle of the first bounds. -/
theorem exists_second (hwithin : WithinLimit outcome) {usedGas : U256}
    (hused : outcome initialSearch.upper = .ok usedGas)
    (hlarge : ¬ SmallChange initialSearch.upper usedGas) :
    ∃ s, Searched outcome s ∧ thresholdPct < s.changePct ∧
      s.mid = middleLimit limitBounds.lower limitBounds.upper ∧ s.best = usedGas := by
  obtain ⟨s, hnext, hafter⟩ := estimateTurn_success inBounds_initial (by decide) hused
    (hwithin _ _ hused).2
  have hrun := hafter.running_iff.2 hlarge
  obtain ⟨-, -, hmid, hbest, -⟩ := hafter
  exact ⟨s, Visits.start.next hnext, hrun, Fin.ext hmid, hbest⟩

/-- **The search ends.** The search returns an estimate, without a panic and with its bounds in order, if
the first limit settles it, or if the call never uses more gas with a lower limit. If the first limit
does not settle it, the call must not use more gas with the second one. -/
theorem estimate_safe (hwithin : WithinLimit outcome) :
    (SettlesFirst outcome ∨ UsesNoMore outcome → SafeSearch outcome) ∧
    (SafeSearch outcome → SettlesFirst outcome ∨
      ∀ usedGas usedGas', outcome limitBounds.upper = .ok usedGas →
        outcome (middleLimit limitBounds.lower limitBounds.upper) = .ok usedGas' →
          usedGas' ≤ usedGas) := by
  rw [safeSearch_iff hwithin]
  constructor
  · rintro (hsettles | hnoMore) s usedGas h
    · obtain rfl := hsettles.eq_initial hwithin h.searched h.running
      exact (hwithin _ _ h.succeeds).2
    · exact hnoMore.le_best hwithin h
  · intro hsafe
    by_contra hboth
    obtain ⟨hunsettled, hmore⟩ := not_or.1 hboth
    obtain ⟨usedGas, hfirst⟩ := not_forall.1 hunsettled
    obtain ⟨hused, hlarge⟩ := Classical.not_imp.1 hfirst
    obtain ⟨s, hsearched, hrun, hmid, hbest⟩ := exists_second hwithin hused hlarge
    refine hmore fun usedGas₁ usedGas₂ hused₁ hused₂ => ?_
    cases hused₁.symm.trans hused
    rw [← hbest]
    exact hsafe s usedGas₂ ⟨hsearched, hrun, hmid ▸ hused₂⟩

end Turns

/-! ## A call that uses less gas with a larger limit -/

theorem frugalCall_withinLimit : WithinLimit frugalCall := by
  intro gasLimit usedGas h
  unfold frugalCall at h
  split_ifs at h with hmax hlimit
  · cases h
    subst hmax
    decide
  · cases h
    exact ⟨by decide, hlimit⟩

theorem exactCall_withinLimit : WithinLimit exactCall := by
  intro gasLimit usedGas h
  unfold exactCall at h
  split_ifs at h with hlimit
  cases h
  exact ⟨by decide, hlimit⟩

theorem exactCall_monotone : MonotoneOutcome exactCall := by
  intro gasLimit gasLimit' usedGas hle h
  unfold exactCall at h ⊢
  split_ifs at h with hlimit
  exact ⟨usedGas, (if_pos (hlimit.trans hle)).trans h, le_refl _⟩

theorem estimate_safe_calls : SafeSearch exactCall ∧ ¬ SafeSearch frugalCall := by
  refine ⟨(estimate_safe exactCall_withinLimit).1 (.inr exactCall_monotone.usesNoMore), fun h => ?_⟩
  rcases (estimate_safe frugalCall_withinLimit).2 h with hsettles | hnoMore
  · exact absurd (hsettles 30000 rfl) (by decide)
  · exact absurd (hnoMore 30000 40000 rfl rfl) (by decide)

/-- The second success uses more gas than the first one, and the subtraction panics. -/
theorem frugalCall_panics :
    WithinLimit frugalCall ∧ searchEstimate (fun gasLimit => some (frugalCall gasLimit)) = none :=
  ⟨frugalCall_withinLimit, by decide⟩

end Shadows.Rpc
