import Shadows.DynamicFee.Pallet
import Shadows.Foundations.Approach

/-!
# Proofs: the minimum gas price approaches the targets

The saturation of the limits changes nothing, as targets are within the range of `U256`: the end of a
block is one step towards the noted target, of a length that is never zero.
-/

namespace Shadows.DynamicFee

open Foundations

variable {divisor : U256} {st st' : Storage}

/-! ## One block -/

/-- The length of a step from a price. -/
def stepBound (divisor : U256) (price : ℕ) : ℕ := price / divisor.val + 1

theorem priceBound_spec (hdivisor : 2 ≤ divisor.val) (price : U256) :
    ∃ bound, priceBound divisor price = some bound ∧ bound.val = stepBound divisor price.val := by
  obtain ⟨quotient, hquotient, hval⟩ :=
    U256.checkedDiv_of_pos (a := price) (b := divisor) (by omega)
  have hhalf : price.val / divisor.val ≤ price.val / 2 := Nat.div_le_div_left hdivisor Nat.zero_lt_two
  have hlt : price.val / divisor.val + 1 < 2 ^ 256 := by
    have := price.isLt
    omega
  refine ⟨⟨price.val / divisor.val + 1, hlt⟩, ?_, rfl⟩
  unfold priceBound
  rw [hquotient, Option.bind_some, U256.checkedAdd_eq_some, hval]
  rfl

theorem onFinalize_none (h : st.targetMinGasPrice = none) : onFinalize divisor st = some st := by
  unfold onFinalize
  rw [h]
  exact congrArg some (by rw [← h])

/-- The limits saturate only where the target does not reach them. -/
theorem val_between_limits (price bound target : U256) :
    (min (price.saturatingAdd bound) (max (price.saturatingSub bound) target)).val =
      min (price.val + bound.val) (max (price.val - bound.val) target.val) := by
  have hadd : (price.saturatingAdd bound).val = min (price.val + bound.val) (2 ^ 256 - 1) := rfl
  have hsub : (price.saturatingSub bound).val = price.val - bound.val := rfl
  have hprice := price.isLt
  have htarget := target.isLt
  rw [Fin.coe_min, Fin.coe_max, hadd, hsub]
  omega

/-- With a target, the price takes one step towards it. -/
theorem onFinalize_some (hdivisor : 2 ≤ divisor.val) {target : U256}
    (h : st.targetMinGasPrice = some target) :
    ∃ st', onFinalize divisor st = some st' ∧ st'.targetMinGasPrice = none ∧
      st'.minGasPrice.val = approach (stepBound divisor) target.val st.minGasPrice.val := by
  obtain ⟨bound, hbound, hval⟩ := priceBound_spec hdivisor st.minGasPrice
  have hfinalize : onFinalize divisor st = some { st with
      minGasPrice := min (st.minGasPrice.saturatingAdd bound)
        (max (st.minGasPrice.saturatingSub bound) target)
      targetMinGasPrice := none } := by
    unfold onFinalize
    rw [h]
    dsimp only
    rw [hbound]
    rfl
  refine ⟨_, hfinalize, rfl, ?_⟩
  dsimp only
  rw [val_between_limits, hval]
  rfl

/-- The end of a block adjusts the price, without a panic. -/
theorem onFinalize_adjusted (hdivisor : 2 ≤ divisor.val) (st : Storage) :
    ∃ st', onFinalize divisor st = some st' ∧ Adjusted divisor st st' := by
  cases htarget : st.targetMinGasPrice with
  | none =>
    have hnone : ∀ target, st.targetMinGasPrice ≠ some target := by
      intro target h
      cases htarget.symm.trans h
    refine ⟨st, onFinalize_none htarget, fun _ => rfl, fun target h => absurd h (hnone target), ?_,
      fun target h => absurd h (hnone target), htarget⟩
    exact ⟨Nat.le_add_right _ _, Nat.le_add_right _ _⟩
  | some target =>
    obtain ⟨st', hfinalize, hkilled, hval⟩ := onFinalize_some hdivisor htarget
    have hstep := approach_near (stepBound divisor) target.val st.minGasPrice.val
    rw [← hval] at hstep
    refine ⟨st', hfinalize, fun h => ?_, fun target' h => ?_, hstep, fun target' h => ?_, hkilled⟩
    · cases htarget.symm.trans h
    · cases htarget.symm.trans h
      rw [Fin.le_def, Fin.le_def, Fin.coe_min, Fin.coe_max, hval]
      exact ⟨le_approach (by omega) (by omega), approach_le (by omega) (by omega)⟩
    · cases htarget.symm.trans h
      intro habove hbelow
      apply Fin.ext
      rw [hval]
      exact approach_eq habove hbelow

/-! ## Runs of blocks -/

theorem dispatch_inherent {call : Call} (h : call.origin = .none) :
    call.dispatch st = { st with
      targetMinGasPrice := some call.target
      events := st.events ++ [.targetMinGasPriceSet call.target] } := by
  unfold Call.dispatch noteMinGasPriceTarget ensureNone
  rw [if_pos h]
  rfl

theorem dispatch_refused {call : Call} (h : call.origin ≠ .none) : call.dispatch st = st := by
  unfold Call.dispatch noteMinGasPriceTarget ensureNone
  rw [if_neg h]
  rfl

/-- Calls leave the price alone, and the last inherent among them decides the target. -/
theorem foldl_dispatch (calls : List Call) (st : Storage) :
    (calls.foldl Call.dispatch st).minGasPrice = st.minGasPrice ∧
      (calls.foldl Call.dispatch st).targetMinGasPrice =
        (notedTarget calls <|> st.targetMinGasPrice) := by
  induction calls using List.reverseRecOn with
  | nil => exact ⟨rfl, rfl⟩
  | append_singleton calls call ih =>
    rw [List.foldl_append, List.foldl_cons, List.foldl_nil]
    unfold notedTarget at ih ⊢
    rw [List.filter_append]
    by_cases horigin : call.origin = .none
    · have hlast : [call].filter (fun call => call.origin = .none) = [call] :=
        List.filter_cons_of_pos (decide_eq_true horigin)
      rw [dispatch_inherent horigin, hlast, List.getLast?_concat]
      exact ⟨ih.1, rfl⟩
    · have hlast : [call].filter (fun call => call.origin = .none) = [] :=
        List.filter_cons_of_neg (fun h => horigin (of_decide_eq_true h))
      rw [dispatch_refused horigin, hlast, List.append_nil]
      exact ih

/-- A block takes one step towards the target that it notes. -/
theorem runBlock_spec (hdivisor : 2 ≤ divisor.val) (h : st.targetMinGasPrice = none)
    (calls : List Call) :
    ∃ st', runBlock divisor st calls = some st' ∧ st'.targetMinGasPrice = none ∧
      (notedTarget calls = none → st'.minGasPrice = st.minGasPrice) ∧
      ∀ target, notedTarget calls = some target →
        st'.minGasPrice.val = approach (stepBound divisor) target.val st.minGasPrice.val := by
  obtain ⟨hprice, htarget⟩ := foldl_dispatch calls st
  rw [h] at htarget
  unfold runBlock
  cases hnoted : notedTarget calls with
  | none =>
    rw [hnoted] at htarget
    refine ⟨_, onFinalize_none htarget, htarget, fun _ => hprice, fun target h => ?_⟩
    cases h
  | some target =>
    rw [hnoted] at htarget
    obtain ⟨st', hfinalize, hkilled, hval⟩ := onFinalize_some hdivisor htarget
    rw [hprice] at hval
    refine ⟨st', hfinalize, hkilled, fun h => ?_, fun target' h => ?_⟩
    · cases h
    · cases h
      exact hval

theorem runBlocks_cons {mid : Storage} {calls : List Call} {blocks : List (List Call)}
    (hblock : runBlock divisor st calls = some mid) (hrun : runBlocks divisor mid blocks = some st') :
    runBlocks divisor st (calls :: blocks) = some st' := by
  show (runBlock divisor st calls).bind (fun mid => runBlocks divisor mid blocks) = some st'
  rw [hblock]
  exact hrun

/-- A run keeps the price in every range that has the first price and the targets. -/
theorem runBlocks_range (hdivisor : 2 ≤ divisor.val) {lo hi : U256} (blocks : List (List Call)) :
    ∀ {st : Storage}, st.targetMinGasPrice = none → lo ≤ st.minGasPrice → st.minGasPrice ≤ hi →
      (∀ calls ∈ blocks, ∀ target, notedTarget calls = some target → lo ≤ target ∧ target ≤ hi) →
      ∃ st', runBlocks divisor st blocks = some st' ∧ lo ≤ st'.minGasPrice ∧ st'.minGasPrice ≤ hi := by
  induction blocks with
  | nil => exact fun _ hlo hhi _ => ⟨_, rfl, hlo, hhi⟩
  | cons calls blocks ih =>
    intro st hnone hlo hhi htargets
    obtain ⟨mid, hblock, hmid, hunchanged, hstep⟩ := runBlock_spec hdivisor hnone calls
    have hrange : lo ≤ mid.minGasPrice ∧ mid.minGasPrice ≤ hi := by
      cases hnoted : notedTarget calls with
      | none =>
        rw [hunchanged hnoted]
        exact ⟨hlo, hhi⟩
      | some target =>
        obtain ⟨hlot, hthi⟩ := htargets calls List.mem_cons_self target hnoted
        have hval := hstep target hnoted
        rw [Fin.le_def, Fin.le_def, hval]
        exact ⟨le_approach hlo hlot, approach_le hhi hthi⟩
    obtain ⟨st', hrun, hrange'⟩ := ih hmid hrange.1 hrange.2 fun calls' h =>
      htargets calls' (List.mem_cons_of_mem _ h)
    exact ⟨st', runBlocks_cons hblock hrun, hrange'⟩

/-- A run whose blocks all note one target iterates the steps towards it. -/
theorem runBlocks_iterate (hdivisor : 2 ≤ divisor.val) {target : U256}
    (blocks : List (List Call)) :
    ∀ {st : Storage}, st.targetMinGasPrice = none →
      (∀ calls ∈ blocks, notedTarget calls = some target) →
      ∃ st', runBlocks divisor st blocks = some st' ∧
        st'.minGasPrice.val =
          (approach (stepBound divisor) target.val)^[blocks.length] st.minGasPrice.val := by
  induction blocks with
  | nil => exact fun _ _ => ⟨_, rfl, rfl⟩
  | cons calls blocks ih =>
    intro st hnone hnoted
    obtain ⟨mid, hblock, hmid, -, hstep⟩ := runBlock_spec hdivisor hnone calls
    obtain ⟨st', hrun, hval⟩ := ih hmid fun calls' h => hnoted calls' (List.mem_cons_of_mem _ h)
    refine ⟨st', runBlocks_cons hblock hrun, ?_⟩
    rw [hval, hstep target (hnoted calls List.mem_cons_self), List.length_cons,
      Function.iterate_succ_apply]

/-- **The minimum gas price.** The end of a block adjusts the price without a panic. In every run from
genesis the price stays in the range of the first price and the targets, and if all blocks note the same
target, it is reached and kept. -/
theorem minGasPrice_adjusted (hdivisor : 2 ≤ divisor.val) :
    (∀ st, ∃ st', onFinalize divisor st = some st' ∧ Adjusted divisor st st') ∧
    (∀ price blocks lo hi, lo ≤ price → price ≤ hi →
      (∀ calls ∈ blocks, ∀ target, notedTarget calls = some target → lo ≤ target ∧ target ≤ hi) →
      ∃ st, runBlocks divisor (genesis price) blocks = some st ∧ lo ≤ st.minGasPrice ∧
        st.minGasPrice ≤ hi) ∧
    ∀ price target, ∃ n, ∀ blocks, n ≤ blocks.length →
      (∀ calls ∈ blocks, notedTarget calls = some target) →
      ∃ st, runBlocks divisor (genesis price) blocks = some st ∧ st.minGasPrice = target := by
  refine ⟨onFinalize_adjusted hdivisor, ?_, fun price target => ?_⟩
  · exact fun price blocks lo hi hlo hhi => runBlocks_range hdivisor blocks rfl hlo hhi
  · refine ⟨max price.val target.val - min price.val target.val, fun blocks hlength hnoted => ?_⟩
    have hnone : (genesis price).targetMinGasPrice = none := rfl
    obtain ⟨st, hrun, hval⟩ := runBlocks_iterate hdivisor blocks hnone hnoted
    refine ⟨st, hrun, Fin.ext ?_⟩
    rw [hval]
    exact iterate_approach (fun _ => Nat.succ_pos _) _ hlength

/-- A divisor of 1024. -/
theorem minGasPrice_adjusted_1024 :
    (∀ st, ∃ st', onFinalize 1024 st = some st' ∧ Adjusted 1024 st st') ∧
    (∀ price blocks lo hi, lo ≤ price → price ≤ hi →
      (∀ calls ∈ blocks, ∀ target, notedTarget calls = some target → lo ≤ target ∧ target ≤ hi) →
      ∃ st, runBlocks 1024 (genesis price) blocks = some st ∧ lo ≤ st.minGasPrice ∧
        st.minGasPrice ≤ hi) ∧
    ∀ price target, ∃ n, ∀ blocks, n ≤ blocks.length →
      (∀ calls ∈ blocks, notedTarget calls = some target) →
      ∃ st, runBlocks 1024 (genesis price) blocks = some st ∧ st.minGasPrice = target :=
  minGasPrice_adjusted (by decide)

/-- The price saturates at the largest `U256`. -/
example : ((runBlock 1024 (genesis (Fin.last _ - 5)) [⟨.none, Fin.last _⟩]).map
    Storage.minGasPrice) = some (Fin.last _) := by decide +kernel

end Shadows.DynamicFee
