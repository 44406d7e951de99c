import Shadows.Rpc.ExecutionFailure
import Shadows.Foundations.Bisection
import Shadows.Foundations.Loops

/-!
# Estimates of gas

With the feature `rpc_binary_search_estimate`, `estimate_gas` searches for the gas limit of a request by
trying limits. Arithmetic on `U256` panics if it overflows, and the methods have no result where they
panic or do not return.
-/

namespace Shadows.Rpc

open Foundations

/-! ## The search -/

/-- The variables of the search. -/
structure GasSearch where
  lower : U256
  upper : U256
  mid : U256
  best : U256
  changePct : U256

def initialSearch : GasSearch := ⟨21000, 1000000000, 1000000000, 1000000000, 100⟩

def thresholdPct : U256 := 10

/-- `(U256::from(100) * (old_best - best)) / old_best`. -/
def changePct (oldBest best : U256) : Option U256 :=
  (oldBest.checkedSub best).bind fun change =>
    (U256.checkedMul 100 change).bind fun product => product.checkedDiv oldBest

/-- `(lower + upper + 1) / 2`. -/
def midpoint (lower upper : U256) : Option U256 :=
  (lower.checkedAdd upper).bind fun sum =>
    (sum.checkedAdd 1).bind fun sum => sum.checkedDiv 2

section Search

variable {ε : Type} (outcome : U256 → Option (Except ε U256))

/-- One turn of `while change_pct > threshold_pct`, with the outcome of every gas limit. -/
def estimateTurn (s : GasSearch) : Turn GasSearch (Option U256) :=
  if thresholdPct < s.changePct then
    match outcome s.mid with
    | none => .exit none
    | some (.ok usedGas) =>
      match changePct s.best usedGas, midpoint s.lower s.mid with
      | some changePct, some mid => .next ⟨s.lower, s.mid, mid, usedGas, changePct⟩
      | _, _ => .exit none
    | some (.error _) =>
      match midpoint s.mid s.upper with
      | some mid =>
        if mid = s.mid then .exit (some s.best)
        else .next { s with lower := s.mid, mid := mid }
      | none => .exit none
  else .exit (some s.best)

/-- The search, with one turn for every value of its variant. -/
def searchEstimate : Option (Except ε U256) :=
  (loop (estimateTurn outcome) (2 ^ 31) initialSearch).join.map .ok

end Search

/-! ## The method -/

section Method

variable (overflowChecks : Bool) (debug : ExitReason → String) (api : ExecutionApi)

def calculateGasUsed (request : CallRequest) : Option (Except RpcFailure U256) :=
  match request.to with
  | some «to» =>
    (checkExecution overflowChecks debug id (api.call «to» (request.input true))).map fun result =>
      result.map fun info => info.usedGas
  | none =>
    (checkExecution overflowChecks debug (fun _ => []) (api.create (request.input true))).map
      fun result => result.map fun info => info.usedGas

def estimateGas (rpcBinarySearchEstimate : Bool) (request : CallRequest) :
    Option (Except RpcFailure U256) :=
  if rpcBinarySearchEstimate then
    searchEstimate fun gas =>
      calculateGasUsed overflowChecks debug api { request with gas := some gas }
  else calculateGasUsed overflowChecks debug api request

end Method

/-! ## Outcomes -/

section Outcomes

variable {ε : Type} (outcome : U256 → Except ε U256)

/-- A call succeeds with a gas limit. -/
def Succeeds (gasLimit : U256) : Prop := ∃ usedGas, outcome gasLimit = .ok usedGas

/-- A call that succeeds uses some gas, and no more than its limit. -/
def WithinLimit : Prop := ∀ gasLimit usedGas, outcome gasLimit = .ok usedGas →
  0 < usedGas ∧ usedGas ≤ gasLimit

/-- A call that succeeds does so with every larger limit, and uses no less gas with it. -/
def MonotoneOutcome : Prop := ∀ gasLimit gasLimit' usedGas, gasLimit ≤ gasLimit' →
  outcome gasLimit = .ok usedGas → ∃ usedGas', outcome gasLimit' = .ok usedGas' ∧ usedGas ≤ usedGas'

/-- The states that the search comes to. -/
abbrev Searched (s : GasSearch) : Prop :=
  Visits (estimateTurn fun gasLimit => some (outcome gasLimit)) initialSearch s

/-- The search is about to try the limit `s.mid`, and the call succeeds with it. -/
structure TriesSuccess (s : GasSearch) (usedGas : U256) : Prop where
  searched : Searched outcome s
  running : thresholdPct < s.changePct
  succeeds : outcome s.mid = .ok usedGas

/-- A call that succeeds from `leastLimit` on, and uses `usedWith` of the limit. -/
structure Demand (leastLimit : U256) (usedWith : U256 → U256) : Prop where
  fails : ∀ gasLimit < leastLimit, ∃ err, outcome gasLimit = .error err
  uses : ∀ gasLimit ≥ leastLimit, outcome gasLimit = .ok (usedWith gasLimit)

/-- A call never uses more gas with a lower limit, among the limits of the search. -/
def UsesNoMore : Prop := ∀ gasLimit gasLimit' usedGas usedGas', initialSearch.lower ≤ gasLimit →
  gasLimit ≤ gasLimit' → gasLimit' ≤ initialSearch.upper → outcome gasLimit = .ok usedGas →
    outcome gasLimit' = .ok usedGas' → usedGas ≤ usedGas'

/-- The change of the gas used, in percent, is not above the threshold. -/
def SmallChange (oldBest best : U256) : Prop :=
  100 * (oldBest.val - best.val) / oldBest.val ≤ thresholdPct.val

instance (oldBest best : U256) : Decidable (SmallChange oldBest best) :=
  inferInstanceAs (Decidable (_ ≤ _))

/-- A call fails with the first limit of the search, or uses almost all of it. -/
def SettlesFirst : Prop := ∀ usedGas, outcome initialSearch.upper = .ok usedGas →
  SmallChange initialSearch.upper usedGas

/-- The search returns an estimate, without a panic, and keeps its bounds in order. -/
def SafeSearch : Prop :=
  (∃ gas, searchEstimate (fun gasLimit => some (outcome gasLimit)) = some (.ok gas)) ∧
    ∀ s, Searched outcome s → s.lower ≤ s.mid ∧ s.mid ≤ s.upper

/-- A call succeeds with its estimate, and has none if it fails with every limit. -/
def SufficientSearch : Prop :=
  (∀ gas, searchEstimate (fun gasLimit => some (outcome gasLimit)) = some (.ok gas) →
      Succeeds outcome gas) ∧
    ((∀ gasLimit ≤ initialSearch.upper, ¬ Succeeds outcome gasLimit) →
      ∃ err, searchEstimate (fun gasLimit => some (outcome gasLimit)) = some (.error err))

end Outcomes

/-! ## Limits by bisection -/

/-- The middle, rounded up. -/
def middleLimit (lower upper : U256) : U256 :=
  ⟨(lower.val + upper.val + 1) / 2, by omega⟩

/-- The first bounds of the search. -/
def limitBounds : Bounds U256 := ⟨initialSearch.lower, initialSearch.upper⟩

section Bisection

variable (leastLimit : U256) (usedWith : U256 → U256)

/-- The limits that a bisection for the least limit tries. -/
def triedLimit (n : ℕ) : U256 := bisectionTry middleLimit leastLimit limitBounds n

/-- The gas used with the upper bound, and at first the upper bound itself. -/
def usedBefore : ℕ → U256
  | 0 => limitBounds.upper
  | n + 1 => usedWith (bisected middleLimit leastLimit limitBounds n).upper

/-- The `n`-th limit is not below the least one, and the gas used with it is close to what was used
before. -/
structure Settles (n : ℕ) : Prop where
  sufficient : leastLimit ≤ triedLimit leastLimit n
  small : SmallChange (usedBefore leastLimit usedWith n) (usedWith (triedLimit leastLimit n))

end Bisection

/-- A call that needs 40000 units of gas, but only 30000 with the largest limit. -/
def frugalCall (gasLimit : U256) : Except Unit U256 :=
  if gasLimit = 1000000000 then .ok 30000 else if 40000 ≤ gasLimit then .ok 40000 else .error ()

/-- A call that needs a limit of 30000 units, of which it uses 25000. -/
def reservingCall (gasLimit : U256) : Except Unit U256 :=
  if 30000 ≤ gasLimit then .ok 25000 else .error ()

/-- A call that uses the whole limit that it needs. -/
def exactCall (gasLimit : U256) : Except Unit U256 :=
  if 40000 ≤ gasLimit then .ok 40000 else .error ()

/-- A call that fails with every limit. -/
def failingCall (_gasLimit : U256) : Except Unit U256 := .error ()

end Shadows.Rpc
