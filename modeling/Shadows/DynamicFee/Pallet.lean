import Shadows.Primitives.Types

/-!
# The pallet `DynamicFee`

The minimum gas price moves towards a target that the author of a block notes, at the end of the block
and by a bounded amount. Arithmetic on `U256` panics if it overflows, and what panics has no result.
-/

namespace Shadows.DynamicFee

/-- `frame_system::RawOrigin`. -/
inductive Origin where
  | root
  | signed (who : H160)
  | none
  deriving DecidableEq

inductive Event where
  | targetMinGasPriceSet (target : U256)
  deriving DecidableEq

/-- `frame_support::dispatch::DispatchError`, as far as the pallet returns it. -/
inductive DispatchError where
  | badOrigin
  deriving DecidableEq

/-- The storage of the pallet, and the events that it has deposited. -/
structure Storage where
  minGasPrice : U256
  targetMinGasPrice : Option U256
  events : List Event
  deriving DecidableEq

/-- The storage at genesis. -/
def genesis (minGasPrice : U256) : Storage := ⟨minGasPrice, none, []⟩

/-! ## Calls -/

def ensureNone (origin : Origin) : Except DispatchError Unit :=
  if origin = .none then .ok () else .error .badOrigin

def noteMinGasPriceTarget (origin : Origin) (target : U256) (st : Storage) :
    Except DispatchError Storage :=
  (ensureNone origin).map fun _ =>
    { st with
      targetMinGasPrice := some target
      events := st.events ++ [.targetMinGasPriceSet target] }

/-- A call of `note_min_gas_price_target`. -/
structure Call where
  origin : Origin
  target : U256

/-- A call that fails leaves the storage unchanged. -/
def Call.dispatch (st : Storage) (call : Call) : Storage :=
  match noteMinGasPriceTarget call.origin call.target st with
  | .ok st' => st'
  | .error _ => st

/-! ## The end of a block -/

section Finalize

variable (minGasPriceBoundDivisor : U256)

/-- `MinGasPrice::get() / T::MinGasPriceBoundDivisor::get() + U256::one()`. -/
def priceBound (minGasPrice : U256) : Option U256 :=
  (minGasPrice.checkedDiv minGasPriceBoundDivisor).bind fun quotient => quotient.checkedAdd 1

def onFinalize (st : Storage) : Option Storage :=
  match st.targetMinGasPrice with
  | some target =>
    (priceBound minGasPriceBoundDivisor st.minGasPrice).map fun bound =>
      let upperLimit := st.minGasPrice.saturatingAdd bound
      let lowerLimit := st.minGasPrice.saturatingSub bound
      { st with
        minGasPrice := min upperLimit (max lowerLimit target)
        targetMinGasPrice := none }
  | none => some { st with targetMinGasPrice := none }

/-! ## Blocks -/

/-- The calls of a block, and its end. -/
def runBlock (st : Storage) (calls : List Call) : Option Storage :=
  onFinalize minGasPriceBoundDivisor (calls.foldl Call.dispatch st)

def runBlocks (st : Storage) (blocks : List (List Call)) : Option Storage :=
  blocks.foldlM (runBlock minGasPriceBoundDivisor) st

end Finalize

/-- The target that is noted at the end of a block: the last one of an inherent. -/
def notedTarget (calls : List Call) : Option U256 :=
  ((calls.filter fun call => call.origin = .none).getLast?).map Call.target

/-! ## What the adjustment is for -/

/-- The price after the adjustment, with the target that was noted. -/
structure Adjusted (minGasPriceBoundDivisor : U256) (st st' : Storage) : Prop where
  unchanged : st.targetMinGasPrice = none → st'.minGasPrice = st.minGasPrice
  between : ∀ target, st.targetMinGasPrice = some target →
    min st.minGasPrice target ≤ st'.minGasPrice ∧ st'.minGasPrice ≤ max st.minGasPrice target
  near : st'.minGasPrice.val ≤
      st.minGasPrice.val + (st.minGasPrice.val / minGasPriceBoundDivisor.val + 1) ∧
    st.minGasPrice.val ≤
      st'.minGasPrice.val + (st.minGasPrice.val / minGasPriceBoundDivisor.val + 1)
  reaches : ∀ target, st.targetMinGasPrice = some target →
    target.val ≤ st.minGasPrice.val + (st.minGasPrice.val / minGasPriceBoundDivisor.val + 1) →
    st.minGasPrice.val ≤ target.val + (st.minGasPrice.val / minGasPriceBoundDivisor.val + 1) →
    st'.minGasPrice = target
  killed : st'.targetMinGasPrice = none

end Shadows.DynamicFee
