import Shadows.Ethereum.Histories

/-!
# `validate_unsigned`

The transaction pool asks the pallet whether a transaction is valid and which tags it requires. Its
checks are made with saturating arithmetic on the full gas limit.
-/

namespace Shadows.Ethereum

inductive TransactionValidationError where
  | unknownError
  | invalidChainId
  | invalidSignature

/-- The cast to `u8`. -/
def TransactionValidationError.code : TransactionValidationError → UInt8
  | .unknownError => 0
  | .invalidChainId => 1
  | .invalidSignature => 2

/-- `sp_runtime::transaction_validity::InvalidTransaction`, as far as the pallet returns it. -/
inductive InvalidTransaction where
  | call
  | payment
  | stale
  | custom (code : UInt8)
  deriving DecidableEq

/-- `ValidTransaction`, with the tags of the pallet; the rest are the builder's defaults. -/
structure ValidTransaction where
  requires : List (H160 × U256)
  provides : List (H160 × U256)

/-- `Call`: besides `transact` there is only the variant of the macro that holds no call. -/
inductive Call where
  | transact (transaction : Transaction)
  | phantomItem

/-- What `validate_unsigned` reads apart from the runtime. -/
structure ChainIds where
  /-- `T::ChainId`. -/
  chainId : UInt64
  /-- `TransactionSignature::chain_id`. -/
  signatureChainId : TransactionSignature → Option UInt64

variable {S AccountId M : Type} (rt : Runtime S AccountId M) (ids : ChainIds)

def validateUnsigned (call : Call) (st : State (Evm.World S)) :
    Except InvalidTransaction ValidTransaction :=
  match call with
  | .phantomItem => .error .call
  | .transact transaction =>
    if (ids.signatureChainId transaction.signature).any fun chainId => chainId ≠ ids.chainId then
      .error (.custom TransactionValidationError.invalidChainId.code)
    else
      match recoverSigner rt.ethereum transaction with
      | none => .error (.custom TransactionValidationError.invalidSignature.code)
      | some origin =>
        let accountData := Evm.accountBasic rt.evm st.world origin
        if transaction.nonce < accountData.nonce then .error .stale
        else
          let fee := transaction.gasPrice.saturatingMul transaction.gasLimit
          let totalPayment := transaction.value.saturatingAdd fee
          if accountData.balance < totalPayment then .error .payment
          else if transaction.gasPrice < rt.evm.minGasPrice st.world then .error .payment
          else
            .ok
              { provides := [(origin, transaction.nonce)]
                requires :=
                  if accountData.nonce < transaction.nonce then
                    match transaction.nonce.checkedSub 1 with
                    | some prevNonce => [(origin, prevNonce)]
                    | none => []
                  else [] }

/-! ## On the ledger -/

/-- The chain id of the runtime, and the one that a signature carries in `v`. -/
def ledgerChainIds : ChainIds where
  chainId := 888
  signatureChainId := fun signature =>
    if 36 < signature.v then some ((signature.v - 35) / 2) else none

end Shadows.Ethereum
