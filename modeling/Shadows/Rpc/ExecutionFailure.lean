import Shadows.Primitives.Ethereum

/-!
# Failed executions

`error_on_execution_failure` turns the exit reason of an execution into an error of the RPC, and reads
the reason of a revert from the data that the contract has returned. It has no result where it panics.
An addition of bytes that overflows panics in a build with `overflowChecks`, and wraps around in others.
-/

namespace Shadows.Rpc

/-- `jsonrpc_core::Error`; the code is `ErrorCode::InternalError`, the data a string. -/
structure RpcFailure where
  message : String
  data : Option String
  deriving DecidableEq

def internalErr (message : String) : RpcFailure := ⟨message, none⟩

/-- `to_hex` of bytes. -/
def toHex (bytes : Bytes) : String :=
  .ofList (bytes.flatMap fun b => [Nat.digitChar (b.toNat / 16), Nat.digitChar (b.toNat % 16)])

/-- `std::str::from_utf8`. -/
def fromUtf8 (bytes : Bytes) : Option String := String.fromUTF8? bytes.toByteArray

section Revert

variable (overflowChecks : Bool)

/-- `iter().sum::<u8>()`. -/
def sumU8 (bytes : Bytes) : Option UInt8 :=
  bytes.foldlM (fun sum b =>
    if overflowChecks ∧ 256 ≤ sum.toNat + b.toNat then none else some (sum + b)) 0

/-- The fixed part of the message of a revert. -/
def revertPrefix : String := "VM Exception while processing transaction: revert"

/-- The message with the reason in it, which is left out if it is not UTF-8. -/
def withReason (body : Bytes) : String :=
  match fromUtf8 body with
  | some reason => revertPrefix ++ " " ++ reason
  | none => revertPrefix

/-- The message of a revert. The reason is behind the selector, the offset and the length, which take
68 bytes. -/
def revertMessage (data : Bytes) : Option String :=
  if 68 < data.length then
    (slice data 36 68).bind fun length =>
      (sumU8 overflowChecks length).bind fun messageLen =>
        (slice data 68 (68 + messageLen.toNat)).map withReason
  else some revertPrefix

/-- `debug` is the `{:?}` text of what an exit reason carries. -/
def errorOnExecutionFailure (debug : ExitReason → String) (reason : ExitReason) (data : Bytes) :
    Option (Except RpcFailure Unit) :=
  match reason with
  | .succeed => some (.ok ())
  | .error _ => some (.error ⟨"evm error: " ++ debug reason, some "0x"⟩)
  | .revert => (revertMessage overflowChecks data).map fun message =>
      .error ⟨message, some (toHex data)⟩
  | .fatal => some (.error ⟨"evm fatal: " ++ debug reason, some "0x"⟩)

end Revert

/-! ## Calls -/

structure CallRequest where
  «from» : Option H160
  «to» : Option H160
  gasPrice : Option U256
  gas : Option U256
  value : Option U256
  data : Option Bytes
  nonce : Option U256

/-- What a call or a creation is executed with. -/
structure ExecutionInput where
  «from» : H160
  data : Bytes
  value : U256
  gasLimit : U256
  gasPrice : Option U256
  nonce : Option U256
  estimate : Bool

/-- `call` and `create` of the runtime API at the best block. The texts are the `{:?}` ones of an error
of the API, and of one of the execution. -/
structure ExecutionApi where
  call : H160 → ExecutionInput → Except String (Except String (ExecutionInfo Bytes))
  create : ExecutionInput → Except String (Except String (ExecutionInfo H160))

def CallRequest.input (request : CallRequest) (estimate : Bool) : ExecutionInput where
  «from» := request.from.getD 0
  data := request.data.getD []
  value := request.value.getD 0
  gasLimit := request.gas.getD (Fin.last _)
  gasPrice := request.gasPrice
  nonce := request.nonce
  estimate := estimate

section Call

variable (overflowChecks : Bool) (debug : ExitReason → String)

/-- The execution, unless it has failed; `data` is what a revert has returned. -/
def checkExecution {R : Type} (data : R → Bytes)
    (executed : Except String (Except String (ExecutionInfo R))) :
    Option (Except RpcFailure (ExecutionInfo R)) :=
  match executed with
  | .error err => some (.error (internalErr ("runtime error: " ++ err)))
  | .ok (.error err) => some (.error (internalErr ("execution fatal: " ++ err)))
  | .ok (.ok info) =>
    (errorOnExecutionFailure overflowChecks debug info.exitReason (data info.value)).map fun result =>
      result.map fun _ => info

def call (api : ExecutionApi) (request : CallRequest) : Option (Except RpcFailure Bytes) :=
  match request.to with
  | some «to» =>
    (checkExecution overflowChecks debug id (api.call «to» (request.input false))).map fun result =>
      result.map fun info => info.value
  | none =>
    (checkExecution overflowChecks debug (fun _ => []) (api.create (request.input false))).map
      fun result => result.map fun info => info.value.asBytes

end Call

/-! ## Revert data -/

/-- The sum that `error_on_execution_failure` takes for the length of the reason. -/
def lengthSum (data : Bytes) : ℕ := (((data.drop 36).take 32).map UInt8.toNat).sum

/-- The sum does not overflow, and there are as many bytes behind the length. -/
def Readable (data : Bytes) : Prop :=
  data.length ≤ 68 ∨ lengthSum data < 256 ∧ 68 + lengthSum data ≤ data.length

instance : DecidablePred Readable := fun _ => inferInstanceAs (Decidable (_ ∨ _))

/-- The bytes of a string. -/
def utf8 (s : String) : Bytes := s.toByteArray.data.toList

/-- The number of zeros after `n` bytes, up to a multiple of 32. -/
def paddingLength (n : ℕ) : ℕ := (32 - n % 32) % 32

/-- The ABI encoding of `Error(s)`: the selector, the offset, the length and the padded bytes. -/
def encodeError (s : String) : Bytes :=
  [8, 195, 121, 160] ++ Foundations.bigEndian 32 32 ++ Foundations.bigEndian 32 s.utf8ByteSize ++
    utf8 s ++ List.replicate (paddingLength s.utf8ByteSize) 0

/-- The message that reports the reason `s`. -/
def reportedReason (s : String) : String :=
  if s = "" then revertPrefix else revertPrefix ++ " " ++ s

/-- Revert data with one byte behind a length of 32. -/
def shortData : Bytes := List.replicate 67 0 ++ [32, 0]

/-- A reason of 256 bytes. -/
def longReason : String := .ofList (List.replicate 256 'a')

end Shadows.Rpc
